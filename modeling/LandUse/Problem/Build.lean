import LandUse.Expansion.Make
import LandUse.Linear.Rows
import LandUse.Nl.Bodies
import LandUse.Problem.Area
import LandUse.Problem.Model
import LandUse.Settings.Check

namespace LandUse

structure Build (α : Type) where
  program : Program
  memo : Catalog.Memo
  jobs : List (Job α)

namespace Build

variable {α : Type} [Scalar α]

def prepare (config : Config) (s : Settings) (t : Table) (criteria : Dict (List String) := s.criteria) :
    Except Failure (Build α) := do
  match s.check t.hasColumn with
  | .error e => throw (.settings e.message)
  | .ok _ =>
    let m ← Model.make config (Area.convert config s t) s criteria
    m.settings.equations.names.forM fun name => do
      let _ ← parseNamed m.settings.symbols m.settings.equations name
    let (program, memo) ← Program.make m.settings t (selection config t "")
    return ⟨program, memo, m.jobs⟩

def generateEach {σ : Type} (p : Program) (sink : Sink α σ) : List (Job α) → Generation σ → Except Fault σ
  | [], g => .ok g.sink
  | j :: js, g =>
    match p.generate sink j.equation j.segment g with
    | (.ok _, g) => generateEach p sink js g
    | (.error e, _) => .error e

def run {σ : Type} (b : Build α) (sink : Sink α σ) (start : σ) : Except Fault σ :=
  generateEach b.program sink b.jobs { memo := b.memo, sink := start }

def boundsOf : Option Variable → Float × Float
  | some v => if v.hasBounds then (v.lower, v.upper) else (0, Number.infinity)
  | none => (0, Number.infinity)

def bounds (b : Build α) (v : VariableInstance) : Float × Float :=
  boundsOf (b.program.offsets.declaration? v.name)

def columns (b : Build α) : Except Failure (Matrix α) :=
  b.program.offsets.entries.foldlM (fun m v => do
    let (i, m) ← m.addColumn (b.program.offsets.nameOf v) v.kind
    let (lower, upper) := b.bounds v
    return m.bound i lower upper) {}

def matrix (b : Build α) : Except Fault (Matrix α) := do
  let m ← orFault b.columns
  let s ← b.run RowSink.sink { matrix := m }
  return s.matrix

def initialValue (lower upper : Float) : Float := Number.minimum (Number.maximum 0 lower) upper

def document (b : Build α) : Except Fault (Nl.Document α) := do
  let s ← b.run Nl.BodySink.sink {}
  let entries := b.program.offsets.entries
  let d := entries.zipIdx.foldl (fun d (v, i) =>
    let (lower, upper) := b.bounds v
    (d.addBounds lower upper).setInitial i (initialValue lower upper)) s.document
  return d.setDiscrete (entries.filter (·.kind != .real)).length

end Build

structure Problem where
  config : Config
  settings : Settings
  table : Option Table

namespace Problem

variable {α : Type} [Scalar α]

/-- Every output is made by a build of its own, which goes through the `criteria` in its own order. -/
def prepare (p : Problem) (criteria : Dict (List String) := p.settings.criteria) : Except Fault (Build α) :=
  match p.table with
  | none => .error (.failure (.settings "problem needs settings and a table"))
  | some t => orFault (Build.prepare p.config p.settings t criteria)

def matrix (p : Problem) (criteria : Dict (List String) := p.settings.criteria) : Except Fault (Matrix α) := do
  (← p.prepare criteria).matrix

def document (p : Problem) (criteria : Dict (List String) := p.settings.criteria) : Except Fault (Nl.Document α) := do
  (← p.prepare criteria).document

end Problem

end LandUse
