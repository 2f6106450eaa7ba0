import LandUse.Expansion.Walk

/-! Rows are split into groups of equal free values. Every group makes a segment, which goes to a sink, also if its
expansion has failed. -/

namespace LandUse

structure Sink (α σ : Type) where
  /-- Takes the instructions of a segment; `complete` tells whether its expansion has come to an end. -/
  receive : σ → Segment α → List (Emission α) → (complete : Bool) → Except Fault Unit × σ

structure Generation (σ : Type) where
  scope : Scope := {}
  memo : Catalog.Memo := {}
  sink : σ

namespace Program

def columnsOf (c : Catalog) (dims : List String) : Except Failure (List String) :=
  dims.mapM fun d => do return (← c.resolve d).column?.getD ""

def readRows (p : Program) (e : IndexEntry) : Except Failure (List Row) :=
  if e.columns.isEmpty then .ok []
  else do
    let order ← columnsOf p.catalog (e.free ++ e.loops)
    p.catalog.table.select e.columns p.catalog.condition order

def project (columns wanted : List String) (row : Row) : List Value :=
  wanted.filterMap fun w => (columns.findIdx? (· == w)).bind (row[·]?)

def sameValues : List Value → List Value → Bool
  | [], [] => true
  | v :: vs, w :: ws => v.equal w && sameValues vs ws
  | _, _ => false

def splitGroups (key : Row → List Value) : List Row → List (List Row)
  | [] => []
  | row :: rows =>
    match splitGroups key rows with
    | [] => [[row]]
    | [] :: groups => [row] :: groups
    | (next :: more) :: groups =>
      if sameValues (key row) (key next) then (row :: next :: more) :: groups
      else [row] :: (next :: more) :: groups

def groupRows (columns free : List String) (rows : List Row) : List (List Row) :=
  if free.isEmpty then [rows] else splitGroups (project columns free) rows

def groupBindings (columns : List String) (free : List (String × String)) (rows : List Row) : List Binding :=
  match rows with
  | [] => []
  | row :: _ => free.filterMap fun (dim, column) =>
    ((columns.findIdx? (· == column)).bind (row[·]?)).map fun v => ⟨dim, some v⟩

variable {α σ : Type} [Scalar α]

def generateGroup (p : Program) (sink : Sink α σ) (entry : IndexEntry) (code : Code) (template : Segment α)
    (base : Frame) (bindings : List Binding) (rows : List Row) (g : Generation σ) :
    Except Fault Unit × Generation σ :=
  let frame : Frame := ⟨entry.name, base.bindings ++ bindings, rows⟩
  let (outcome, s) := (p.walk (α := α) entry.columns entry.name code.tokens).run ⟨g.scope.restore frame, g.memo, []⟩
  let label := Segment.labelFor template.label (bindings.map fun b => b.value.toText)
  let segment := { template with label := label, group := bindings }
  let (received, state) := sink.receive g.sink segment s.emitted.reverse outcome.toBool
  (match outcome with
    | .ok _ => received
    | .error e => .error e, ⟨s.scope, s.memo, state⟩)

def generateGroups (p : Program) (sink : Sink α σ) (entry : IndexEntry) (code : Code) (template : Segment α)
    (base : Frame) : List (List Binding × List Row) → Generation σ → Except Fault Unit × Generation σ
  | [], g => (.ok (), g)
  | (bindings, rows) :: groups, g =>
    match p.generateGroup sink entry code template base bindings rows g with
    | (.ok _, g) => p.generateGroups sink entry code template base groups g
    | (.error e, g) => (.error e, g)

def groupsOf (p : Program) (name : String) (template : Segment α) :
    Except Failure (IndexEntry × Code × List (List Binding × List Row)) := do
  let entry ← p.index.entry name
  match p.codes.get? name with
  | none => throw (.lookup name (-1) ("unknown equation " ++ name))
  | some code =>
    match template.kind with
    | .objective .. =>
      if !entry.free.isEmpty then
        throw (.dimension name ("objective has free dimensions [" ++ " ".intercalate entry.free ++ "]"))
    | .constraint .. => pure ()
    let rows ← p.readRows entry
    let columns ← columnsOf p.catalog entry.free
    let groups := groupRows entry.columns columns rows
    return (entry, code, groups.map fun rows =>
      (groupBindings entry.columns (entry.free.zip columns) rows, rows))

def generate (p : Program) (sink : Sink α σ) (name : String) (template : Segment α) (g : Generation σ) :
    Except Fault Nat × Generation σ :=
  match p.groupsOf name template with
  | .error e => (.error (.failure e), g)
  | .ok (entry, code, groups) =>
    let base := g.scope.frame
    let (outcome, g) := p.generateGroups sink entry code template base groups g
    (outcome.map fun _ => groups.length, { g with scope := g.scope.restore base })

def declareAll (vs : List Variable) : Except Failure Offsets :=
  vs.foldlM (fun o v => o.declare v) {}

def make (s : Settings) (t : Table) (condition : String) : Except Failure (Program × Catalog.Memo) := do
  let index ← Index.build s
  let catalog ← Catalog.make t s.dimensions s.options condition
  let declared ← declareAll s.decisions
  let (built, offsets, memo) := declared.build catalog {}
  built
  let trees ← s.equations.names.mapM fun name => do return (name, ← parseNamed s.symbols s.equations name)
  let codes := trees.map fun (name, e) => (name, Code.ofExpr name e)
  return (⟨s, trees, codes, index, catalog, offsets⟩, memo)

end Program

end LandUse
