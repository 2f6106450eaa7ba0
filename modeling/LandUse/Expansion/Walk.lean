import LandUse.Expansion.Program

/-! A work list holds the code that is still to be expanded, and the changes of scope in between. -/

namespace LandUse

structure Emission (α : Type) where
  instr : Instr α
  scope : Scope

namespace Walk

inductive Task where
  | code (tokens : List CodeToken)
  | enter (equation : String)
  | leave (frame : Frame)
  | iterate (first : Bool) (equation dim : String) (iterations : List Iteration) (frame : Frame)
  | finish (equation dim : String) (outer : Option Nat) (frame : Frame)

structure State (α : Type) where
  scope : Scope
  memo : Catalog.Memo
  emitted : List (Emission α) := []

abbrev WalkM (α : Type) := ExceptT Fault (StateM (State α))

variable {α : Type} [Scalar α]

def emit (i : Instr α) : WalkM α Unit := modify fun s => { s with emitted := ⟨i, s.scope⟩ :: s.emitted }

def emitAll : List (Instr α) → WalkM α Unit
  | [] => return
  | i :: is => do
    emit i
    emitAll is

def setFrame (f : Frame) : WalkM α Unit := modify fun s => { s with scope := s.scope.restore f }

def ask {β : Type} (q : Catalog.Query β) : WalkM α β := do
  let s ← get
  let (answer, memo) := q.run s.memo
  set { s with memo := memo }
  match answer with
  | .ok b => return b
  | .error e => throw (.failure e)

def check {β : Type} : Except Failure β → WalkM α β
  | .ok b => return b
  | .error e => throw (.failure e)

/-- Options iterate over all rows in scope each, other dimensions over their values in these rows. -/
def iterations (p : Program) (columns : List String) (dim : String) : WalkM α (List Iteration) := do
  let frame := (← get).scope.frame
  match (← check (p.catalog.resolve dim)).column? with
  | none => return p.catalog.optionValues.map fun v => ⟨v, frame.rows⟩
  | some column =>
    match columns.findIdx? (· == column) with
    | none => throw (.failure (.dimension frame.equation
        ("column " ++ column ++ " of dimension " ++ dim ++ " has not been read")))
    | some i =>
      let its := Program.groupBy i frame.rows
      let n ← ask (p.catalog.conditionalLength dim frame.bindings)
      if n == its.length then return its
      else throw (.failure (.dimension frame.equation
        ("loop over " ++ dim ++ ": length is " ++ toString n ++ ", but " ++ toString its.length ++ " values found")))

def loop (p : Program) (columns : List String) (keyword : Keyword) (dim : String) (body : List CodeToken) :
    WalkM α (List Task) := do
  let its ← iterations p columns dim
  let scope := (← get).scope
  let frame := scope.frame
  if its.isEmpty then
    if keyword.binary?.isNone then
      throw (.failure (.dimension frame.equation
        (keyword.name ++ "\x7b" ++ dim ++ "\x7d has no values to iterate")))
    emit (.num Scalar.zero)
    return []
  emitAll (keyword.header its.length).instrs
  let steps := its.zipIdx.flatMap fun (_, i) =>
    [Task.iterate (i == 0) frame.equation dim its frame, Task.code body]
  return steps ++ [.finish frame.equation dim (scope.counter? frame.equation dim) frame]

def token (p : Program) (columns : List String) (t : CodeToken) (rest : List CodeToken) : WalkM α (List Task) := do
  match t with
  | .number value =>
    emit (.num (Scalar.ofFloat value))
    return [.code rest]
  | .operation op =>
    emit (.op op)
    return [.code rest]
  | .list op count =>
    emit (.list op count)
    return [.code rest]
  | .param name isVariable subs =>
    match p.reference (← get).scope.frame columns name isVariable subs with
    | .ok i =>
      emit i
      return [.code rest]
    | .error e => throw e
  | .equation name =>
    match p.codes.get? name with
    | some c => return [.enter name, .code c.tokens, .leave (← get).scope.frame, .code rest]
    | none => throw (.failure (.lookup name (-1) ("unknown equation " ++ name)))
  | .loop keyword dim _ body =>
    let n := body.length.toNat
    return (← loop p columns keyword dim (rest.take n)) ++ [.code (rest.drop n)]

def step (p : Program) (columns : List String) : Task → WalkM α (List Task)
  | .code [] => return []
  | .code (t :: rest) => token p columns t rest
  | .enter equation => do
    setFrame { (← get).scope.frame with equation := equation }
    return []
  | .leave frame => do
    setFrame frame
    return []
  | .iterate first equation dim its frame => do
    let scope := (← get).scope
    let (k, scope) := if first then (1, scope.enter equation dim) else scope.advance equation dim
    modify fun s => { s with scope := scope }
    match its[k - 1]? with
    | none => throw .violation
    | some it =>
      setFrame ({ frame with rows := it.rows }.bind dim (some it.value))
      return []
  | .finish equation dim outer frame => do
    modify fun s => { s with scope := s.scope.giveBack equation dim outer }
    setFrame frame
    return []

def run (p : Program) (columns : List String) : Nat → List Task → WalkM α Unit
  | _, [] => return
  | 0, _ :: _ => throw .violation
  | fuel + 1, t :: ts => do
    let new ← step p columns t
    run p columns fuel (new ++ ts)

end Walk

mutual

/-- A bound on the number of steps, if loops have at most `breadth` iterations. -/
def Expr.walkSteps (breadth : Nat) (reference : String → Nat) : Expr → Nat
  | .number .. | .param .. => 1
  | .equation _ name => 4 + reference name
  | .negate _ _ arg => 1 + arg.walkSteps breadth reference
  | .binary _ _ _ lhs rhs => 1 + lhs.walkSteps breadth reference + rhs.walkSteps breadth reference
  | .group _ arg => arg.walkSteps breadth reference
  | .call _ _ _ _ _ args => 1 + argumentSteps breadth reference args
  | .loop _ _ _ _ _ _ arg => 2 + breadth * (2 + arg.walkSteps breadth reference)

def argumentSteps (breadth : Nat) (reference : String → Nat) : List Expr → Nat
  | [] => 0
  | e :: es => e.walkSteps breadth reference + argumentSteps breadth reference es

end

namespace Program

def breadth (p : Program) : Nat := max p.catalog.options.length p.catalog.table.rows.length

def equationSteps (p : Program) : Nat → String → Nat
  | 0, _ => 0
  | depth + 1, name =>
    match p.trees.get? name with
    | some e => e.walkSteps p.breadth (p.equationSteps depth)
    | none => 0

def walk {α : Type} [Scalar α] (p : Program) (columns : List String) (name : String) (tokens : List CodeToken) :
    Walk.WalkM α Unit :=
  Walk.run p columns (p.equationSteps (p.trees.length + 1) name + 1) [.code tokens]

end Program

end LandUse
