import LandUse.Expansion.Make
import LandUse.Proofs.Outcome

/-! Direct expansion: recursion over the tree, without a work list and without counters. -/

namespace LandUse.Direct

/-- What is in scope at an instruction, and the loops around it with their iterations, innermost first. -/
structure Place where
  frame : Frame
  loops : List ((String × String) × Nat) := []

namespace Place

def inside (here : Place) (dim : String) (it : Iteration) (i : Nat) : Place where
  frame := { here.frame with rows := it.rows }.bind dim (some it.value)
  loops := ((here.frame.equation, dim), i) :: here.loops

def referring (here : Place) (equation : String) : Place :=
  { here with frame := { here.frame with equation := equation } }

end Place

structure Mark (α : Type) where
  instr : Instr α
  place : Place

structure Trace (α : Type) where
  memo : Catalog.Memo
  marks : List (Mark α) := []

abbrev ExpandM (α : Type) := ExceptT Fault (StateM (Trace α))

def iterations (p : Program) (columns : List String) (frame : Frame) (dim : String) (memo : Catalog.Memo) :
    Except Fault (List Iteration) × Catalog.Memo :=
  match p.catalog.resolve dim with
  | .error e => (.error (.failure e), memo)
  | .ok ⟨_, none⟩ => (.ok (p.catalog.optionValues.map fun v => ⟨v, frame.rows⟩), memo)
  | .ok ⟨_, some column⟩ =>
    match columns.findIdx? (· == column) with
    | none => (.error (.failure (.dimension frame.equation
        ("column " ++ column ++ " of dimension " ++ dim ++ " has not been read"))), memo)
    | some i =>
      let its := Program.groupBy i frame.rows
      match (p.catalog.conditionalLength dim frame.bindings).run memo with
      | (.error e, memo) => (.error (.failure e), memo)
      | (.ok n, memo) =>
        if n == its.length then (.ok its, memo)
        else (.error (.failure (.dimension frame.equation ("loop over " ++ dim ++ ": length is " ++ toString n ++
          ", but " ++ toString its.length ++ " values found"))), memo)

lemma iterations_cases {p : Program} {columns : List String} {frame : Frame} {dim : String} {memo : Catalog.Memo}
    {its : List Iteration} (h : (iterations p columns frame dim memo).1 = .ok its) :
    (dim = optionsDimension ∧ its = p.catalog.optionValues.map fun v => ⟨v, frame.rows⟩) ∨
      ∃ column i, p.catalog.resolve dim = .ok ⟨dim, some column⟩ ∧ columns.findIdx? (· == column) = some i ∧
        its = Program.groupBy i frame.rows := by
  have hresolve : ∀ d, p.catalog.resolve dim = .ok d → d.name = dim ∧ (d.column? = none → dim = optionsDimension) := by
    intro d hd
    unfold Catalog.resolve at hd
    split at hd
    · rename_i heq
      cases hd
      exact ⟨rfl, fun _ => beq_iff_eq.1 heq⟩
    · split at hd <;> cases hd
      exact ⟨rfl, nofun⟩
  unfold iterations at h
  split at h
  · cases h
  · rename_i hd
    cases h
    exact .inl ⟨(hresolve _ hd).2 rfl, rfl⟩
  · rename_i name column hd
    split at h
    · cases h
    · rename_i i hi
      dsimp only at h
      split at h
      · cases h
      · split at h <;> cases h
        obtain rfl : name = dim := (hresolve _ hd).1
        exact .inr ⟨column, i, hd, hi, rfl⟩

variable {α : Type} [Scalar α]

def mark (here : Place) (i : Instr α) : ExpandM α Unit := modify fun t => { t with marks := ⟨i, here⟩ :: t.marks }

def markAll (here : Place) (is : List (Instr α)) : ExpandM α Unit := is.forM (mark here)

def askIterations (p : Program) (columns : List String) (here : Place) (dim : String) : ExpandM α (List Iteration) := do
  let t ← get
  let (its, memo) := iterations p columns here.frame dim t.memo
  set { t with memo := memo }
  MonadExcept.ofExcept its

omit [Scalar α] in
lemma result_askIterations (p : Program) (columns : List String) (here : Place) (dim : String) (t : Trace α) :
    Outcome.result (askIterations p columns here dim) t = ((iterations p columns here.frame dim t.memo).1,
      { t with memo := (iterations p columns here.frame dim t.memo).2 }) := by
  simp only [askIterations, Outcome.result_bind, Outcome.result_get, Outcome.proceed_ok, Outcome.result_set,
    Outcome.result_ofExcept]

def callHead (fn : Function) (count : Nat) : List (Instr α) :=
  match fn.keyword? with
  | some k => (k.header count).instrs
  | none => [.op fn.opcode]

mutual

def expand (p : Program) (columns : List String) (visit : String → Place → ExpandM α Unit) (here : Place) :
    Expr → ExpandM α Unit
  | .number _ _ value => mark here (.num (Scalar.ofFloat value))
  | .param _ name isVariable subs => do
    mark here (← MonadExcept.ofExcept (p.reference here.frame columns name isVariable subs))
  | .equation _ name => visit name (here.referring name)
  | .negate _ _ arg => do
    mark here (.op .neg)
    expand p columns visit here arg
  | .binary _ op _ lhs rhs => do
    mark here (.op op.opcode)
    expand p columns visit here lhs
    expand p columns visit here rhs
  | .group _ arg => expand p columns visit here arg
  | .call _ fn _ _ _ args => do
    markAll here (callHead fn args.length)
    expandArgs p columns visit here args
  | .loop _ keyword dim _ _ _ body => do
    match ← askIterations p columns here dim with
    | [] =>
      if keyword.binary?.isSome then mark here (.num Scalar.zero)
      else throw (.failure (.dimension here.frame.equation
        (keyword.name ++ "\x7b" ++ dim ++ "\x7d has no values to iterate")))
    | it :: its => do
      markAll here (keyword.header (it :: its).length).instrs
      ((it :: its).zipIdx 1).forM fun (it, i) => expand p columns visit (here.inside dim it i) body

def expandArgs (p : Program) (columns : List String) (visit : String → Place → ExpandM α Unit) (here : Place) :
    List Expr → ExpandM α Unit
  | [] => return
  | e :: es => do
    expand p columns visit here e
    expandArgs p columns visit here es

end

def expandEquation (p : Program) (columns : List String) : Nat → String → Place → ExpandM α Unit
  | 0, _, _ => throw .violation
  | depth + 1, name, here =>
    match p.trees.get? name with
    | some e => expand p columns (expandEquation p columns depth) here e
    | none => throw (.failure (.lookup name (-1) ("unknown equation " ++ name)))

end LandUse.Direct
