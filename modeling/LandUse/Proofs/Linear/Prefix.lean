import LandUse.Linear.Rows
import LandUse.Proofs.Expansion.Contents
import LandUse.Proofs.Linear.Activity

/-! Expressions are read from left to right, and folded to linear forms from right to left. -/

namespace LandUse

open Exact Outcome

section Forms

variable {α : Type} [Scalar α] {n : Nat}

lemma foldInstrs_apply {stack stack' : FormStack α} {op : Opcode} (h : foldInstrs.apply stack op n = .ok stack') :
    n ≤ stack.length ∧ ∃ p, LinearForm.apply op (stack.take n) = .ok p ∧ stack' = p :: stack.drop n := by
  unfold foldInstrs.apply FormStack.apply at h
  split at h
  · rename_i happly
    split at happly
    · cases happly
    · rename_i hlength
      split at happly
      · cases happly
      · simp only [Int.toNat_natCast] at happly
        split at happly <;> cases happly
        cases h
        exact ⟨by omega, _, ‹_›, rfl⟩
  · cases h

lemma proper_foldInstrs {code : List (Instr α)} {stack : FormStack α} (h : foldInstrs code = .ok stack)
    (hplain : ∀ i ∈ code, i.Plain n) : ∀ p ∈ stack, p.Proper n := by
  have happly {stack stack' : FormStack α} {op : Opcode} {count : Nat}
    (h : foldInstrs.apply stack op count = .ok stack')
      (hstack : ∀ p ∈ stack, p.Proper n) : ∀ p ∈ stack', p.Proper n := by
    obtain ⟨-, p, hp, rfl⟩ := foldInstrs_apply h
    exact List.forall_mem_cons.mpr ⟨LinearForm.proper_apply (fun q hq => hstack q (List.mem_of_mem_take hq)) hp,
      fun q hq => hstack q (List.mem_of_mem_drop hq)⟩
  induction code generalizing stack with
  | nil =>
    cases h
    exact List.forall_mem_nil _
  | cons i code ih =>
    obtain ⟨hi, hcode⟩ := List.forall_mem_cons.mp hplain
    rw [foldInstrs, bind_eq_ok] at h
    obtain ⟨stack₁, h₁, h⟩ := h
    have hstack := ih h₁ hcode
    cases i with
    | num c =>
      cases h
      exact List.forall_mem_cons.mpr ⟨LinearForm.proper_ofConstant c, hstack⟩
    | var k =>
      cases h
      exact List.forall_mem_cons.mpr ⟨LinearForm.proper_ofVariable hi, hstack⟩
    | list op count => exact happly h hstack
    | op op =>
      dsimp only at h
      split at h
      · exact happly h hstack
      · cases h

lemma proper_form {label : String} {code : List (Instr α)} {p : LinearForm α} (h : RowSink.form label code = .ok p)
    (hplain : ∀ i ∈ code, i.Plain n) : p.Proper n := by
  unfold RowSink.form at h
  split at h
  case h_3 q hq =>
    cases h
    exact proper_foldInstrs hq hplain p List.mem_cons_self
  all_goals cases h

end Forms

variable {K : Type} [Field K] [LinearOrder K] [Functions K]

/-- `code` starts with `n` expressions that have the values `vs` at `x`, and `rest` is what comes behind them. -/
inductive Denotes (x : List K) : Nat → List (Instr K) → List K → List (Instr K) → Prop
  | done (code : List (Instr K)) : Denotes x 0 code [] code
  | num {n : Nat} {code rest : List (Instr K)} {vs : List K} (c : K) :
      Denotes x n code vs rest → Denotes x (n + 1) (.num c :: code) (c :: vs) rest
  | var {n : Nat} {code rest : List (Instr K)} {vs : List K} {k : Nat} {v : K} :
      x[k]? = some v → Denotes x n code vs rest → Denotes x (n + 1) (.var k :: code) (v :: vs) rest
  | op {n count : Nat} {code mid rest : List (Instr K)} {args vs : List K} {op : Opcode} {v : K} :
      op.arity = .fixed count → Denotes x count code args mid → op.apply args = .ok v → Denotes x n mid vs rest →
      Denotes x (n + 1) (.op op :: code) (v :: vs) rest
  | list {n count : Nat} {code mid rest : List (Instr K)} {args vs : List K} {op : Opcode} {v : K} :
      Denotes x count code args mid → op.apply args = .ok v → Denotes x n mid vs rest →
      Denotes x (n + 1) (.list op count :: code) (v :: vs) rest

def HasValue (x : List K) (code : List (Instr K)) (v : K) : Prop := Denotes x 1 code [v] []

variable {x : List K}
variable {code : List (Instr K)} {n : Nat}

lemma Denotes.unique {rest rest' : List (Instr K)} {vs vs' : List K} (h : Denotes x n code vs rest)
    (h' : Denotes x n code vs' rest') : vs = vs' ∧ rest = rest' := by
  induction h generalizing vs' rest' with
  | done =>
    cases h'
    exact ⟨rfl, rfl⟩
  | num c _ ih =>
    cases h' with
    | num _ h' =>
      obtain ⟨rfl, rfl⟩ := ih h'
      exact ⟨rfl, rfl⟩
  | var hv _ ih =>
    cases h' with
    | var hv' h' =>
      obtain ⟨rfl, rfl⟩ := ih h'
      obtain rfl := Option.some.inj (hv.symm.trans hv')
      exact ⟨rfl, rfl⟩
  | op hop _ happly _ ihargs ih =>
    cases h' with
    | op hop' hargs' happly' h' =>
      obtain rfl := Opcode.Arity.fixed.inj (hop.symm.trans hop')
      obtain ⟨rfl, rfl⟩ := ihargs hargs'
      obtain ⟨rfl, rfl⟩ := ih h'
      obtain rfl := Except.ok.inj (happly.symm.trans happly')
      exact ⟨rfl, rfl⟩
  | list _ happly _ ihargs ih =>
    cases h' with
    | list hargs' happly' h' =>
      obtain ⟨rfl, rfl⟩ := ihargs hargs'
      obtain ⟨rfl, rfl⟩ := ih h'
      obtain rfl := Except.ok.inj (happly.symm.trans happly')
      exact ⟨rfl, rfl⟩

lemma HasValue.unique {v w : K} (hv : HasValue x code v) (hw : HasValue x code w) : v = w := by
  obtain ⟨h, -⟩ := Denotes.unique hv hw
  exact List.head_eq_of_cons_eq h

lemma Denotes.split {rest : List (Instr K)} {vs : List K} (h : Denotes x n code vs rest) {a : Nat} (ha : a ≤ n) :
    ∃ mid, Denotes x a code (vs.take a) mid ∧ Denotes x (n - a) mid (vs.drop a) rest := by
  induction h generalizing a with
  | done code =>
    obtain rfl : a = 0 := by omega
    exact ⟨code, .done code, .done code⟩
  | num c h ih =>
    cases a with
    | zero => exact ⟨_, .done _, .num c h⟩
    | succ a =>
      obtain ⟨mid, hfirst, hlast⟩ := ih (by omega : a ≤ _)
      exact ⟨mid, .num c hfirst, by simpa using hlast⟩
  | var hv h ih =>
    cases a with
    | zero => exact ⟨_, .done _, .var hv h⟩
    | succ a =>
      obtain ⟨mid, hfirst, hlast⟩ := ih (by omega : a ≤ _)
      exact ⟨mid, .var hv hfirst, by simpa using hlast⟩
  | op hop hargs happly h _ ih =>
    cases a with
    | zero => exact ⟨_, .done _, .op hop hargs happly h⟩
    | succ a =>
      obtain ⟨mid, hfirst, hlast⟩ := ih (by omega : a ≤ _)
      exact ⟨mid, .op hop hargs happly hfirst, by simpa using hlast⟩
  | list hargs happly h _ ih =>
    cases a with
    | zero => exact ⟨_, .done _, .list hargs happly h⟩
    | succ a =>
      obtain ⟨mid, hfirst, hlast⟩ := ih (by omega : a ≤ _)
      exact ⟨mid, .list hargs happly hfirst, by simpa using hlast⟩

def FormStack.Represents (stack : FormStack K) (x : List K) (code : List (Instr K)) : Prop :=
  Denotes x stack.length code (stack.map (LinearForm.value (coordinate x))) []

lemma represents_apply {stack stack' : FormStack K} {op : Opcode} (h : foldInstrs.apply stack op n = .ok stack')
    (harity : op.arity = .list ∨ op.arity = .fixed n) (hs : stack.Represents x code) :
    ∃ args mid p vs, stack' = p :: vs ∧ Denotes x n code args mid ∧
      op.apply args = .ok (p.value (coordinate x)) ∧
      Denotes x vs.length mid (vs.map (LinearForm.value (coordinate x))) [] := by
  obtain ⟨hn, p, hp, rfl⟩ := foldInstrs_apply h
  obtain ⟨mid, hargs, hrest⟩ := hs.split hn
  refine ⟨_, mid, p, stack.drop n, rfl, hargs, ?_, ?_⟩
  · rw [← List.map_take]
    refine LinearForm.apply_values hp ?_
    rwa [List.length_take_of_le hn]
  · rwa [List.length_drop, List.map_drop]

theorem foldInstrs_represents {stack : FormStack K} (h : foldInstrs code = .ok stack)
    (hplain : ∀ i ∈ code, i.Plain x.length) : stack.Represents x code := by
  -- Code is folded from its end: the stack is that of the rest when an instruction comes to it.
  induction code generalizing stack with
  | nil =>
    cases h
    exact .done []
  | cons i code ih =>
    obtain ⟨hi, hcode⟩ := List.forall_mem_cons.mp hplain
    rw [foldInstrs, bind_eq_ok] at h
    obtain ⟨stack₁, h₁, h⟩ := h
    have hs := ih h₁ hcode
    cases i with
    | num c =>
      cases h
      rw [FormStack.Represents, List.map_cons, LinearForm.value_ofConstant]
      exact .num c hs
    | var k =>
      cases h
      obtain ⟨k, rfl⟩ := Int.eq_ofNat_of_zero_le hi.1
      have hk : k < x.length := by exact_mod_cast hi.2
      rw [FormStack.Represents, List.map_cons, LinearForm.value_ofVariable hi.1]
      refine .var ?_ hs
      rw [coordinate, Int.toNat_natCast, List.getD_eq_getElem?_getD, List.getElem?_eq_getElem hk]
      rfl
    | list op n =>
      obtain ⟨args, mid, p, vs, rfl, hargs, happly, hvs⟩ := represents_apply h (.inl hi) hs
      exact .list hargs happly hvs
    | op op =>
      dsimp only at h
      split at h
      · rename_i n harity
        obtain ⟨args, mid, p, vs, rfl, hargs, happly, hvs⟩ := represents_apply h (.inr harity) hs
        exact .op harity hargs happly hvs
      · cases h

lemma form_hasValue {label : String} {p : LinearForm K} (h : RowSink.form label code = .ok p)
    (hplain : ∀ i ∈ code, i.Plain x.length) : HasValue x code (p.value (coordinate x)) := by
  unfold RowSink.form at h
  split at h
  case h_3 q hq =>
    cases h
    exact foldInstrs_represents hq hplain
  all_goals cases h

end LandUse
