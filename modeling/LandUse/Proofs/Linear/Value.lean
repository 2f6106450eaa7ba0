import LandUse.Linear.Fold
import LandUse.Proofs.Exact
import Mathlib.Algebra.BigOperators.Group.List.Basic
import Mathlib.Tactic.Ring

namespace LandUse

open Exact

variable {K : Type} [Field K] {v : Int → K}

namespace Coeffs

def value (v : Int → K) (cs : Coeffs K) : K := (cs.map fun (k, c) => c * v k).sum

@[simp] lemma value_nil : value v ([] : Coeffs K) = 0 := rfl

@[simp] lemma value_cons (k : Int) (c : K) (cs : Coeffs K) : value v ((k, c) :: cs) = c * v k + value v cs :=
  List.sum_cons

lemma value_modify {f : Option K → K} {d : K} (hf : ∀ b, f b = b.getD 0 + d) (k : Int) (cs : Coeffs K) :
    value v (cs.modify k f) = value v cs + d * v k := by
  induction cs with
  | nil => simp [Coeffs.modify, hf]
  | cons x cs ih =>
    obtain ⟨i, c⟩ := x
    unfold Coeffs.modify
    by_cases hk : k = i
    · simp only [hk, beq_self_eq_true, if_true, value_cons, hf, Option.getD_some]
      ring
    · rw [if_neg (by simpa using hk)]
      split
      · simp only [value_cons, hf, Option.getD_none]
        ring
      · simp only [value_cons, ih]
        ring

lemma value_filter {keep : Int × K → Bool} (h : ∀ k c, keep (k, c) = false → c = 0) (cs : Coeffs K) :
    value v (cs.filter keep) = value v cs := by
  induction cs with
  | nil => rfl
  | cons x cs ih =>
    obtain ⟨k, c⟩ := x
    cases hx : keep (k, c) with
    | true => rw [List.filter_cons_of_pos hx, value_cons, value_cons, ih]
    | false => rw [List.filter_cons_of_neg (by simp [hx]), value_cons, h k c hx, zero_mul, zero_add, ih]

lemma value_map_mul (d : K) (cs : Coeffs K) : value v (cs.map fun (k, c) => (k, c * d)) = value v cs * d := by
  induction cs with
  | nil => simp
  | cons x cs ih =>
    obtain ⟨k, c⟩ := x
    rw [List.map_cons, value_cons, value_cons, ih]
    ring

end Coeffs

namespace LinearForm

open Coeffs

def value (v : Int → K) (p : LinearForm K) : K := p.constant + p.coeffs.value v

variable {p q r : LinearForm K} {op : Opcode}

lemma value_of_constant? {c : K} (h : p.constant? = some c) : p.value v = c := by
  unfold constant? at h
  split at h
  · rename_i hp
    cases h
    rw [value, List.isEmpty_iff.mp hp, value_nil, add_zero]
  · cases h

lemma values_of_constants {ps : List (LinearForm K)} {cs : List K} (h : ps.mapM constant? = some cs) :
    ps.map (value v) = cs := by
  induction ps generalizing cs with
  | nil => simpa using h
  | cons p ps ih =>
    rw [List.mapM_cons] at h
    cases hp : p.constant? with
    | none => simp [hp] at h
    | some c =>
      cases hps : ps.mapM constant? with
      | none => simp [hp, hps] at h
      | some ds =>
        simp only [hp, hps, Option.bind_eq_bind, Option.bind_some, Option.pure_def, Option.some.injEq] at h
        rw [List.map_cons, value_of_constant? hp, ih hps, h]

variable [LinearOrder K] [Functions K]

@[simp] lemma clean_eq (c : K) : clean c = c := by
  unfold clean
  split
  · rename_i h
    rw [negligible_iff.mp h, zero_eq]
  · rfl

@[simp] lemma value_ofConstant (c : K) : (ofConstant c).value v = c := by
  simp [ofConstant, value]

lemma value_ofVariable {k : Int} (hk : 0 ≤ k) : (ofVariable k : LinearForm K).value v = v k := by
  have hne : ¬ (k == -1) = true := by
    rw [beq_iff_eq]
    omega
  simp [ofVariable, hne, value]

lemma value_combine {op : K → K → K} {e : K} (hop : ∀ a c, op a c = a + e * c) (p q : LinearForm K) :
    (combine op p q).value v = p.value v + e * q.value v := by
  have hcoeffs : ∀ cs : Coeffs K, (q.coeffs.foldl (fun cs (k, c) =>
      if Scalar.negligible c then cs else cs.modify k fun b => op (b.getD Scalar.zero) c) cs).value v =
        cs.value v + e * q.coeffs.value v := by
    induction q.coeffs with
    | nil => simp
    | cons x qs ih =>
      obtain ⟨k, c⟩ := x
      intro cs
      rw [List.foldl_cons, ih, value_cons]
      dsimp only
      split
      · rename_i hc
        rw [negligible_iff.mp hc]
        ring
      · have hmodify : (cs.modify k fun b => op (b.getD Scalar.zero) c).value v = cs.value v + e * c * v k :=
          value_modify (fun b => by rw [hop, zero_eq]) k cs
        rw [hmodify]
        ring
  have hconstant : (combine op p q).constant = p.constant + e * q.constant := by
    unfold combine
    dsimp only
    split
    · rename_i hc
      rw [negligible_iff.mp hc]
      ring
    · exact hop _ _
  rw [value, hconstant, combine, hcoeffs, value, value]
  ring

@[simp] lemma value_add (p q : LinearForm K) : (p.add q).value v = p.value v + q.value v := by
  have hop : ∀ a c : K, a + c = a + 1 * c := fun a c => by rw [one_mul]
  rw [add, value_combine hop, one_mul]

@[simp] lemma value_sub (p q : LinearForm K) : (p.sub q).value v = p.value v - q.value v := by
  have hop : ∀ a c : K, a - c = a + -1 * c := fun a c => by ring
  rw [sub, value_combine hop]
  ring

@[simp] lemma value_scale (p : LinearForm K) (c : K) : (p.scale c).value v = p.value v * c := by
  have hkeep : ∀ (k : Int) (a : K), (!Scalar.negligible a) = false → a = 0 := by simp
  rw [value, scale, value_filter hkeep, value_map_mul, clean_eq, value]
  ring

lemma value_foldl_add (p : LinearForm K) (ps : List (LinearForm K)) :
    (ps.foldl add p).value v = p.value v + (ps.map (value v)).sum := by
  induction ps generalizing p with
  | nil => simp
  | cons q ps ih => rw [List.foldl_cons, ih, value_add, List.map_cons, List.sum_cons, add_assoc]

lemma value_nonzero (p : LinearForm K) : p.nonzero.value v = p.coeffs.value v :=
  value_filter (by simp) p.coeffs

lemma value_multiply (h : multiply p q = .ok r) : r.value v = p.value v * q.value v := by
  unfold multiply at h
  split at h
  · rename_i c hq
    cases h
    rw [value_scale, value_of_constant? hq]
  · rename_i c hq hp
    cases h
    rw [value_scale, value_of_constant? hp, mul_comm]
  · cases h

lemma value_divide (h : divide p q = .ok r) : q.value v ≠ 0 ∧ r.value v = p.value v / q.value v := by
  unfold divide at h
  split at h
  · cases h
  · rename_i c hq
    split at h
    · cases h
    · rename_i hc
      cases h
      rw [isZero_iff] at hc
      rw [value_scale, value_of_constant? hq, one_eq, mul_one_div]
      exact ⟨hc, rfl⟩

lemma value_power (h : power p q = .ok r) : r.value v = Functions.power (p.value v) (q.value v) := by
  unfold power at h
  split at h
  · rename_i c hq
    split at h
    · rename_i hc
      cases h
      rw [same_iff, one_eq] at hc
      rw [value_of_constant? hq, hc, Functions.power_one]
    · cases h
  · cases h

lemma eq_pair {β : Type} (hop : op.arity = .fixed 2) {x : β} {xs : List β}
    (h : op.arity = .list ∨ op.arity = .fixed (x :: xs).length) : ∃ y, xs = [y] := by
  rw [hop] at h
  obtain ⟨y, hy⟩ := List.length_eq_one_iff.mp (show xs.length = 1 by simpa using h.symm)
  exact ⟨y, hy⟩

lemma apply_values_unknown {args : List (LinearForm K)} (h : applyUnknown op args = .ok p)
    (harity : op.arity = .list ∨ op.arity = .fixed args.length) :
    op.apply (args.map (value v)) = .ok (p.value v) := by
  unfold applyUnknown at h
  split at h
  case h_1 p ps =>
    cases h
    obtain ⟨q, rfl⟩ := eq_pair rfl harity
    simp [Opcode.apply, Opcode.arity, Opcode.applyBinary]
  case h_2 p ps =>
    cases h
    simp [Opcode.apply, Opcode.arity, Opcode.applyList, sum_eq, value_foldl_add]
  case h_3 p q ps =>
    cases h
    obtain ⟨r, hr⟩ := eq_pair rfl harity
    cases hr
    simp [Opcode.apply, Opcode.arity, Opcode.applyBinary]
  case h_4 p ps =>
    cases h
    obtain rfl : ps = [] := by simpa [Opcode.arity] using harity
    simp [Opcode.apply, Opcode.arity, Opcode.applyUnary]
  case h_5 p q ps =>
    obtain ⟨r, hr⟩ := eq_pair rfl harity
    cases hr
    simp [Opcode.apply, Opcode.arity, Opcode.applyBinary, value_multiply h]
  case h_6 p q ps =>
    obtain ⟨r, hr⟩ := eq_pair rfl harity
    cases hr
    obtain ⟨hq, hr⟩ := value_divide (v := v) h
    simp [Opcode.apply, Opcode.arity, Opcode.applyBinary, hr, hq]
  case h_7 p q ps =>
    obtain ⟨r, hr⟩ := eq_pair rfl harity
    cases hr
    simp only [Opcode.apply, Opcode.arity, Opcode.applyBinary, value_power h, List.map_cons, List.map_nil]
    rfl
  case h_12 p =>
    cases h
    rfl
  case h_13 p =>
    cases h
    rfl
  all_goals cases h

lemma apply_values {args : List (LinearForm K)} (h : apply op args = .ok p)
    (harity : op.arity = .list ∨ op.arity = .fixed args.length) :
    op.apply (args.map (value v)) = .ok (p.value v) := by
  unfold apply at h
  split at h
  · rename_i cs hcs
    rw [values_of_constants hcs]
    split at h
    · rename_i c hc
      cases h
      rw [hc, value_ofConstant]
    · cases h
  · exact apply_values_unknown h harity

end LinearForm

end LandUse
