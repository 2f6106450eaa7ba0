import LandUse.Table.Basic
import LandUse.Proofs.Number.Convert
import Mathlib.Data.List.Sort

/-! Numbers have a place on a line, texts come behind all of them, and empty cells in front. -/

namespace LandUse

namespace Number

def unit (e : Nat) : Int := 2 ^ e

lemma unit_pos (e : Nat) : 0 < unit e := Int.pow_pos (by decide)

lemma unit_add (a b : Nat) : unit (a + b) = unit a * unit b := Int.pow_add 2 a b

lemma cast_twoTo (e : Nat) : ((twoTo e : Nat) : Int) = unit e := by
  unfold twoTo unit
  exact_mod_cast rfl

lemma height_finite (negative : Bool) (m : Nat) (q : Int) :
    (Parts.finite negative m q).height = (if negative then -(m : Int) else m) * unit (q + 1074).toNat := by
  unfold Parts.height unit
  cases negative <;> push_cast <;> simp

lemma compare_map {α β : Type} [LinearOrder α] [LinearOrder β] {f : α → β} (hf : StrictMono f) (a b : α) :
    compare (f a) (f b) = compare a b := by
  rw [← cmp_eq_compare, ← cmp_eq_compare, hf.cmp_map_eq]

lemma compare_mul {i j k : Int} (hk : 0 < k) : compare (i * k) (j * k) = compare i j :=
  compare_map (fun _ _ h => Int.mul_lt_mul_of_pos_right h hk) i j

lemma natAbs_unit (e : Nat) : (unit e).natAbs = 2 ^ e := by
  unfold unit
  rw [Int.natAbs_pow]
  rfl

lemma natAbs_scaled_lt {i : Int} (hi : i.natAbs ≤ 2 ^ 63) {a e : Nat} (h : a + 10 < e) :
    (i * unit a).natAbs < bound e := by
  calc (i * unit a).natAbs = i.natAbs * 2 ^ a := by rw [Int.natAbs_mul, natAbs_unit]
    _ ≤ 2 ^ 63 * 2 ^ a := Nat.mul_le_mul_right _ hi
    _ = 2 ^ 53 * 2 ^ (a + 10) := by ring
    _ < bound e := Nat.mul_lt_mul_of_pos_left (Nat.pow_lt_pow_right (by decide) h) (by decide)

end Number

namespace Value

open Number

variable {negative : Bool} {x : Float} {i : Int} {v w : Value} {m : Nat}

lemma compareInt_eq (hi : i.natAbs ≤ 2 ^ 63) (hx : parts x ≠ .nan) :
    compareInt i x = compare (i * unit 1074) (parts x).height := by
  have hc := canonical_parts x
  have hb := natAbs_scaled_lt hi (show 1074 + 10 < 2045 by decide)
  unfold compareInt
  generalize parts x = p at hx hc
  generalize hb' : bound 2045 = b at hb
  cases p with
  | nan => exact absurd rfl hx
  | infinite negative =>
    cases negative
    · refine (compare_lt_iff_lt.2 ?_).symm
      show _ < (bound 2045 : Int)
      omega
    · refine (compare_gt_iff_gt.2 ?_).symm
      show -(bound 2045 : Int) < _
      omega
  | finite negative m q =>
    rw [height_finite]
    dsimp only
    generalize (if negative then -(m : Int) else m) = n
    obtain ⟨-, hq, -⟩ := hc
    split_ifs with h
    · have he : (q + 1074).toNat = q.toNat + 1074 := by omega
      rw [he, unit_add, ← Int.mul_assoc, compare_mul (unit_pos 1074), cast_twoTo]
    · have he : 1074 = (-q).toNat + (q + 1074).toNat := by omega
      rw [show unit 1074 = unit ((-q).toNat + (q + 1074).toNat) from congrArg unit he, unit_add, ← Int.mul_assoc,
        compare_mul (unit_pos _), cast_twoTo]

def Proper : Value → Prop
  | .double x => parts x ≠ .nan ∧ x ≠ -0
  | _ => True

def rank : Value → Int ⊕ₗ String
  | .int i => Sum.inlₗ (i.toInt * unit 1074)
  | .double x => Sum.inlₗ (parts x).height
  | .text s => Sum.inrₗ s

lemma natAbs_toInt (i : Int64) : i.toInt.natAbs ≤ 2 ^ 63 := by
  have := i.le_toInt
  have := i.toInt_lt
  omega

lemma compare_inl (i j : Int) : compare (Sum.inlₗ i : Int ⊕ₗ String) (Sum.inlₗ j) = compare i j :=
  compare_map Sum.Lex.inl_strictMono i j

lemma order_eq_compare (hv : v.Proper) (hw : w.Proper) : v.order w = compare v.rank w.rank := by
  cases v with
  | text s =>
    cases w with
    | text t => exact (compare_map Sum.Lex.inr_strictMono s t).symm
    | int j => exact (compare_gt_iff_gt.2 (Sum.Lex.inl_lt_inr _ _)).symm
    | double y => exact (compare_gt_iff_gt.2 (Sum.Lex.inl_lt_inr _ _)).symm
  | int i =>
    cases w with
    | text t => exact (compare_lt_iff_lt.2 (Sum.Lex.inl_lt_inr _ _)).symm
    | int j =>
      rw [rank, rank, compare_inl, compare_mul (unit_pos 1074)]
      rfl
    | double y => exact (compareInt_eq (natAbs_toInt i) hw.1).trans (compare_inl _ _).symm
  | double x =>
    cases w with
    | text t => exact (compare_lt_iff_lt.2 (Sum.Lex.inl_lt_inr _ _)).symm
    | int j =>
      rw [rank, rank, compare_inl, order, compareInt_eq (natAbs_toInt j) hv.1, ← cmp_eq_compare,
        cmp_swap, cmp_eq_compare]
    | double y =>
      rw [rank, rank, compare_inl, order]
      simp only [lt_iff_height hv.1 hw.1, lt_iff_height hw.1 hv.1]
      rcases lt_trichotomy (parts x).height (parts y).height with h | h | h
      · rw [if_pos h, compare_lt_iff_lt.2 h]
      · rw [if_neg h.not_lt, if_neg h.symm.not_lt, compare_eq_iff_eq.2 h]
      · rw [if_neg h.not_gt, if_pos h, compare_gt_iff_gt.2 h]

lemma parts_negZero : parts (-0) = .finite true 0 (-1074) := by decide

lemma eq_of_height {y : Float} (hx : (Value.double x).Proper) (hy : (Value.double y).Proper)
    (h : (parts x).height = (parts y).height) : x = y := by
  obtain ⟨-, -, h | ⟨-, h⟩ | ⟨h, -⟩⟩ := Float.beq_iff_ne_nan_and_eq.1 ((beq_iff_height hx.1 hy.1).2 h)
  · exact h
  · exact absurd h hy.2
  · exact absurd h hx.2

lemma natAbs_of_scaled {a b : Nat} (h : i * unit a = (if negative then -(m : Int) else m) * unit b) :
    i.natAbs * 2 ^ a = m * 2 ^ b := by
  have habs : (if negative then -(m : Int) else m).natAbs = m := by cases negative <;> simp
  have h := congrArg Int.natAbs h
  rwa [Int.natAbs_mul, Int.natAbs_mul, natAbs_unit, natAbs_unit, habs] at h

lemma whole_of_height {q : Int} (hq : -1074 ≤ q) (h : i * unit 1074 = (Parts.finite negative m q).height) :
    Whole m q i.natAbs := by
  rw [height_finite] at h
  rcases le_total 0 q with h0 | h0
  · have he : (q + 1074).toNat = q.toNat + 1074 := by omega
    rw [he, unit_add, ← Int.mul_assoc] at h
    have h := Int.eq_of_mul_eq_mul_right (unit_pos 1074).ne' h
    rw [← Int.mul_one i] at h
    rw [Whole, Int.toNat_of_nonpos (Int.neg_nonpos_of_nonneg h0)]
    exact @natAbs_of_scaled negative i m 0 q.toNat h
  · have he : 1074 = (-q).toNat + (q + 1074).toNat := by omega
    rw [show unit 1074 = unit ((-q).toNat + (q + 1074).toNat) from congrArg unit he, unit_add, ← Int.mul_assoc] at h
    have h := Int.eq_of_mul_eq_mul_right (unit_pos _).ne' h
    rw [← Int.mul_one (if negative then -(m : Int) else m)] at h
    rw [Whole, Int.toNat_of_nonpos h0]
    exact @natAbs_of_scaled negative i m (-q).toNat 0 h

lemma eq_zero_of_parts (hx : (Value.double x).Proper) {q : Int} (h : parts x = .finite negative 0 q) : x = 0 := by
  have hc := canonical_parts x
  rw [h] at hc
  obtain rfl : q = -1074 := by
    have := hc.2.2.2
    omega
  cases negative with
  | false => exact eq_of_parts (h.trans parts_zero.symm)
  | true => exact absurd (eq_of_parts (h.trans parts_negZero.symm)) hx.2

lemma neg_iff_of_scaled {a b : Nat} (hi : i ≠ 0) (h : i * unit a = (if negative then -(m : Int) else m) * unit b) :
    i < 0 ↔ negative = true := by
  have hm : 0 ≤ (m : Int) * unit b := Int.mul_nonneg (Int.natCast_nonneg m) (unit_pos b).le
  cases negative with
  | false =>
    replace h : i * unit a = m * unit b := h
    have : ¬ i < 0 := fun hlt => absurd (Int.mul_neg_of_neg_of_pos hlt (unit_pos a)) (by omega)
    simpa using this
  | true =>
    replace h : i * unit a = -m * unit b := h
    rw [Int.neg_mul] at h
    have : ¬ 0 < i := fun hlt => absurd (Int.mul_pos hlt (unit_pos a)) (by omega)
    simp only [iff_true]
    omega

lemma ofInt64_of_height {i : Int64} (hx : (Value.double x).Proper) (h : i.toInt * unit 1074 = (parts x).height) :
    ofInt64 i = x := by
  have hc := canonical_parts x
  have hb := natAbs_scaled_lt (natAbs_toInt i) (show 1074 + 10 < 2045 by decide)
  cases hp : parts x with
  | nan => exact absurd hp hx.1
  | infinite negative =>
    rw [h, hp] at hb
    have habs : (Parts.infinite negative).height.natAbs = bound 2045 := by
      cases negative
      · exact Int.natAbs_natCast _
      · exact (Int.natAbs_neg _).trans (Int.natAbs_natCast _)
    exact absurd habs hb.ne
  | finite negative m q =>
    rw [hp] at h hc
    have hw : Whole m q i.toInt.natAbs := whole_of_height hc.2.1 h
    by_cases hi : i.toInt = 0
    · obtain rfl : m = 0 := by
        rw [hi, Whole, Int.natAbs_zero, Nat.zero_mul] at hw
        exact (Nat.mul_eq_zero.1 hw.symm).resolve_right (Nat.two_pow_pos _).ne'
      rw [eq_zero_of_parts hx hp, ofInt64, hi]
      decide
    · exact ofInt_whole hp hw hi (neg_iff_of_scaled hi (height_finite negative m q ▸ h))

def isNumber : Value → Bool
  | .text _ => false
  | _ => true

lemma eq_of_rank (hv : v.Proper) (hw : w.Proper) (h : v.rank = w.rank) :
    (∃ s, v = .text s ∧ w = .text s) ∨ (v.isNumber = true ∧ w.isNumber = true ∧ v.number = w.number) := by
  cases v with
  | text s =>
    cases w with
    | text t => exact .inl ⟨s, rfl, by rw [Sum.inr.inj h]⟩
    | int j => cases h
    | double y => cases h
  | int i =>
    cases w with
    | text t => cases h
    | int j =>
      have hij := Int.eq_of_mul_eq_mul_right (unit_pos 1074).ne' (Sum.inl.inj h)
      exact .inr ⟨rfl, rfl, by simp only [number, ofInt64, hij]⟩
    | double y => exact .inr ⟨rfl, rfl, ofInt64_of_height hw (Sum.inl.inj h)⟩
  | double x =>
    cases w with
    | text t => cases h
    | int j => exact .inr ⟨rfl, rfl, (ofInt64_of_height hv (Sum.inl.inj h).symm).symm⟩
    | double y => exact .inr ⟨rfl, rfl, eq_of_height hv hw (Sum.inl.inj h)⟩

lemma key_of_isNumber (h : v.isNumber = true) : v.key = "n:" ++ Number.general v.number := by
  cases v with
  | text s => cases h
  | int i => rfl
  | double x => rfl

lemma equal_of_isNumber (hv : v.isNumber = true) (hw : w.isNumber = true) : v.equal w = (v.number == w.number) := by
  cases v <;> cases w <;> simp_all [isNumber, equal]

lemma key_eq_of_rank (hv : v.Proper) (hw : w.Proper) (h : v.rank = w.rank) : v.key = w.key := by
  rcases eq_of_rank hv hw h with ⟨s, rfl, rfl⟩ | ⟨hv, hw, hn⟩
  · rfl
  · rw [key_of_isNumber hv, key_of_isNumber hw, hn]

lemma zero_proper : (Value.double 0).Proper := ⟨by decide, by decide⟩

lemma number_proper (hv : v.Proper) : (Value.double v.number).Proper := by
  cases v with
  | text s => exact zero_proper
  | double x => exact hv
  | int i =>
    show parts (ofInt64 i) ≠ .nan ∧ ofInt64 i ≠ -0
    rcases parts_ofInt64 i with ⟨-, h⟩ | ⟨negative, m, q, hm, h, -⟩
    · rw [h]
      exact zero_proper
    · refine ⟨by rw [h]; exact Parts.noConfusion, fun h0 => ?_⟩
      rw [h0, parts_negZero] at h
      cases h
      exact absurd hm (Nat.lt_irrefl 0)

lemma key_eq_of_equal (hv : v.Proper) (hw : w.Proper) (h : v.equal w = true) : v.key = w.key := by
  by_cases hn : v.isNumber = true ∧ w.isNumber = true
  · rw [equal_of_isNumber hn.1 hn.2] at h
    have hv := number_proper hv
    have hw := number_proper hw
    rw [key_of_isNumber hn.1, key_of_isNumber hn.2, eq_of_height hv hw ((beq_iff_height hv.1 hw.1).1 h)]
  · cases v <;> cases w <;> simp_all [equal, isNumber]

lemma equal_of_rank (hv : v.Proper) (hw : w.Proper) (h : v.rank = w.rank) : v.equal w = true := by
  rcases eq_of_rank hv hw h with ⟨s, rfl, rfl⟩ | ⟨hnv, hnw, hn⟩
  · exact beq_self_eq_true s
  · rw [equal_of_isNumber hnv hnw, hn]
    have hw := (number_proper hw).1
    exact (beq_iff_height hw hw).2 rfl

end Value

abbrev Rank := WithBot (Int ⊕ₗ String)

namespace Cell

def rank : Cell → Rank
  | none => ⊥
  | some v => (v.rank : Rank)

def Proper (c : Cell) : Prop := ∀ v, c = some v → v.Proper

lemma order_eq_compare {c d : Cell} (hc : c.Proper) (hd : d.Proper) : c.order d = compare c.rank d.rank := by
  cases c with
  | none =>
    cases d with
    | none => exact (compare_eq_iff_eq.2 rfl).symm
    | some w => exact (compare_lt_iff_lt.2 (WithBot.bot_lt_coe _)).symm
  | some v =>
    cases d with
    | none => exact (compare_gt_iff_gt.2 (WithBot.bot_lt_coe _)).symm
    | some w =>
      refine (Value.order_eq_compare (hc v rfl) (hd w rfl)).trans ?_
      exact (Number.compare_map WithBot.coe_strictMono _ _).symm

lemma key_eq_of_rank {c d : Cell} (hc : c.Proper) (hd : d.Proper) (h : c.rank = d.rank) : c.key = d.key := by
  cases c with
  | none =>
    cases d with
    | none => rfl
    | some w => exact absurd h WithBot.bot_ne_coe
  | some v =>
    cases d with
    | none => exact absurd h WithBot.coe_ne_bot
    | some w => exact Value.key_eq_of_rank (hc v rfl) (hd w rfl) (WithBot.coe_injective h)

def ProperRow (row : List Cell) : Prop := ∀ c ∈ row, c.Proper

lemma orderRows_lt_iff : {row row' : List Cell} → ProperRow row → ProperRow row' →
    (orderRows row row' = .lt ↔ row.map rank < row'.map rank)
  | [], [], _, _ => by simp [orderRows]
  | [], _ :: _, _, _ => by simp [orderRows]
  | _ :: _, [], _, _ => by simp [orderRows]
  | c :: row, d :: row', h, h' => by
    obtain ⟨hc, hrow⟩ := List.forall_mem_cons.1 h
    obtain ⟨hd, hrow'⟩ := List.forall_mem_cons.1 h'
    rw [orderRows, Ordering.then_eq_lt, order_eq_compare hc hd, compare_lt_iff_lt, compare_eq_iff_eq,
      orderRows_lt_iff hrow hrow', List.map_cons, List.map_cons, List.cons_lt_cons_iff]

lemma orderRows_eq_iff : {row row' : List Cell} → ProperRow row → ProperRow row' →
    (orderRows row row' = .eq ↔ row.map rank = row'.map rank)
  | [], [], _, _ => by simp [orderRows]
  | [], _ :: _, _, _ => by simp [orderRows]
  | _ :: _, [], _, _ => by simp [orderRows]
  | c :: row, d :: row', h, h' => by
    obtain ⟨hc, hrow⟩ := List.forall_mem_cons.1 h
    obtain ⟨hd, hrow'⟩ := List.forall_mem_cons.1 h'
    rw [orderRows, Ordering.then_eq_eq, order_eq_compare hc hd, compare_eq_iff_eq, orderRows_eq_iff hrow hrow',
      List.map_cons, List.map_cons, List.cons_eq_cons]

lemma orderRows_ne_gt_iff {row row' : List Cell} (h : ProperRow row) (h' : ProperRow row') :
    (orderRows row row' != .gt) = true ↔ row.map rank ≤ row'.map rank := by
  rw [bne_iff_ne, le_iff_lt_or_eq, ← orderRows_lt_iff h h', ← orderRows_eq_iff h h']
  cases orderRows row row' <;> simp

end Cell

namespace Table

variable {β γ : Type} {le : β → β → Bool} {bs : List β}

lemma insertSorted_eq (le : β → β → Bool) (b : β) (bs : List β) :
    insertSorted le b bs = bs.orderedInsert (fun a b => le a b = true) b := by
  induction bs with
  | nil => rfl
  | cons c bs ih => rw [insertSorted, List.orderedInsert, ih]

lemma sorted_eq (le : β → β → Bool) (bs : List β) : sorted le bs = bs.insertionSort fun a b => le a b = true := by
  induction bs with
  | nil => rfl
  | cons b bs ih => rw [List.insertionSort_cons, ← ih, ← insertSorted_eq]; rfl

lemma sorted_perm (le : β → β → Bool) (bs : List β) : (sorted le bs).Perm bs := by
  rw [sorted_eq]
  exact List.perm_insertionSort ..

lemma mem_sorted {b : β} : b ∈ sorted le bs ↔ b ∈ bs := (sorted_perm le bs).mem_iff

lemma map_sorted {r : γ → γ → Prop} [DecidableRel r] {f : β → γ}
    (h : ∀ a ∈ bs, ∀ b ∈ bs, le a b = true ↔ r (f a) (f b)) : (sorted le bs).map f = (bs.map f).insertionSort r := by
  rw [sorted_eq]
  exact List.map_insertionSort _ _ f bs h

lemma sorted_map (le : γ → γ → Bool) (f : β → γ) (bs : List β) :
    sorted le (bs.map f) = (sorted (fun a b => le (f a) (f b)) bs).map f := by
  rw [sorted_eq, map_sorted (r := fun a b => le a b = true)]
  exact fun _ _ _ _ => Iff.rfl

end Table

end LandUse
