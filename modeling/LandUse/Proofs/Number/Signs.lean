import LandUse.Proofs.Exact
import LandUse.Proofs.Number.Convert
import LandUse.Proofs.Number.Nearest

namespace LandUse

open Number

namespace Number

lemma isFinite_iff {x : Float} : x.isFinite = true ↔ ∃ negative m q, parts x = .finite negative m q := by
  have h : x.isFinite = (parts x).unpacked.isFinite := congrArg _ (unpack_eq x)
  rw [h]
  cases parts x with
  | finite negative m q =>
    refine ⟨fun _ => ⟨negative, m, q, rfl⟩, fun _ => ?_⟩
    rw [Parts.unpacked]
    split_ifs <;> rfl
  | infinite negative => simp [Parts.unpacked, Float.Model.UnpackedFloat.isFinite]
  | nan => simp [Parts.unpacked, Float.Model.UnpackedFloat.isFinite]

lemma parts_abs {x : Float} {negative : Bool} {m : Nat} {q : Int} (hx : parts x = .finite negative m q) :
    parts x.abs = .finite false m q := by
  have hc := canonical_parts x
  rw [hx] at hc
  obtain ⟨y, hy⟩ := @exists_parts false m q hc
  have habs : (Parts.finite negative m q).unpacked.abs = (Parts.finite false m q).unpacked := by
    by_cases hm : m = 0
    · simp only [Parts.unpacked, hm, dite_true]
      cases negative <;> rfl
    · rw [unpacked_pos (Nat.pos_of_ne_zero hm), unpacked_pos (Nat.pos_of_ne_zero hm)]
      cases negative <;> rfl
  have : x.abs = Float.ofModel (Float.Model.pack x.toModel.unpack.abs) := rfl
  rw [this, unpack_eq, hx, habs, pack_unpacked hy, hy]

end Number

namespace Exact

lemma rational_of_parts {x : Float} {negative : Bool} {m : Nat} {q : Int} (hx : parts x = .finite negative m q) :
    rational x = if negative then -(m * 2 ^ q : ℚ) else m * 2 ^ q := by
  obtain ⟨-, hratio⟩ := ratio_scaleFraction m Nat.one_pos q
  rw [Nat.cast_one, div_one] at hratio
  simp only [rational, hx, hratio]

lemma rational_eq_height {x : Float} (hx : x.isFinite = true) : rational x = (parts x).height * 2 ^ (-1074 : Int) := by
  obtain ⟨negative, m, q, hparts⟩ := isFinite_iff.1 hx
  have hc := canonical_parts x
  rw [hparts] at hc
  have hq : ((q + 1074).toNat : Int) + -1074 = q := by
    have := hc.2.1
    omega
  have hpow : (2 : ℚ) ^ (q + 1074).toNat * 2 ^ (-1074 : Int) = 2 ^ q := by
    rw [← zpow_natCast, ← zpow_add₀ two_ne_zero, hq]
  have hheight : ((m * 2 ^ (q + 1074).toNat : Nat) : ℚ) * 2 ^ (-1074 : Int) = m * 2 ^ q := by
    rw [Nat.cast_mul, Nat.cast_pow, Nat.cast_ofNat, mul_assoc, hpow]
  rw [rational_of_parts hparts, hparts, Parts.height]
  cases negative
  · exact hheight.symm
  · rw [if_pos rfl, if_pos rfl, Int.cast_neg, neg_mul]
    exact congrArg Neg.neg hheight.symm

lemma parts_ne_nan {x : Float} (hx : x.isFinite = true) : parts x ≠ .nan := by
  obtain ⟨negative, m, q, h⟩ := isFinite_iff.1 hx
  rw [h]
  exact Parts.noConfusion

variable {x y : Float} (hx : x.isFinite = true)

include hx

lemma lt_iff_rational (hy : y.isFinite = true) : x < y ↔ rational x < rational y := by
  rw [lt_iff_height (parts_ne_nan hx) (parts_ne_nan hy), rational_eq_height hx, rational_eq_height hy,
    mul_lt_mul_iff_of_pos_right (zpow_pos two_pos _), Int.cast_lt]

lemma beq_iff_rational (hy : y.isFinite = true) : (x == y) = true ↔ rational x = rational y := by
  rw [beq_iff_height (parts_ne_nan hx) (parts_ne_nan hy), rational_eq_height hx, rational_eq_height hy,
    mul_left_inj' (zpow_ne_zero _ two_ne_zero), Int.cast_inj]

lemma rational_neg : rational (-x) = -rational x := by
  obtain ⟨negative, m, q, h⟩ := isFinite_iff.1 hx
  rw [rational_of_parts h, rational_of_parts (parts_neg h)]
  cases negative <;> simp

lemma isFinite_neg : (-x).isFinite = true := by
  obtain ⟨negative, m, q, h⟩ := isFinite_iff.1 hx
  exact isFinite_iff.2 ⟨!negative, m, q, parts_neg h⟩

lemma rational_abs : rational x.abs = |rational x| := by
  obtain ⟨negative, m, q, h⟩ := isFinite_iff.1 hx
  have hpos : (0 : ℚ) ≤ m * 2 ^ q := by positivity
  rw [rational_of_parts h, rational_of_parts (parts_abs h)]
  cases negative <;> simp [abs_of_nonneg hpos]

end Exact

end LandUse
