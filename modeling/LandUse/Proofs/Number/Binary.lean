import LandUse.Number.Parts
import Mathlib

namespace LandUse.Number

open Float.Model

def signOf (negative : Bool) : UnpackedFloat.Sign := if negative then .negative else .positive

def Parts.unpacked : Parts → UnpackedFloat
  | .nan => .notANumber
  | .infinite negative => .infinity (signOf negative)
  | .finite negative m q =>
    if h : m = 0 then .zero (signOf negative) else .finite (signOf negative) m q (Nat.pos_of_ne_zero h)

lemma toNat_unpackMantissa (b : BitVec 64) :
    (@UnpackedFloat.unpackMantissa .binary64 b).toNat = b.toNat % 2 ^ 52 := by
  rw [UnpackedFloat.unpackMantissa_def, BitVec.extractLsb'_toNat, Nat.shiftRight_zero]

lemma toNat_unpackExponent (b : BitVec 64) :
    (@UnpackedFloat.unpackExponent .binary64 b).toNat = b.toNat / 2 ^ 52 % 2 ^ 11 := by
  rw [UnpackedFloat.unpackExponent_def, BitVec.extractLsb'_toNat, Nat.shiftRight_eq_div_pow]

lemma toNat_unpackSign (b : BitVec 64) :
    (@UnpackedFloat.unpackSign .binary64 b).toNat = b.toNat / 2 ^ 63 := by
  rw [UnpackedFloat.unpackSign_def, BitVec.extractLsb'_toNat, Nat.shiftRight_eq_div_pow]
  have := b.isLt
  simp
  omega

lemma sign_eq (b : BitVec 64) :
    UnpackedFloat.Sign.ofBitVec (@UnpackedFloat.unpackSign .binary64 b) =
      signOf (b.toNat / twoTo 63 == 1) := by
  have h := toNat_unpackSign b
  have hb : b.toNat < 2 ^ 64 := b.isLt
  by_cases h1 : b.toNat / 2 ^ 63 = 1
  · have : @UnpackedFloat.unpackSign .binary64 b = 1#1 := BitVec.eq_of_toNat_eq (by rw [h, h1]; rfl)
    rw [this, show (b.toNat / twoTo 63 == 1) = true from beq_iff_eq.2 h1]
    rfl
  · have h0 : b.toNat / 2 ^ 63 = 0 := by omega
    have : @UnpackedFloat.unpackSign .binary64 b = 0#1 := BitVec.eq_of_toNat_eq (by rw [h, h0]; rfl)
    rw [this, show (b.toNat / twoTo 63 == 1) = false from beq_false_of_ne h1]
    rfl

lemma toNat_implicit (v : BitVec 52) : (1#1 ++ v).toNat = v.toNat + 2 ^ 52 := by
  rw [BitVec.toNat_append, ← Nat.shiftLeft_add_eq_or_of_lt v.isLt, Nat.add_comm]
  rfl

variable {negative : Bool} {m m' : Nat} {q : Int} {x : Float}

lemma finite_congr {s : UnpackedFloat.Sign} {q' : Int} {h : 0 < m} {h' : 0 < m'} (hm : m = m') (hq : q = q') :
    UnpackedFloat.finite s m q h = UnpackedFloat.finite s m' q' h' := by
  subst hm hq
  rfl

lemma unpack_eq (x : Float) : x.toModel.unpack = (parts x).unpacked := by
  have hs := sign_eq x.toBits.toBitVec
  have he := toNat_unpackExponent x.toBits.toBitVec
  have hm := toNat_unpackMantissa x.toBits.toBitVec
  have he1 : @UnpackedFloat.unpackExponent .binary64 x.toBits.toBitVec = -1#11 ↔
      x.toBits.toNat / twoTo 52 % 2048 = 2047 := by
    rw [← BitVec.toNat_inj, he]
    rfl
  have he0 : @UnpackedFloat.unpackExponent .binary64 x.toBits.toBitVec = 0#11 ↔
      x.toBits.toNat / twoTo 52 % 2048 = 0 := by
    rw [← BitVec.toNat_inj, he]
    rfl
  have hm0 : @UnpackedFloat.unpackMantissa .binary64 x.toBits.toBitVec = 0#52 ↔
      x.toBits.toNat % twoTo 52 = 0 := by
    rw [← BitVec.toNat_inj, hm]
    rfl
  show UnpackedFloat.unpack Format.binary64 x.toBits.toBitVec = _
  rw [UnpackedFloat.unpack]
  simp only [hs]
  rw [parts]
  simp only [UInt64.toNat_toBitVec] at he hm ⊢
  by_cases h1 : x.toBits.toNat / twoTo 52 % 2048 = 2047
  · rw [if_pos (he1.2 h1), if_pos (beq_iff_eq.2 h1)]
    by_cases h2 : x.toBits.toNat % twoTo 52 = 0
    · rw [if_pos (hm0.2 h2), if_pos (beq_iff_eq.2 h2), Parts.unpacked]
    · rw [if_neg (hm0.not.2 h2), if_neg (beq_iff_eq.not.2 h2), Parts.unpacked]
  rw [if_neg (he1.not.2 h1), if_neg (beq_iff_eq.not.2 h1)]
  by_cases h0 : x.toBits.toNat / twoTo 52 % 2048 = 0
  · rw [if_pos (he0.2 h0), if_pos (beq_iff_eq.2 h0), Parts.unpacked]
    by_cases h2 : x.toBits.toNat % twoTo 52 = 0
    · rw [dif_pos (hm0.2 h2), dif_pos h2]
    · rw [dif_neg (hm0.not.2 h2), dif_neg h2]
      refine finite_congr hm ?_
      rw [he]
      show ((x.toBits.toNat / twoTo 52 % 2048 : Nat) : Int) - (1023 + 52) + 1 = -1074
      rw [h0]
      rfl
  · rw [if_neg (he0.not.2 h0), if_neg (beq_iff_eq.not.2 h0), Parts.unpacked, dif_neg (by simp [twoTo])]
    refine finite_congr ?_ ?_
    · exact (toNat_implicit _).trans (congrArg (· + 2 ^ 52) hm)
    · rw [he]
      show ((x.toBits.toNat / twoTo 52 % 2048 : Nat) : Int) - (1023 + 52) = _
      omega

lemma eq_of_parts {y : Float} (h : parts x = parts y) : x = y := by
  have hu : x.toModel.unpack = y.toModel.unpack := by rw [unpack_eq, unpack_eq, h]
  have hb := (UnpackedFloat.unpack_inj_of_valid x.toModel.valid y.toModel.valid).1 hu
  exact Float.toBits_inj.1 (UInt64.toBitVec_inj.1 hb)

def Parts.Canonical : Parts → Prop
  | .finite _ m q => m < 2 ^ 53 ∧ -1074 ≤ q ∧ q ≤ 971 ∧ (q = -1074 ∨ 2 ^ 52 ≤ m)
  | _ => True

lemma canonical_parts (x : Float) : (parts x).Canonical := by
  have hb := x.toBits.toNat_lt
  unfold parts
  generalize x.toBits.toNat = b at hb
  have h52 : twoTo 52 = 2 ^ 52 := rfl
  simp only [beq_iff_eq, h52]
  split_ifs with h1 h2 h3
  · trivial
  · trivial
  · exact ⟨by omega, by omega, by omega, .inl rfl⟩
  · exact ⟨by omega, by omega, by omega, .inr (by omega)⟩

def bound (e : Nat) : Nat := 2 ^ 53 * 2 ^ e

def Parts.height : Parts → Int
  | .nan => 0
  | .infinite negative => if negative then -(bound 2045 : Int) else bound 2045
  | .finite negative m q =>
    if negative then -((m * 2 ^ (q + 1074).toNat : Nat) : Int) else (m * 2 ^ (q + 1074).toNat : Nat)

lemma mantissa_lt {a a' : Nat} (hm : m < 2 ^ 53) (hm' : 2 ^ 52 ≤ m') (h : a < a') : m * 2 ^ a < m' * 2 ^ a' := by
  calc m * 2 ^ a < 2 ^ 53 * 2 ^ a := by gcongr
    _ = 2 ^ 52 * 2 ^ (a + 1) := by ring
    _ ≤ m' * 2 ^ a' := Nat.mul_le_mul hm' (Nat.pow_le_pow_right (by decide) h)

lemma mantissa_lt_bound {a e : Nat} (hm : m < 2 ^ 53) (h : a ≤ e) : m * 2 ^ a < bound e := by
  calc m * 2 ^ a < 2 ^ 53 * 2 ^ a := by gcongr
    _ ≤ 2 ^ 53 * 2 ^ e := Nat.mul_le_mul_left _ (Nat.pow_le_pow_right (by decide) h)

lemma compare_canonical {q' : Int} {negative' : Bool} (h : (Parts.finite negative m q).Canonical)
    (h' : (Parts.finite negative' m' q').Canonical) :
    (compare q q').then (compare m m') = compare (m * 2 ^ (q + 1074).toNat) (m' * 2 ^ (q' + 1074).toNat) := by
  obtain ⟨hm, hq, -, hn⟩ := h
  obtain ⟨hm', hq', -, hn'⟩ := h'
  rcases lt_trichotomy q q' with hlt | rfl | hlt
  · have hn' : 2 ^ 52 ≤ m' := by omega
    rw [compare_lt_iff_lt.2 hlt, compare_lt_iff_lt.2 (mantissa_lt hm hn' (by omega))]
    rfl
  · have hp : 0 < 2 ^ (q + 1074).toNat := Nat.two_pow_pos _
    rw [compare_eq_iff_eq.2 (rfl : q = q)]
    show compare m m' = _
    rcases lt_trichotomy m m' with hlt | rfl | hlt
    · rw [compare_lt_iff_lt.2 hlt, compare_lt_iff_lt.2 (Nat.mul_lt_mul_of_pos_right hlt hp)]
    · rw [compare_eq_iff_eq.2 rfl, compare_eq_iff_eq.2 rfl]
    · rw [compare_gt_iff_gt.2 hlt, compare_gt_iff_gt.2 (Nat.mul_lt_mul_of_pos_right hlt hp)]
  · have hn : 2 ^ 52 ≤ m := by omega
    rw [compare_gt_iff_gt.2 hlt, compare_gt_iff_gt.2 (mantissa_lt hm' hn (by omega))]
    rfl

lemma bound_pos (e : Nat) : 0 < bound e := Nat.mul_pos (by decide) (Nat.two_pow_pos e)

lemma compare_cast (m n : Nat) : compare (m : Int) n = compare m n := by
  rcases lt_trichotomy m n with h | rfl | h
  · rw [compare_lt_iff_lt.2 h, compare_lt_iff_lt.2 (Int.ofNat_lt.2 h)]
  · rw [compare_eq_iff_eq.2 rfl, compare_eq_iff_eq.2 rfl]
  · rw [compare_gt_iff_gt.2 h, compare_gt_iff_gt.2 (Int.ofNat_lt.2 h)]

lemma compare_neg (i j : Int) : compare (-i) (-j) = (compare i j).swap := by
  rcases lt_trichotomy i j with h | rfl | h
  · rw [compare_lt_iff_lt.2 h, compare_gt_iff_gt.2 (Int.neg_lt_neg h)]
    rfl
  · rw [compare_eq_iff_eq.2 rfl, compare_eq_iff_eq.2 rfl]
    rfl
  · rw [compare_gt_iff_gt.2 h, compare_lt_iff_lt.2 (Int.neg_lt_neg h)]
    rfl

lemma compare_unpacked {p r : Parts} (hp : p.Canonical) (hr : r.Canonical) (hn : p ≠ .nan) (hn' : r ≠ .nan) :
    p.unpacked.compare r.unpacked = some (compare p.height r.height) := by
  have hpos := bound_pos 2045
  cases p with
  | nan => exact absurd rfl hn
  | infinite negative =>
    cases r with
    | nan => exact absurd rfl hn'
    | infinite negative' =>
      cases negative <;> cases negative' <;> apply congrArg some <;> symm
      · exact compare_eq_iff_eq.2 rfl
      · exact compare_gt_iff_gt.2 (show -(bound 2045 : Int) < bound 2045 by omega)
      · exact compare_lt_iff_lt.2 (show -(bound 2045 : Int) < bound 2045 by omega)
      · exact compare_eq_iff_eq.2 rfl
    | finite negative' m' q' =>
      obtain ⟨hm, hq, hq', -⟩ := hr
      have hb := mantissa_lt_bound (a := (q' + 1074).toNat) (e := 2045) hm (by omega)
      simp only [Parts.unpacked, Parts.height]
      generalize m' * 2 ^ (q' + 1074).toNat = g' at hb ⊢
      -- An infinite number is past every other one, zero or not.
      by_cases h0 : m' = 0 <;> cases negative <;> cases negative' <;>
        simp only [h0, ↓reduceDIte, signOf, if_true, Bool.false_eq_true, if_false, UnpackedFloat.compare,
          Option.some.injEq] <;> rw [eq_comm] <;>
        simp only [compare_gt_iff_gt, compare_lt_iff_lt] <;> omega
  | finite negative m q =>
    cases r with
    | nan => exact absurd rfl hn'
    | infinite negative' =>
      obtain ⟨hm, hq, hq', -⟩ := hp
      have hb := mantissa_lt_bound (a := (q + 1074).toNat) (e := 2045) hm (by omega)
      simp only [Parts.unpacked, Parts.height]
      generalize m * 2 ^ (q + 1074).toNat = g at hb ⊢
      by_cases h0 : m = 0 <;> cases negative <;> cases negative' <;>
        simp only [h0, ↓reduceDIte, signOf, if_true, Bool.false_eq_true, if_false, UnpackedFloat.compare,
          Option.some.injEq] <;> rw [eq_comm] <;>
        simp only [compare_gt_iff_gt, compare_lt_iff_lt] <;> omega
    | finite negative' m' q' =>
      have hc := compare_canonical hp hr
      have hg : m = 0 ↔ m * 2 ^ (q + 1074).toNat = 0 := by simp
      have hg' : m' = 0 ↔ m' * 2 ^ (q' + 1074).toNat = 0 := by simp
      simp only [Parts.unpacked, Parts.height]
      generalize m * 2 ^ (q + 1074).toNat = g at hc hg ⊢
      generalize m' * 2 ^ (q' + 1074).toNat = g' at hc hg' ⊢
      -- Where one of them is zero the signs decide.
      by_cases h1 : m = 0
      · by_cases h1' : m' = 0 <;> cases negative <;> cases negative' <;>
          simp only [h1, h1', ↓reduceDIte, signOf, if_true, Bool.false_eq_true, if_false, UnpackedFloat.compare,
            Option.some.injEq] <;> rw [eq_comm] <;>
          simp only [compare_gt_iff_gt, compare_lt_iff_lt, compare_eq_iff_eq] <;> omega
      by_cases h1' : m' = 0
      · cases negative <;> cases negative' <;>
          simp only [h1, h1', ↓reduceDIte, signOf, if_true, Bool.false_eq_true, if_false, UnpackedFloat.compare,
            Option.some.injEq] <;> rw [eq_comm] <;>
          simp only [compare_gt_iff_gt, compare_lt_iff_lt] <;> omega
      · cases negative <;> cases negative' <;> simp only [h1, h1', ↓reduceDIte] <;> apply congrArg some
        · exact hc.trans (compare_cast g g').symm
        · exact (compare_gt_iff_gt.2 (by simp; omega)).symm
        · exact (compare_lt_iff_lt.2 (by simp; omega)).symm
        · show ((compare q q').then (compare m m')).swap = compare (-(g : Int)) (-(g' : Int))
          rw [compare_neg, compare_cast, hc]

lemma lt_iff_height {y : Float} (hx : parts x ≠ .nan) (hy : parts y ≠ .nan) :
    x < y ↔ (parts x).height < (parts y).height := by
  have h := compare_unpacked (canonical_parts x) (canonical_parts y) hx hy
  show decide ((x.toModel.unpack.compare y.toModel.unpack == some .lt) = true) = true ↔ _
  rw [decide_eq_true_iff, unpack_eq, unpack_eq, h, beq_iff_eq, Option.some.injEq, compare_lt_iff_lt]

lemma beq_iff_height {y : Float} (hx : parts x ≠ .nan) (hy : parts y ≠ .nan) :
    (x == y) = true ↔ (parts x).height = (parts y).height := by
  have h := compare_unpacked (canonical_parts x) (canonical_parts y) hx hy
  show (x.toModel.unpack.compare y.toModel.unpack == some .eq) = true ↔ _
  rw [unpack_eq, unpack_eq, h, beq_iff_eq, Option.some.injEq, compare_eq_iff_eq]

deriving instance DecidableEq for Parts

lemma parts_zero : parts 0 = .finite false 0 (-1074) := by decide

lemma not_lt_zero (h : parts x = .finite false m q) : ¬ x < 0 := by
  rw [lt_iff_height (by rw [h]; exact Parts.noConfusion) (by rw [parts_zero]; exact Parts.noConfusion), h, parts_zero]
  simp only [Parts.height, Bool.false_eq_true, if_false, Nat.zero_mul]
  omega

lemma infinite_of_isInf (h : x.isInf = true) : ∃ negative, parts x = .infinite negative := by
  replace h : x.toModel.unpack.isInf = true := h
  rw [unpack_eq] at h
  cases hp : parts x with
  | infinite negative => exact ⟨negative, rfl⟩
  | nan =>
    rw [hp] at h
    cases h
  | finite negative m q =>
    rw [hp, Parts.unpacked] at h
    split_ifs at h <;> cases h

lemma toBits_ofBits {b : Nat} (hb : b < 2 ^ 64) (h : b / 2 ^ 52 % 2 ^ 11 ≠ 2047) :
    (Float.ofBits (UInt64.ofNat b)).toBits.toNat = b := by
  have hv : (UInt64.ofNat b).toBitVec.toNat = b := by
    rw [UInt64.toNat_toBitVec, UInt64.toNat_ofNat_of_lt' hb]
  have hnan : @UnpackedFloat.isNaNBits .binary64 (UInt64.ofNat b).toBitVec = false := by
    refine decide_eq_false fun hn => h ?_
    have he := congrArg BitVec.toNat hn.1
    rwa [toNat_unpackExponent, hv] at he
  show (UnpackedFloat.pack Format.binary64 (UnpackedFloat.unpack Format.binary64 (UInt64.ofNat b).toBitVec)).toNat = b
  rw [UnpackedFloat.pack_unpack, hnan]
  exact hv

lemma parts_encoded (h : (Parts.finite negative m q).Canonical) :
    parts (Float.ofBits (UInt64.ofNat (m + (q + 1074).toNat * 2 ^ 52 + negative.toNat * 2 ^ 63))) =
      .finite negative m q := by
  obtain ⟨hm, hq, hq', hn⟩ := h
  have hs : negative.toNat ≤ 1 := Bool.toNat_le negative
  have hb : m + (q + 1074).toNat * 2 ^ 52 < 2047 * 2 ^ 52 := by omega
  have h52 : twoTo 52 = 2 ^ 52 := rfl
  have h63 : twoTo 63 = 2 ^ 63 := rfl
  unfold parts
  rw [toBits_ofBits (by omega) (by omega)]
  simp only [beq_iff_eq, h52, h63]
  have hs : ((m + (q + 1074).toNat * 2 ^ 52 + negative.toNat * 2 ^ 63) / 2 ^ 63 == 1) = negative := by
    rw [Nat.add_mul_div_right _ _ (by decide), Nat.div_eq_of_lt (by omega), Nat.zero_add]
    cases negative <;> rfl
  rw [if_neg (by omega), hs]
  split_ifs with h0
  · congr 1 <;> omega
  · congr 1 <;> omega

lemma exists_parts (h : (Parts.finite negative m q).Canonical) :
    ∃ x, parts x = .finite negative m q := ⟨_, parts_encoded h⟩

end LandUse.Number
