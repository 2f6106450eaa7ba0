import LandUse.Value
import LandUse.Proofs.Number.Whole

namespace LandUse.Number

open Float.Model UnpackedFloat

lemma shift_exact (m k : Nat) :
    (⟨m * 2 ^ k, false, false⟩ : ExtendedMantissa) >>> k = ⟨m, false, false⟩ := by
  induction k generalizing m with
  | zero =>
    rw [Nat.pow_zero, Nat.mul_one]
    rfl
  | succ k ih =>
    have hstep : (⟨m * 2 ^ (k + 1), false, false⟩ : ExtendedMantissa) >>> (k + 1) =
        ((⟨m * 2 * 2 ^ k, false, false⟩ : ExtendedMantissa) >>> k).shiftRightOne := by
      rw [Nat.pow_succ, Nat.mul_comm (2 ^ k) 2, ← Nat.mul_assoc]
      rfl
    rw [hstep, ih]
    simp [ExtendedMantissa.shiftRightOne]

variable {m n M : Nat} {q e : Int} {negative : Bool} {x : Float}

lemma targetExponent_eq (hc : (Parts.finite negative m q).Canonical) (hm : 0 < m) (k : Nat) :
    Format.binary64.targetExponent (totalExponent (m * 2 ^ k) (q - k)) = q := by
  have hlog : totalExponent (m * 2 ^ k) (q - k) = m.log2 + 1 + q := by
    rw [totalExponent, log2_mul_two_pow hm.ne']
    push_cast
    omega
  have htarget : Format.binary64.targetExponent (m.log2 + 1 + q) = max (m.log2 + 1 + q - 53) (-1074) := rfl
  obtain ⟨hlt, hq, -, h0⟩ := hc
  rw [hlog, htarget]
  rcases h0 with rfl | h0
  · have : m.log2 < 53 := (Nat.log2_lt hm.ne').2 hlt
    omega
  · rw [log2_normal hlt h0]
    omega

lemma shiftToTarget_exact (hc : (Parts.finite negative m q).Canonical) (hm : 0 < m) (k : Nat) :
    shiftToTargetExponent .binary64 (m * 2 ^ k) (q - k) .exact = (⟨m, false, false⟩, q) := by
  have hk : (q - (q - k)).toNat = k := by omega
  simp only [shiftToTargetExponent, shiftToExponent, targetExponent_eq hc hm, hk,
    ExtendedMantissa.ofMantissaAndAccuracy,
    shift_exact]
  congr 1
  omega

lemma roundWithAccuracy_exact (hc : (Parts.finite negative m q).Canonical) (hm : 0 < m) (k : Nat) (s : Sign) :
    roundWithAccuracy .binary64 s (m * 2 ^ k) (q - k) .exact = .finite s m q hm := by
  have hround : (⟨m, false, false⟩ : ExtendedMantissa).roundedMantissa = m := rfl
  have hagain : shiftToTargetExponent .binary64 m q .exact = (⟨m, false, false⟩, q) := by
    simpa using shiftToTarget_exact hc hm 0
  simp only [roundWithAccuracy, shiftToTarget_exact hc hm k, hround, hagain, hm.ne', dite_false]

lemma pack_unpacked {p : Parts} (h : parts x = p) : Float.ofModel (Float.Model.pack p.unpacked) = x := by
  rw [← h, ← unpack_eq]
  exact Float.ofBits_toBits x

lemma unpacked_pos (hm : 0 < m) (negative : Bool) :
    (Parts.finite negative m q).unpacked = .finite (signOf negative) m q hm := dif_neg hm.ne'

lemma Whole.pos (h : Whole m q n) (hn : 0 < n) : 0 < m := by
  refine Nat.pos_of_ne_zero fun hm => ?_
  rw [Whole, hm, Nat.zero_mul] at h
  exact (Nat.mul_pos hn (Nat.two_pow_pos _)).ne' h

lemma Whole.scaled {k : Nat} (h : Whole m q n) (hk : 0 ≤ q + k) : n * 2 ^ k = m * 2 ^ (q + k).toNat := by
  rcases le_total 0 q with hq | hq
  · rw [h.of_nonneg hq, show (q + k).toNat = q.toNat + k by omega, Nat.pow_add, Nat.mul_assoc]
  · rw [← h.of_nonpos hq, Nat.mul_assoc, ← Nat.pow_add, show (-q).toNat + (q + k).toNat = k by omega]

lemma Whole.exponent_ge (h : Whole m q n) (hn : 0 < n) (hm : m < 2 ^ 53) : -53 < q := by
  by_contra hq
  have h53 : n * 2 ^ (-q).toNat = m := h.of_nonpos (by omega)
  have : 2 ^ 53 ≤ 2 ^ (-q).toNat := Nat.pow_le_pow_right (by decide) (by omega)
  have : 2 ^ (-q).toNat ≤ n * 2 ^ (-q).toNat := Nat.le_mul_of_pos_left _ hn
  omega

lemma mul_finite (spec : Format) {s s' : Sign} {m' : Nat} {e' : Int} (h : 0 < m) (h' : 0 < m') :
    UnpackedFloat.mul spec (.finite s m e h) (.finite s' m' e' h') =
      roundWithAccuracy spec (s * s') (m * m') (e + e') .exact := rfl

lemma ofScientific_eq (hn : 0 < n) :
    UnpackedFloat.ofScientific .binary64 n 0 = roundWithAccuracy .binary64 .positive (n <<< 53) (-53) .exact := by
  have hbits : Format.binary64.mantissaBits = 53 := rfl
  have h0 : ¬ (0 : Int) < -((2 ^ Format.binary64.exponentBits : Int) + n.log2) := by
    have : (0 : Int) ≤ 2 ^ Format.binary64.exponentBits := by decide
    omega
  rw [UnpackedFloat.ofScientific, dif_neg hn.ne', if_neg (by decide), if_neg h0, if_pos (Int.le_refl 0), mul_finite,
    hbits, Int.toNat_zero, Nat.pow_zero, Nat.mul_one, Int.add_zero]
  rfl

lemma ofScientific_whole (h : Whole m q n) (hc : (Parts.finite negative m q).Canonical) (hn : 0 < n) :
    UnpackedFloat.ofScientific .binary64 n 0 = .finite .positive m q (h.pos hn) := by
  have hq := h.exponent_ge hn hc.1
  have hscaled : n <<< 53 = m * 2 ^ (q + 53).toNat := by
    rw [Nat.shiftLeft_eq]
    exact h.scaled (k := 53) (by omega)
  have hexp : (-53 : Int) = q - (q + 53).toNat := by omega
  rw [ofScientific_eq hn, hscaled, hexp]
  exact roundWithAccuracy_exact hc (h.pos hn) _ _

lemma round_whole (h : Whole m q n) (hc : (Parts.finite negative m q).Canonical) (hn : 0 < n) (hlt : n < 2 ^ 53) :
    UnpackedFloat.round .binary64 .positive n 0 = .finite .positive m q (h.pos hn) := by
  have hm := h.normal hc hn
  have hlog := h.log2 hn.ne' hc.1 hm
  have hq : q ≤ 0 := by
    have : n.log2 < 53 := (Nat.log2_lt hn.ne').2 hlt
    omega
  have htarget : Format.binary64.targetExponent (totalExponent n 0) = q := by
    show max ((n.log2 : Int) + 1 + 0 - 53) (-1074) = q
    have := hc.2.1
    omega
  have hmant : n <<< (0 - q).toNat = m := by
    rw [Nat.shiftLeft_eq, Int.zero_sub]
    exact h.of_nonpos hq
  have hexp : (0 : Int) - (0 - q).toNat = q := by omega
  simp only [UnpackedFloat.round, htarget, decreaseExponent, hmant, hexp]
  simpa using roundWithAccuracy_exact hc (h.pos hn) 0 .positive

lemma mul_one (hx : parts x = .finite false m q) (hm : 0 < m) : x * Float.ofBits 0x3FF0000000000000 = x := by
  have hone : parts (Float.ofBits 0x3FF0000000000000) = .finite false (2 ^ 52) (-52) := by decide
  have hc := canonical_parts x
  rw [hx] at hc
  have hmul : UnpackedFloat.mul .binary64 x.toModel.unpack (Float.ofBits 0x3FF0000000000000).toModel.unpack =
      (Parts.finite false m q).unpacked := by
    rw [unpack_eq, unpack_eq, hx, hone, unpacked_pos hm, unpacked_pos (by decide)]
    exact roundWithAccuracy_exact hc hm 52 _
  show Float.ofModel (Float.Model.pack (UnpackedFloat.mul .binary64 _ _)) = x
  rw [hmul]
  exact pack_unpacked hx

lemma toFloat_whole (hx : parts x = .finite false m q) (h : Whole m q n) (hn : 0 < n) (hlt : n < 2 ^ 53) :
    n.toUInt64.toFloat = x := by
  have hc := canonical_parts x
  rw [hx] at hc
  have hto : n.toUInt64.toNat = n := UInt64.toNat_ofNat_of_lt' (lt_trans hlt (by decide))
  have hgt : compare (n : Int) 0 = .gt := compare_gt_iff_gt.2 (by omega)
  have hround : UnpackedFloat.normalize .binary64 (n.toUInt64.toNat : Int) 0 .positive =
    (Parts.finite false m q).unpacked := by
    rw [hto, unpacked_pos (h.pos hn)]
    simp only [UnpackedFloat.normalize, hgt, Int.toNat_natCast]
    exact round_whole h hc hn hlt
  show Float.ofModel (Float.Model.pack (UnpackedFloat.normalize .binary64 (n.toUInt64.toNat : Int) 0 .positive)) = x
  rw [hround]
  exact pack_unpacked hx

lemma ofNat_large (hlt : ¬ n < 2 ^ 53) :
    Float.ofNat n = Float.ofModel (Float.Model.pack (UnpackedFloat.ofScientific .binary64 n 0)) := by
  show Float.ofScientific n false 0 = _
  unfold Float.ofScientific
  rw [dif_neg fun h => hlt h.1]
  rfl

lemma ofNat_whole (hx : parts x = .finite false m q) (h : Whole m q n) (hn : 0 < n) : Float.ofNat n = x := by
  have hc := canonical_parts x
  rw [hx] at hc
  by_cases hlt : n < 2 ^ 53
  · show Float.ofScientific n false 0 = x
    unfold Float.ofScientific
    rw [dif_pos ⟨hlt, by decide⟩, toFloat_whole hx h hn hlt]
    exact mul_one hx (h.pos hn)
  · rw [ofNat_large hlt, ofScientific_whole h hc hn, show UnpackedFloat.finite .positive m q (h.pos hn) = _ from
      (unpacked_pos (h.pos hn) false).symm]
    exact pack_unpacked hx

lemma parts_neg (hx : parts x = .finite negative m q) : parts (-x) = .finite (!negative) m q := by
  have hc := canonical_parts x
  rw [hx] at hc
  obtain ⟨y, hy⟩ := @exists_parts (!negative) m q hc
  have hneg : (Parts.finite negative m q).unpacked.neg = (Parts.finite (!negative) m q).unpacked := by
    by_cases hm : m = 0
    · simp only [Parts.unpacked, hm, dite_true]
      cases negative <;> rfl
    · rw [unpacked_pos (Nat.pos_of_ne_zero hm), unpacked_pos (Nat.pos_of_ne_zero hm)]
      cases negative <;> rfl
  have : -x = Float.ofModel (Float.Model.pack x.toModel.unpack.neg) := rfl
  rw [this, unpack_eq, hx, hneg, pack_unpacked hy, hy]

lemma ofInt_whole {i : Int} (hx : parts x = .finite negative m q) (h : Whole m q i.natAbs) (hi : i ≠ 0)
    (hs : i < 0 ↔ negative = true) : Float.ofInt i = x := by
  have hc := canonical_parts x
  rw [hx] at hc
  cases i with
  | ofNat n =>
    have hn : ¬ negative = true := fun hn => absurd (hs.2 hn) (Int.not_lt.2 (Int.natCast_nonneg n))
    obtain rfl : negative = false := Bool.eq_false_iff.2 hn
    exact ofNat_whole hx h (Nat.pos_of_ne_zero fun hn => hi (congrArg Int.ofNat hn))
  | negSucc n =>
    obtain rfl : negative = true := hs.1 (Int.negSucc_lt_zero n)
    obtain ⟨y, hy⟩ := @exists_parts false m q hc
    have hn : Float.ofNat (n + 1) = y := ofNat_whole hy h (Nat.succ_pos n)
    show -Float.ofNat (n + 1) = x
    rw [hn]
    exact eq_of_parts ((parts_neg hy).trans hx.symm)

lemma exists_whole (hn : 0 < n) (hlt : n < 2 ^ 53) : ∃ m q, (Parts.finite false m q).Canonical ∧ Whole m q n := by
  have hlog : n.log2 < 53 := (Nat.log2_lt hn.ne').2 hlt
  obtain ⟨k, hk⟩ : ∃ k, n.log2 + k = 52 := ⟨52 - n.log2, by omega⟩
  have hm : (n * 2 ^ k).log2 = 52 := by rw [log2_mul_two_pow hn.ne', hk]
  have hm0 : n * 2 ^ k ≠ 0 := (Nat.mul_pos hn (Nat.two_pow_pos k)).ne'
  obtain ⟨hle, hlt⟩ := (Nat.log2_eq_iff hm0).1 hm
  refine ⟨n * 2 ^ k, -k, ⟨hlt, by omega, by omega, .inr hle⟩, ?_⟩
  rw [Whole, Int.neg_neg, Int.toNat_natCast, Int.toNat_of_nonpos (by omega), Nat.pow_zero, Nat.mul_one]

lemma shift_mantissa (em : ExtendedMantissa) (k : Nat) : (em >>> k).mantissa = em.mantissa / 2 ^ k := by
  induction k with
  | zero => exact (Nat.div_one _).symm
  | succ k ih =>
    have hstep : (em >>> (k + 1)).mantissa = (em >>> k).mantissa / 2 := rfl
    rw [hstep, ih, Nat.div_div_eq_div_mul, Nat.pow_succ]

lemma le_roundDiv (num den : Nat) : num / den ≤ roundDiv num den ∧ roundDiv num den ≤ num / den + 1 := by
  unfold roundDiv
  dsimp only
  split_ifs <;> omega

lemma shift_bits (M k : Nat) :
    (((⟨M, false, false⟩ : ExtendedMantissa) >>> k).roundBit = true ↔ 2 ^ k ≤ 2 * (M % 2 ^ k)) ∧
      (((⟨M, false, false⟩ : ExtendedMantissa) >>> k).stickyBit = true ↔ 2 * (M % 2 ^ k) ≠ 0 ∧
        2 * (M % 2 ^ k) ≠ 2 ^ k) := by
  induction k with
  | zero =>
    rw [Nat.pow_zero, Nat.mod_one]
    exact ⟨⟨Bool.noConfusion, by omega⟩, Bool.noConfusion, by omega⟩
  | succ k ih =>
    have hround : ((⟨M, false, false⟩ : ExtendedMantissa) >>> (k + 1)).roundBit = (M / 2 ^ k % 2 != 0) := by
      rw [← shift_mantissa ⟨M, false, false⟩ k]
      rfl
    have hsticky : ((⟨M, false, false⟩ : ExtendedMantissa) >>> (k + 1)).stickyBit =
        (((⟨M, false, false⟩ : ExtendedMantissa) >>> k).roundBit ||
          ((⟨M, false, false⟩ : ExtendedMantissa) >>> k).stickyBit) :=
      rfl
    have hlt : M % 2 ^ k < 2 ^ k := Nat.mod_lt M (Nat.two_pow_pos k)
    have hmod : M % 2 ^ (k + 1) = M % 2 ^ k + 2 ^ k * (M / 2 ^ k % 2) := by rw [Nat.pow_succ, Nat.mod_mul]
    rw [hround, hsticky, Bool.or_eq_true, ih.1, ih.2, hmod, bne_iff_ne, Nat.pow_succ]
    obtain h | h : M / 2 ^ k % 2 = 0 ∨ M / 2 ^ k % 2 = 1 := by omega
    · rw [h]
      omega
    · rw [h]
      omega

lemma roundedMantissa_shift (M k : Nat) :
    ((⟨M, false, false⟩ : ExtendedMantissa) >>> k).roundedMantissa = roundDiv M (2 ^ k) := by
  obtain ⟨hround, hsticky⟩ := shift_bits M k
  have hmantissa := shift_mantissa ⟨M, false, false⟩ k
  have hlt : M % 2 ^ k < 2 ^ k := Nat.mod_lt M (Nat.two_pow_pos k)
  unfold roundDiv
  dsimp only at hmantissa ⊢
  rw [← hmantissa]
  generalize (⟨M, false, false⟩ : ExtendedMantissa) >>> k = em at hround hsticky ⊢
  obtain ⟨m, _ | _, _ | _⟩ := em
  · show m = _
    simp at hround hsticky
    rw [if_pos (by omega)]
  · show m = _
    simp at hround
    rw [if_pos hround]
  · show m + m % 2 = _
    simp at hround hsticky
    rw [if_neg (by omega), if_neg (by omega)]
    simp only [beq_iff_eq]
    split_ifs <;> omega
  · show m + 1 = _
    simp at hround hsticky
    rw [if_neg (by omega), if_pos (by omega)]

lemma shiftToTarget_large (hM : 2 ^ 52 ≤ M) (he : -1074 ≤ e) : shiftToTargetExponent .binary64 M e .exact =
    ((⟨M, false, false⟩ : ExtendedMantissa) >>> (M.log2 - 52), e + (M.log2 - 52 : Nat)) := by
  have hlog : 52 ≤ M.log2 := (Nat.le_log2 (by omega)).2 hM
  have htarget : Format.binary64.targetExponent (totalExponent M e) = max ((M.log2 : Int) + 1 + e - 53) (-1074) := rfl
  have hk : (Format.binary64.targetExponent (totalExponent M e) - e).toNat = M.log2 - 52 := by
    rw [htarget]
    omega
  simp only [shiftToTargetExponent, shiftToExponent, hk, ExtendedMantissa.ofMantissaAndAccuracy]

lemma shifted_bounds (hM : 2 ^ 52 ≤ M) : 2 ^ 52 ≤ M / 2 ^ (M.log2 - 52) ∧ M / 2 ^ (M.log2 - 52) < 2 ^ 53 := by
  have hlog : 52 ≤ M.log2 := (Nat.le_log2 (by omega)).2 hM
  obtain ⟨hle, hlt⟩ := (Nat.log2_eq_iff (by omega)).1 (rfl : M.log2 = M.log2)
  rw [Nat.le_div_iff_mul_le (Nat.two_pow_pos _), Nat.div_lt_iff_lt_mul (Nat.two_pow_pos _),
    ← Nat.pow_add, ← Nat.pow_add]
  rw [show 52 + (M.log2 - 52) = M.log2 by omega, show 53 + (M.log2 - 52) = M.log2 + 1 by omega]
  exact ⟨hle, hlt⟩

lemma exists_rounded (hM : 2 ^ 52 ≤ M) (he : -1074 ≤ e) (hlarge : e + M.log2 ≤ 1000) :
    ∃ m q hm, roundWithAccuracy .binary64 .positive M e .exact = .finite .positive m q hm ∧
      (Parts.finite false m q).Canonical ∧
      ∃ k : Nat, q = e + (M.log2 - 52 : Nat) + k ∧ m * 2 ^ k = roundDiv M (2 ^ (M.log2 - 52)) := by
  obtain ⟨hle₁, hlt₁⟩ := shifted_bounds hM
  obtain ⟨hround, hround'⟩ := le_roundDiv M (2 ^ (M.log2 - 52))
  have hR := roundedMantissa_shift M (M.log2 - 52)
  generalize roundDiv M (2 ^ (M.log2 - 52)) = R at hround hround' hR ⊢
  have hR52 : 2 ^ 52 ≤ R := by omega
  -- A carry may make the mantissa one bit longer, but no more, and then only zeros are behind the first bit.
  have hRlog : R.log2 ≤ 53 := Nat.lt_succ_iff.1 ((Nat.log2_lt (by omega)).2 (by omega))
  have hRlog' : 52 ≤ R.log2 := (Nat.le_log2 (by omega)).2 hR52
  obtain ⟨hle₂, hlt₂⟩ := shifted_bounds hR52
  have hlog : 52 ≤ M.log2 := (Nat.le_log2 (by omega)).2 hM
  have hexact : R / 2 ^ (R.log2 - 52) * 2 ^ (R.log2 - 52) = R := by
    obtain h | h : R.log2 = 52 ∨ R.log2 = 53 := by omega
    · rw [h]
      exact Nat.mul_one _ ▸ Nat.div_one R
    · have : 2 ^ 53 ≤ R := h ▸ Nat.log2_self_le (by omega)
      rw [h, show R = 2 ^ 53 by omega]
      rfl
  refine ⟨R / 2 ^ (R.log2 - 52), e + (M.log2 - 52 : Nat) + (R.log2 - 52 : Nat), by omega, ?_,
    ⟨hlt₂, by omega, by omega, .inr hle₂⟩, R.log2 - 52, rfl, hexact⟩
  simp only [roundWithAccuracy, shiftToTarget_large hM he, hR, shiftToTarget_large hR52
    (show -1074 ≤ e + (M.log2 - 52 : Nat) by omega),
    shift_mantissa]
  rw [dif_neg (by omega)]

def nearestWhole (n : Nat) : Nat := roundDiv n (2 ^ (n.log2 - 52)) * 2 ^ (n.log2 - 52)

lemma nearestWhole_eq (hn : n ≤ 2 ^ 53) : nearestWhole n = n := by
  obtain hlt | rfl := Nat.lt_or_eq_of_le hn
  · have hlog : n.log2 - 52 = 0 := by
      obtain rfl | h0 := Nat.eq_zero_or_pos n
      · rfl
      · have := (Nat.log2_lt h0.ne').2 hlt
        omega
    rw [nearestWhole, hlog, Nat.pow_zero, Nat.mul_one]
    simpa using roundDiv_exact (n := n) Nat.one_pos
  · decide

lemma roundDiv_mul_right {k : Nat} (m n : Nat) (hk : 0 < k) : roundDiv (m * k) (n * k) = roundDiv m n := by
  unfold roundDiv
  rw [Nat.mul_div_mul_right _ _ hk, Nat.mul_mod_mul_right]
  simp only [← Nat.mul_assoc, Nat.mul_lt_mul_right hk]

lemma parts_ofNat (hn : 0 < n) (hlt : n < 2 ^ 64) :
    ∃ m q, 0 < m ∧ parts (Float.ofNat n) = .finite false m q ∧ Whole m q (nearestWhole n) := by
  by_cases h53 : n < 2 ^ 53
  · obtain ⟨m, q, hc, h⟩ := exists_whole hn h53
    obtain ⟨x, hx⟩ := exists_parts hc
    exact ⟨m, q, h.pos hn, by rw [ofNat_whole hx h hn, hx], by rwa [nearestWhole_eq h53.le]⟩
  · have hshift : n <<< 53 = n * 2 ^ 53 := Nat.shiftLeft_eq n 53
    have hlog : (n <<< 53).log2 = n.log2 + 53 := by rw [hshift, log2_mul_two_pow hn.ne']
    have hlog' : n.log2 < 64 := (Nat.log2_lt hn.ne').2 hlt
    have hlog'' : 53 ≤ n.log2 := (Nat.le_log2 hn.ne').2 (by omega)
    obtain ⟨m, q, hm, hround, hc, k, hq, hk⟩ :=
      exists_rounded (M := n <<< 53) (e := -53) (by omega) (by decide) (by omega)
    obtain ⟨x, hx⟩ := exists_parts hc
    refine ⟨m, q, hm, ?_, ?_⟩
    · rw [ofNat_large h53, ofScientific_eq hn, hround, show UnpackedFloat.finite .positive m q hm = _ from
        (unpacked_pos hm false).symm, pack_unpacked hx, hx]
    · have hlog₁ : (n <<< 53).log2 - 52 = n.log2 - 52 + 53 := by omega
      have hq' : q.toNat = k + (n.log2 - 52) := by omega
      rw [hlog₁, hshift, Nat.pow_add, roundDiv_mul_right _ _ (Nat.two_pow_pos 53)] at hk
      rw [Whole, nearestWhole, ← hk, Int.toNat_of_nonpos (by omega), Nat.pow_zero, Nat.mul_one,
        Nat.mul_assoc, ← Nat.pow_add,
        hq']

lemma parts_ofInt64 (i : Int64) : (i.toInt = 0 ∧ Value.ofInt64 i = 0) ∨
    ∃ negative m q, 0 < m ∧ parts (Value.ofInt64 i) = .finite negative m q ∧ Whole m q (nearestWhole i.toInt.natAbs) ∧
      i.toInt.sign = if negative then -1 else 1 := by
  have hmin := i.le_toInt
  have hmax := i.toInt_lt
  unfold Value.ofInt64
  rcases hi : i.toInt with n | n
  · rcases Nat.eq_zero_or_pos n with rfl | hn
    · exact .inl ⟨rfl, by decide⟩
    · rw [hi] at hmax
      obtain ⟨m, q, hm, hp, hw⟩ := parts_ofNat hn (by simp at hmax; omega)
      exact .inr ⟨false, m, q, hm, hp, hw, Int.sign_eq_one_of_pos (Int.natCast_pos.2 hn)⟩
  · rw [hi] at hmin
    obtain ⟨m, q, hm, hp, hw⟩ := parts_ofNat (Nat.succ_pos n) (by simp at hmin; omega)
    exact .inr ⟨true, m, q, hm, parts_neg hp, hw, rfl⟩

end LandUse.Number
