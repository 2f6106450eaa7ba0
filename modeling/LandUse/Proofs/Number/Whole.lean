import LandUse.Number.Reader
import LandUse.Proofs.Number.Binary

namespace LandUse.Number

open Float.Model UnpackedFloat

/-- `m * 2 ^ q` is the whole number `n`. -/
def Whole (m : Nat) (q : Int) (n : Nat) : Prop := n * 2 ^ (-q).toNat = m * 2 ^ q.toNat

variable {n m : Nat} {q : Int} {negative : Bool}

lemma Whole.of_nonneg (h : Whole m q n) (hq : 0 ≤ q) : n = m * 2 ^ q.toNat := by
  simpa [Whole, Int.toNat_of_nonpos (Int.neg_nonpos_of_nonneg hq)] using h

lemma Whole.of_nonpos (h : Whole m q n) (hq : q ≤ 0) : n * 2 ^ (-q).toNat = m := by
  simpa [Whole, Int.toNat_of_nonpos hq] using h

lemma Whole.normal (h : Whole m q n) (hc : (Parts.finite negative m q).Canonical) (hn : 0 < n) : 2 ^ 52 ≤ m := by
  obtain ⟨hm, hq, -, h0 | h0⟩ := hc
  · have hbig : ∀ e, 53 ≤ e → n * 2 ^ e = m → False := by
      intro e he hm'
      have : 2 ^ 53 ≤ 2 ^ e := Nat.pow_le_pow_right (by decide) he
      have : 2 ^ e ≤ n * 2 ^ e := Nat.le_mul_of_pos_left _ hn
      omega
    exact (hbig _ (by omega) (h.of_nonpos (by omega))).elim
  · exact h0

lemma log2_mul_two_pow (hn : n ≠ 0) (k : Nat) : (n * 2 ^ k).log2 = n.log2 + k := by
  induction k with
  | zero => rw [Nat.pow_zero, Nat.mul_one, Nat.add_zero]
  | succ k ih =>
    have hk : n * 2 ^ k ≠ 0 := Nat.mul_ne_zero hn (Nat.two_pow_pos k).ne'
    rw [Nat.pow_succ, ← Nat.mul_assoc, Nat.mul_comm _ 2, Nat.log2_two_mul hk, ih, Nat.add_assoc]

lemma log2_normal (hm : m < 2 ^ 53) (hm' : 2 ^ 52 ≤ m) : m.log2 = 52 :=
  (Nat.log2_eq_iff (by omega)).2 ⟨hm', hm⟩

lemma Whole.log2 (h : Whole m q n) (hn : n ≠ 0) (hm : m < 2 ^ 53) (hm' : 2 ^ 52 ≤ m) : (n.log2 : Int) = 52 + q := by
  have hlog := congrArg Nat.log2 h
  rw [log2_mul_two_pow hn, log2_mul_two_pow (by omega), log2_normal hm hm'] at hlog
  omega

lemma roundDiv_exact {d : Nat} (hd : 0 < d) : roundDiv (n * d) d = n := by
  simp [roundDiv, Nat.mul_div_cancel n hd, hd]

lemma scaleFraction_eq (num den : Nat) (e : Int) :
    scaleFraction num den e = (num * 2 ^ e.toNat, den * 2 ^ (-e).toNat) := by
  unfold scaleFraction
  split_ifs with he
  · rw [Int.toNat_of_nonpos (Int.neg_nonpos_of_nonneg he), Nat.pow_zero, Nat.mul_one]
    rfl
  · rw [Int.toNat_of_nonpos (Int.le_of_lt (Int.not_le.1 he)), Nat.pow_zero, Nat.mul_one]
    rfl

lemma log2Fraction_one (hn : n ≠ 0) : log2Fraction n 1 = n.log2 := by
  have hle : 2 ^ n.log2 ≤ n := Nat.log2_self_le hn
  have h1 : Nat.log2 1 = 0 := rfl
  simp only [log2Fraction, scaleFraction_eq, h1, Int.neg_neg]
  rw [if_neg]
  · omega
  · rw [Int.toNat_of_nonpos (by omega), Nat.pow_zero, Nat.mul_one, Nat.one_mul,
      show ((n.log2 : Int) - (0 : Nat)).toNat =
      n.log2 by omega]
    omega

lemma nearestBits_whole (h : Whole m q n) (hc : (Parts.finite negative m q).Canonical) (hn : 0 < n) :
    nearestBits n 1 = m + (q + 1074).toNat * 2 ^ 52 := by
  have hm := h.normal hc hn
  have hlog := h.log2 hn.ne' hc.1 hm
  obtain ⟨hlt, hq, hq', -⟩ := hc
  have hmax : max (log2Fraction n 1 - 52) (-1074) = q := by
    rw [log2Fraction_one hn.ne']
    omega
  have hround : roundDiv (scaleFraction n 1 (-q)).1 (scaleFraction n 1 (-q)).2 = m := by
    rw [scaleFraction_eq, Int.neg_neg, h, Nat.one_mul]
    exact roundDiv_exact (Nat.two_pow_pos _)
  have hb : m + (q + 1074).toNat * 2 ^ 52 ≤ infiniteBits := by
    show _ ≤ 2047 * 2 ^ 52
    omega
  simp only [nearestBits, beq_iff_eq, if_neg hn.ne', hmax, hround]
  exact Nat.min_eq_left hb

lemma nearest_false (num den : Nat) : nearest false num den = Float.ofBits (UInt64.ofNat (nearestBits num den)) := by
  rw [nearest, if_neg Bool.false_ne_true, Nat.add_zero]

lemma parts_nearest (h : Whole m q n) (hc : (Parts.finite negative m q).Canonical) (hn : 0 < n) :
    parts (nearest false n 1) = .finite false m q := by
  have he := @parts_encoded false m q hc
  rw [Bool.toNat_false, Nat.zero_mul, Nat.add_zero] at he
  rw [nearest_false, nearestBits_whole h hc hn]
  exact he

lemma whole_truncate {x : Float} (hx : parts x = .finite negative m q) (hi : isIntegral x = true) :
    Whole m q (truncate x).natAbs := by
  have hi' : 0 ≤ q ∨ m % 2 ^ (-q).toNat = 0 := by simpa [isIntegral, hx, twoTo] using hi
  have hn : (truncate x).natAbs = if 0 ≤ q then m * 2 ^ q.toNat else m / 2 ^ (-q).toNat := by
    simp only [truncate, hx]
    cases negative
    · exact Int.natAbs_natCast _
    · exact (Int.natAbs_neg _).trans (Int.natAbs_natCast _)
  rw [Whole, hn]
  by_cases hq : 0 ≤ q
  · rw [if_pos hq, Int.toNat_of_nonpos (Int.neg_nonpos_of_nonneg hq), Nat.pow_zero, Nat.mul_one]
  · have hm : m % 2 ^ (-q).toNat = 0 := hi'.resolve_left hq
    rw [if_neg hq, Nat.div_mul_cancel (Nat.dvd_of_mod_eq_zero hm), Int.toNat_of_nonpos (by omega), Nat.pow_zero,
      Nat.mul_one]

lemma truncate_of_whole {x : Float} (hx : parts x = .finite false m q) (h : Whole m q n) :
    isIntegral x = true ∧ truncate x = n := by
  by_cases hq : 0 ≤ q
  · have hn := h.of_nonneg hq
    simp [isIntegral, truncate, hx, hq, hn, twoTo]
  · have hn := h.of_nonpos (by omega)
    have hdiv : m / 2 ^ (-q).toNat = n := by rw [← hn, Nat.mul_div_cancel _ (Nat.two_pow_pos _)]
    have hmod : m % 2 ^ (-q).toNat = 0 := by rw [← hn, Nat.mul_mod_left]
    simp only [isIntegral, truncate, hx, hq, twoTo, Nat.pow_eq, decide_false, Bool.false_or, if_false, hmod, hdiv,
      beq_self_eq_true, Bool.false_eq_true, and_self]

lemma isDigit_toDigits {c : Char} (h : c ∈ Nat.toDigits 10 n) : isDigit c = true := by
  have := Nat.isDigit_of_mem_toDigits (by decide) (by decide) h
  simpa [isDigit, Char.isDigit, Char.le_def] using this

lemma digitsValue_toDigits (n : Nat) : digitsValue 10 (Nat.toDigits 10 n) = n := by
  have hfold : ∀ (cs : List Char) (n : Nat), (∀ c ∈ cs, isDigit c = true) →
      cs.foldl (fun n c => 10 * n + hexValue c) n = Nat.ofDigitChars 10 cs n := by
    intro cs n h
    rw [Nat.ofDigitChars_eq_foldl]
    refine List.foldl_ext _ _ _ fun m c hc => ?_
    rw [hexValue, if_pos (h c hc)]
    rfl
  rw [digitsValue, hfold _ _ fun _ => isDigit_toDigits, Nat.ofDigitChars_ten_toDigits]

lemma Whole.length_digits {e k : Nat} (h : Whole m q n) (hm : m < 2 ^ 53) (hq : q.toNat ≤ e) (hk : 0 < k)
    (he : 53 + e ≤ 3 * k) : (Nat.toDigits 10 n).length ≤ k := by
  rw [Nat.length_toDigits_le_iff (by decide) hk]
  calc n ≤ n * 2 ^ (-q).toNat := Nat.le_mul_of_pos_right n (Nat.two_pow_pos _)
    _ = m * 2 ^ q.toNat := h
    _ < 2 ^ 53 * 2 ^ e := Nat.mul_lt_mul_of_lt_of_le hm (Nat.pow_le_pow_right (by decide) hq) (Nat.two_pow_pos _)
    _ = 2 ^ (53 + e) := (Nat.pow_add 2 53 e).symm
    _ ≤ 2 ^ (3 * k) := Nat.pow_le_pow_right (by decide) he
    _ = 8 ^ k := Nat.pow_mul 2 3 k
    _ ≤ 10 ^ k := Nat.pow_le_pow_left (by decide) k

lemma ofDecimal_whole (h : Whole m q n) (hc : (Parts.finite negative m q).Canonical) (hn : 0 < n) :
    ofDecimal false n 0 = nearest false n 1 := by
  have hlen : (Nat.toDigits 10 n).length ≤ 400 :=
    h.length_digits (e := 971) hc.1 (by have := hc.2.2.1; omega) (by decide) (by decide)
  have h1 : ¬ (n == 0 || decide ((0 : Int) + (Nat.toDigits 10 n).length < -400)) = true := by
    simp only [Bool.or_eq_true, beq_iff_eq, decide_eq_true_eq, not_or]
    omega
  have h10 : n * tenTo (0 : Int).toNat = n := Nat.mul_one n
  simp only [ofDecimal]
  rw [if_neg h1, if_neg (by omega), if_pos (Int.le_refl 0), h10]

end LandUse.Number
