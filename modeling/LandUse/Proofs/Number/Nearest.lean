import LandUse.Proofs.Number.Whole

/-! A fraction is rounded to a number if it lies between the midpoints to the neighbours of the number. -/

namespace LandUse.Number

variable {den num m : Nat} {q : Int}

lemma ratio_shifted {b : Nat} (hb : 0 < b) (num : Nat) (hd : 0 < den) (e : Int) : 0 < den * b ^ (-e).toNat ∧
    ((num * b ^ e.toNat : Nat) / (den * b ^ (-e).toNat : Nat) : ℚ) = num / den * b ^ e := by
  have hb' : (b : ℚ) ≠ 0 := by positivity
  have hd' : (den : ℚ) ≠ 0 := by positivity
  refine ⟨by positivity, ?_⟩
  obtain ⟨n, rfl | rfl⟩ := e.eq_nat_or_neg
  · simp only [Int.toNat_natCast, Int.toNat_neg_natCast, Nat.pow_zero, Nat.mul_one, zpow_natCast]
    push_cast
    field_simp
  · simp only [Int.toNat_natCast, Int.toNat_neg_natCast, Nat.pow_zero, Nat.mul_one, zpow_neg, zpow_natCast, Int.neg_neg]
    push_cast
    field_simp

lemma ratio_scaleFraction (num : Nat) (hd : 0 < den) (e : Int) : 0 < (scaleFraction num den e).2 ∧
    ((scaleFraction num den e).1 / (scaleFraction num den e).2 : ℚ) = num / den * 2 ^ e := by
  rw [scaleFraction_eq]
  exact ratio_shifted (by decide) num hd e

lemma log2_bounds {n : Nat} (hn : 0 < n) : (2 : ℚ) ^ (n.log2 : Int) ≤ n ∧ (n : ℚ) < 2 ^ (n.log2 + 1 : Int) := by
  have hlow : 2 ^ n.log2 ≤ n := Nat.log2_self_le hn.ne'
  have hhigh : n < 2 ^ (n.log2 + 1) := Nat.lt_log2_self
  constructor
  · exact_mod_cast hlow
  · exact_mod_cast hhigh

lemma log2Fraction_bounds (hn : 0 < num) (hd : 0 < den) :
    (2 : ℚ) ^ log2Fraction num den ≤ num / den ∧ (num / den : ℚ) < 2 ^ (log2Fraction num den + 1) := by
  obtain ⟨hn₁, hn₂⟩ := log2_bounds hn
  obtain ⟨hd₁, hd₂⟩ := log2_bounds hd
  have hden : (0 : ℚ) < den := by positivity
  unfold log2Fraction
  dsimp only
  set k : Int := (num.log2 : Int) - den.log2 with hk
  obtain ⟨hpos, hratio⟩ := ratio_scaleFraction num hd (-k)
  have hcast : ((scaleFraction num den (-k)).1 < (scaleFraction num den (-k)).2) ↔ (num / den : ℚ) < 2 ^ k := by
    have hpos' : (0 : ℚ) < (scaleFraction num den (-k)).2 := by exact_mod_cast hpos
    rw [← Nat.cast_lt (α := ℚ), ← div_lt_one hpos', hratio, zpow_neg, ← div_eq_mul_inv, div_lt_one (by positivity)]
  split_ifs with hlt
  · refine ⟨?_, by rw [sub_add_cancel]; exact hcast.1 hlt⟩
    have hsplit : (2 : ℚ) ^ (k - 1) * 2 ^ (den.log2 + 1 : Int) = 2 ^ (num.log2 : Int) := by
      rw [← zpow_add₀ two_ne_zero]
      congr 1
      omega
    rw [le_div_iff₀ hden]
    calc (2 : ℚ) ^ (k - 1) * den ≤ 2 ^ (k - 1) * 2 ^ (den.log2 + 1 : Int) := by gcongr
      _ = 2 ^ (num.log2 : Int) := hsplit
      _ ≤ num := hn₁
  · refine ⟨not_lt.1 fun h => hlt (hcast.2 h), ?_⟩
    have hsplit : (2 : ℚ) ^ (k + 1) * 2 ^ (den.log2 : Int) = 2 ^ (num.log2 + 1 : Int) := by
      rw [← zpow_add₀ two_ne_zero]
      congr 1
      omega
    rw [div_lt_iff₀ hden]
    calc (num : ℚ) < 2 ^ (num.log2 + 1 : Int) := hn₂
      _ = 2 ^ (k + 1) * 2 ^ (den.log2 : Int) := hsplit.symm
      _ ≤ 2 ^ (k + 1) * den := by gcongr

lemma le_log2Fraction (hn : 0 < num) (hd : 0 < den) {k : Int} (h : (2 : ℚ) ^ k ≤ num / den) :
    k ≤ log2Fraction num den := by
  have hlt := h.trans_lt (log2Fraction_bounds hn hd).2
  rw [zpow_lt_zpow_iff_right₀ one_lt_two] at hlt
  omega

lemma log2Fraction_lt (hn : 0 < num) (hd : 0 < den) {k : Int} (h : (num / den : ℚ) < 2 ^ k) :
    log2Fraction num den < k := by
  have hlt := (log2Fraction_bounds hn hd).1.trans_lt h
  rwa [zpow_lt_zpow_iff_right₀ one_lt_two] at hlt

lemma roundDiv_eq {n : Nat} (hd : 0 < den) (hlow : (n : ℚ) - 1 / 2 ≤ num / den) (hhigh : (num / den : ℚ) ≤ n + 1 / 2)
    (heven : n % 2 = 0 ∨ (n : ℚ) - 1 / 2 < num / den ∧ (num / den : ℚ) < n + 1 / 2) : roundDiv num den = n := by
  have hden : (0 : ℚ) < den := by positivity
  rw [le_div_iff₀ hden] at hlow
  rw [div_le_iff₀ hden] at hhigh
  rw [lt_div_iff₀ hden, div_lt_iff₀ hden] at heven
  have hlow' : 2 * (n * den) ≤ 2 * num + den := by
    have : (2 * (n * den) : ℚ) ≤ 2 * num + den := by linarith
    exact_mod_cast this
  have hhigh' : 2 * num ≤ 2 * (n * den) + den := by
    have : (2 * num : ℚ) ≤ 2 * (n * den) + den := by linarith
    exact_mod_cast this
  have heven' : n % 2 = 0 ∨ 2 * (n * den) < 2 * num + den ∧ 2 * num < 2 * (n * den) + den := by
    refine heven.imp_right fun ⟨h, h'⟩ => ⟨?_, ?_⟩
    · have : (2 * (n * den) : ℚ) < 2 * num + den := by linarith
      exact_mod_cast this
    · have : (2 * num : ℚ) < 2 * (n * den) + den := by linarith
      exact_mod_cast this
  have hdiv : den * (num / den) + num % den = num := Nat.div_add_mod num den
  have hmod : num % den < den := Nat.mod_lt num hd
  unfold roundDiv
  dsimp only
  set q := num / den
  set r := num % den
  -- The quotient is the integer itself or the one below.
  obtain rfl | rfl : n = q ∨ n = q + 1 := by
    have hle : q ≤ n := by
      by_contra h
      have : den * (n + 1) ≤ den * q := Nat.mul_le_mul_left den (by omega)
      nlinarith
    have hge : n ≤ q + 1 := by
      by_contra h
      have : den * (q + 2) ≤ den * n := Nat.mul_le_mul_left den (by omega)
      nlinarith
    omega
  all_goals
    have hcomm : ∀ a, a * den = den * a := fun a => Nat.mul_comm a den
    rw [hcomm] at hlow' hhigh' heven'
    simp only [beq_iff_eq]
  · split_ifs <;> omega
  · rw [Nat.mul_add] at hlow' hhigh' heven'
    split_ifs <;> omega

/-- The fractions that are rounded to `m * 2 ^ q`, in units of `2 ^ q`; below a power of two numbers stand closer. -/
structure Rounds (m : Nat) (q : Int) (v : ℚ) : Prop where
  low : (if m = 2 ^ 52 ∧ -1074 < q then (m : ℚ) - 1 / 4 else m - 1 / 2) ≤ v / 2 ^ q
  high : v / 2 ^ q ≤ m + 1 / 2
  even : m % 2 = 0 ∨ (m : ℚ) - 1 / 2 < v / 2 ^ q ∧ v / 2 ^ q < m + 1 / 2

lemma nearestBits_eq (hn : 0 < num) (hq : max (log2Fraction num den - 52) (-1074) = q)
    (hm : roundDiv (scaleFraction num den (-q)).1 (scaleFraction num den (-q)).2 = m)
    (hb : m + (q + 1074).toNat * 2 ^ 52 ≤ infiniteBits) : nearestBits num den = m + (q + 1074).toNat * 2 ^ 52 := by
  simp only [nearestBits, beq_iff_eq, if_neg hn.ne', hq, hm]
  exact Nat.min_eq_left hb

lemma ratio_unscaled (num : Nat) (hd : 0 < den) (e : Int) : 0 < (scaleFraction num den (-e)).2 ∧
    ((scaleFraction num den (-e)).1 / (scaleFraction num den (-e)).2 : ℚ) = num / den / 2 ^ e := by
  obtain ⟨hpos, hratio⟩ := ratio_scaleFraction num hd (-e)
  exact ⟨hpos, by rw [hratio, zpow_neg, div_eq_mul_inv _ ((2 : ℚ) ^ e)]⟩

lemma nearestBits_below_power (hn : 0 < num) (hd : 0 < den) (hq : -1074 < q) (hq' : q ≤ 971)
    (hlow : (2 : ℚ) ^ 52 - 1 / 4 ≤ num / den / 2 ^ q) (hhigh : (num / den / 2 ^ q : ℚ) < 2 ^ 52) :
    nearestBits num den = 2 ^ 52 + (q + 1074).toNat * 2 ^ 52 := by
  have hpow : (0 : ℚ) < 2 ^ q := by positivity
  have hbound : infiniteBits = 2047 * 2 ^ 52 := rfl
  have hhalf : (num / den / 2 ^ (q - 1) : ℚ) = 2 * (num / den / 2 ^ q) := by
    rw [zpow_sub_one₀ two_ne_zero]
    field_simp
  have hmax : max (log2Fraction num den - 52) (-1074) = q - 1 := by
    have hge : 51 + q ≤ log2Fraction num den := by
      apply le_log2Fraction hn hd
      rw [zpow_add₀ two_ne_zero, ← le_div_iff₀ hpow]
      norm_num at hlow ⊢
      linarith
    have hlt : log2Fraction num den < 52 + q := by
      apply log2Fraction_lt hn hd
      rw [zpow_add₀ two_ne_zero, ← div_lt_iff₀ hpow]
      exact_mod_cast hhigh
    omega
  have hround : roundDiv (scaleFraction num den (-(q - 1))).1 (scaleFraction num den (-(q - 1))).2 = 2 ^ 53 := by
    obtain ⟨hpos, hratio⟩ := ratio_unscaled num hd (q - 1)
    refine roundDiv_eq hpos ?_ ?_ (.inl (by decide))
    · rw [hratio, hhalf]
      push_cast
      linarith
    · rw [hratio, hhalf]
      push_cast
      linarith
  rw [nearestBits_eq hn hmax hround (by omega)]
  omega

theorem nearestBits_of_rounds {negative : Bool} (hn : 0 < num) (hd : 0 < den)
    (hc : (Parts.finite negative m q).Canonical) (h : Rounds m q (num / den)) :
    nearestBits num den = m + (q + 1074).toNat * 2 ^ 52 := by
  obtain ⟨hlow, hhigh, heven⟩ := h
  obtain ⟨hlt, hq, hq', hnormal⟩ := hc
  have hpow : (0 : ℚ) < 2 ^ q := by positivity
  by_cases hcase : q = -1074 ∨ (2 : ℚ) ^ 52 ≤ num / den / 2 ^ q
  · have hbound : infiniteBits = 2047 * 2 ^ 52 := rfl
    have hm53 : (m : ℚ) + 1 ≤ 2 ^ 53 := by exact_mod_cast hlt
    have hlog : log2Fraction num den < 53 + q := by
      apply log2Fraction_lt hn hd
      rw [zpow_add₀ two_ne_zero, ← div_lt_iff₀ hpow]
      calc _ ≤ (m : ℚ) + 1 / 2 := hhigh
        _ < 2 ^ 53 := by linarith
        _ = 2 ^ (53 : Int) := by norm_num
    have hmax : max (log2Fraction num den - 52) (-1074) = q := by
      rcases hcase with rfl | hcase
      · omega
      · have hge : 52 + q ≤ log2Fraction num den := by
          apply le_log2Fraction hn hd
          rw [zpow_add₀ two_ne_zero, ← le_div_iff₀ hpow]
          exact_mod_cast hcase
        omega
    obtain ⟨hpos, hratio⟩ := ratio_unscaled num hd q
    refine nearestBits_eq hn hmax (roundDiv_eq hpos ?_ ?_ ?_) (by omega)
    · rw [hratio]
      refine le_trans ?_ hlow
      split_ifs <;> linarith
    · rw [hratio]
      exact hhigh
    · rw [hratio]
      exact heven
  · rw [not_or, not_le] at hcase
    have hm52 : 2 ^ 52 ≤ m := hnormal.resolve_left hcase.1
    have hm : m = 2 ^ 52 := by
      by_contra hne
      rw [if_neg fun h => hne h.1] at hlow
      have : (2 : ℚ) ^ 52 + 1 ≤ m := by exact_mod_cast Nat.lt_of_le_of_ne hm52 (Ne.symm hne)
      linarith
    subst hm
    rw [if_pos ⟨rfl, by omega⟩] at hlow
    push_cast at hlow
    exact nearestBits_below_power hn hd (by omega) (by omega) hlow hcase.2

lemma nearest_of_rounds {x : Float} (hx : parts x = .finite false m q) (hn : 0 < num) (hd : 0 < den)
    (h : Rounds m q (num / den)) : nearest false num den = x := by
  have hc := canonical_parts x
  rw [hx] at hc
  apply eq_of_parts
  rw [nearest_false, nearestBits_of_rounds hn hd hc h, hx]
  simpa using parts_encoded hc

end LandUse.Number
