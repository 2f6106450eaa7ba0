import LandUse.Number.Digits
import LandUse.Proofs.Number.Nearest

namespace LandUse.Number

lemma shiftFraction_eq (num den : Nat) (k : Int) :
    shiftFraction num den k = (num * 10 ^ k.toNat, den * 10 ^ (-k).toNat) := by
  unfold shiftFraction
  split_ifs with hk
  · rw [Int.toNat_of_nonpos (Int.neg_nonpos_of_nonneg hk), Nat.pow_zero, Nat.mul_one]
    rfl
  · rw [Int.toNat_of_nonpos (Int.le_of_lt (Int.not_le.1 hk)), Nat.pow_zero, Nat.mul_one]
    rfl

variable {den n m : Nat} {q x : Int}

lemma ratio_shiftFraction (num : Nat) (hd : 0 < den) (k : Int) : 0 < (shiftFraction num den k).2 ∧
    ((shiftFraction num den k).1 / (shiftFraction num den k).2 : ℚ) = num / den * 10 ^ k := by
  rw [shiftFraction_eq]
  exact ratio_shifted (by decide) num hd k

namespace Interval

structure Around (v : Interval) (m : Nat) (q : Int) : Prop where
  den_pos : 0 < v.den
  value : (v.value / v.den : ℚ) = m * 2 ^ q
  lower : (v.lower / v.den : ℚ) = (if m = 2 ^ 52 ∧ -1074 < q then (m : ℚ) - 1 / 4 else m - 1 / 2) * 2 ^ q
  upper : (v.upper / v.den : ℚ) = (m + 1 / 2) * 2 ^ q
  closed : v.closed = (m % 2 == 0)

lemma around_ofParts {m : Nat} (hm : 0 < m) (q : Int) : (ofParts m q).Around m q := by
  have h52 : (m == twoTo 52 && decide (-1074 < q)) = decide (m = 2 ^ 52 ∧ -1074 < q) := by
    rw [Bool.eq_iff_iff]
    simp [twoTo]
  obtain ⟨hpos, hunit⟩ := ratio_scaleFraction 1 (show 0 < 4 by decide) q
  have hden : (scaleFraction (4 * m) 4 q).2 = (scaleFraction 1 4 q).2 := by simp only [scaleFraction_eq]
  have hvalue : (scaleFraction (4 * m) 4 q).1 = 4 * m * (scaleFraction 1 4 q).1 := by
    simp only [scaleFraction_eq, Nat.one_mul]
  set unit := (scaleFraction 1 4 q).1 with hu
  set den := (scaleFraction 1 4 q).2 with hd
  have hden' : (den : ℚ) ≠ 0 := by positivity
  have hscale : (unit : ℚ) = 1 / 4 * 2 ^ q * den := by
    rw [← div_eq_iff hden']
    exact_mod_cast hunit
  have hlower : (if m = 2 ^ 52 ∧ -1074 < q then 1 else 2) * unit ≤ 4 * m * unit := by
    apply Nat.mul_le_mul_right
    split_ifs <;> omega
  unfold ofParts around
  dsimp only
  rw [hvalue, hden, h52]
  refine ⟨hpos, ?_, ?_, ?_, rfl⟩
  · push_cast
    rw [hscale]
    field_simp
  · simp only [decide_eq_true_eq]
    rw [Nat.cast_sub hlower]
    push_cast
    rw [hscale]
    split_ifs
    · field_simp
    · field_simp
      ring
  · push_cast
    rw [hscale]
    field_simp
    ring

lemma contains_iff {v : Interval} {m : Nat} {q : Int} (h : v.Around m q) (n : Nat) (k : Int) :
    v.contains n k = true ↔ Rounds m q (n * 10 ^ (-k)) := by
  obtain ⟨hpos, -, hlower, hupper, hclosed⟩ := h
  obtain ⟨hd, hratio⟩ := ratio_shiftFraction n one_pos (-k)
  rw [Nat.cast_one, div_one] at hratio
  have hpow : (0 : ℚ) < 2 ^ q := by positivity
  have hden : (0 : ℚ) < v.den := by exact_mod_cast hpos
  have hd' : (0 : ℚ) < (shiftFraction n 1 (-k)).2 := by exact_mod_cast hd
  unfold contains
  dsimp only
  rw [hclosed]
  rw [← hratio]
  set a := (shiftFraction n 1 (-k)).1
  set d := (shiftFraction n 1 (-k)).2
  have hle : v.lower * d ≤ a * v.den ↔ (v.lower / v.den : ℚ) ≤ a / d := by
    rw [div_le_div_iff₀ hden hd']
    exact_mod_cast Iff.rfl
  have hle' : a * v.den ≤ v.upper * d ↔ (a / d : ℚ) ≤ v.upper / v.den := by
    rw [div_le_div_iff₀ hd' hden]
    exact_mod_cast Iff.rfl
  have hlt : v.lower * d < a * v.den ↔ (v.lower / v.den : ℚ) < a / d := by
    rw [div_lt_div_iff₀ hden hd']
    exact_mod_cast Iff.rfl
  have hlt' : a * v.den < v.upper * d ↔ (a / d : ℚ) < v.upper / v.den := by
    rw [div_lt_div_iff₀ hd' hden]
    exact_mod_cast Iff.rfl
  rw [hlower, ← le_div_iff₀ hpow] at hle
  rw [hupper, ← div_le_iff₀ hpow] at hle'
  rw [hlower, ← lt_div_iff₀ hpow] at hlt
  rw [hupper, ← div_lt_iff₀ hpow] at hlt'
  by_cases hm : m % 2 = 0
  · simp only [hm, beq_self_eq_true, if_true, Bool.and_eq_true, decide_eq_true_eq, hle, hle']
    exact ⟨fun ⟨h, h'⟩ => ⟨h, h', .inl hm⟩, fun h => ⟨h.low, h.high⟩⟩
  · have hodd : ¬ (m = 2 ^ 52 ∧ -1074 < q) := fun h => hm (by rw [h.1]; rfl)
    rw [if_neg hodd] at hlt
    simp only [beq_iff_eq, hm, if_false, Bool.and_eq_true, decide_eq_true_eq, hlt, hlt']
    refine ⟨fun ⟨h, h'⟩ => ⟨?_, h'.le, .inr ⟨h, h'⟩⟩, fun h => h.even.resolve_left hm⟩
    rw [if_neg hodd]
    exact h.le

end Interval

lemma zpow_le_zpow_of_pow {c : ℚ} (hn : n ≠ 0) {g : Int} (h : (10 : ℚ) ^ (n * g) ≤ (c ^ n)) (hc : 0 ≤ c) :
    (10 : ℚ) ^ g ≤ c := by
  rw [mul_comm, zpow_mul, zpow_natCast] at h
  exact (pow_le_pow_iff_left₀ (by positivity) hc hn).1 h

lemma ten_zpow_le_two_zpow {g k : Int} (hk : k.natAbs ≤ 4096) (h : 4096 * (g + 1) ≤ 1233 * k) :
    (10 : ℚ) ^ g ≤ 2 ^ k := by
  obtain ⟨n, rfl | rfl⟩ := k.eq_nat_or_neg
  · refine zpow_le_zpow_of_pow (n := 196) (by decide) ?_ (by positivity)
    calc (10 : ℚ) ^ ((196 : Nat) * g) ≤ 10 ^ ((59 * n : Nat) : Int) := zpow_le_zpow_right₀ (by norm_num) (by omega)
      _ = (10 ^ 59) ^ n := by rw [zpow_natCast, pow_mul]
      _ ≤ (2 ^ 196) ^ n := by gcongr; norm_num
      _ = (2 ^ (n : Int)) ^ 196 := by rw [zpow_natCast, ← pow_mul, ← pow_mul, mul_comm]
  · refine zpow_le_zpow_of_pow (n := 93) (by decide) ?_ (by positivity)
    calc (10 : ℚ) ^ ((93 : Nat) * g) ≤ 10 ^ (-((28 * n : Nat) : Int)) := zpow_le_zpow_right₀ (by norm_num) (by omega)
      _ = ((10 ^ 28) ^ n)⁻¹ := by rw [zpow_neg, zpow_natCast, pow_mul]
      _ ≤ ((2 ^ 93) ^ n)⁻¹ := by gcongr; norm_num
      _ = (2 ^ (-(n : Int))) ^ 93 := by rw [zpow_neg, zpow_natCast, inv_pow, ← pow_mul, ← pow_mul, mul_comm]

lemma log10Fraction_spec {num : Nat} (hn : 0 < num) (hd : 0 < den) (hk : (log2Fraction num den).natAbs ≤ 4096) :
    (10 : ℚ) ^ log10Fraction num den ≤ num / den ∧ -1300 ≤ log10Fraction num den := by
  have hfits : ∀ x : Int, (shiftFraction num den (-x)).2 ≤ (shiftFraction num den (-x)).1 →
    (10 : ℚ) ^ x ≤ num / den := by
    intro x hx
    obtain ⟨hpos, hratio⟩ := ratio_shiftFraction num hd (-x)
    have hone : (1 : ℚ) ≤ num / den * 10 ^ (-x) := by
      rw [← hratio, one_le_div (by exact_mod_cast hpos)]
      exact_mod_cast hx
    rwa [zpow_neg, ← div_eq_mul_inv, one_le_div (by positivity)] at hone
  have hfloor : 4096 * Int.fdiv (log2Fraction num den * 1233) 4096 ≤ log2Fraction num den * 1233 ∧
      log2Fraction num den * 1233 < 4096 * Int.fdiv (log2Fraction num den * 1233) 4096 + 4096 := by
    rw [Int.fdiv_eq_ediv_of_nonneg _ (by decide)]
    omega
  unfold log10Fraction
  dsimp only
  simp only [decide_eq_true_eq]
  set k := log2Fraction num den with hk'
  set g := Int.fdiv (k * 1233) 4096 - 1 with hg
  split_ifs with h2 h1
  · exact ⟨hfits _ h2, by omega⟩
  · exact ⟨hfits _ h1, by omega⟩
  · refine ⟨(ten_zpow_le_two_zpow hk (by omega)).trans (log2Fraction_bounds hn hd).1, by omega⟩

lemma roundDiv_bounds (num : Nat) (hd : 0 < den) :
    (num / den : ℚ) - 1 / 2 ≤ roundDiv num den ∧ (roundDiv num den : ℚ) ≤ num / den + 1 / 2 := by
  have hden : (0 : ℚ) < den := by positivity
  have hnat : 2 * num ≤ (2 * roundDiv num den + 1) * den ∧ 2 * roundDiv num den * den ≤ 2 * num + den := by
    have hdiv : den * (num / den) + num % den = num := Nat.div_add_mod num den
    have hmod : num % den < den := Nat.mod_lt num hd
    unfold roundDiv
    dsimp only
    set q := num / den
    set r := num % den
    split_ifs <;> constructor <;> nlinarith
  constructor
  · rw [sub_le_iff_le_add, div_le_iff₀ hden]
    have : (2 * num : ℚ) ≤ (2 * roundDiv num den + 1) * den := by exact_mod_cast hnat.1
    linarith
  · rw [← sub_le_iff_le_add, le_div_iff₀ hden]
    have : (2 * roundDiv num den * den : ℚ) ≤ 2 * num + den := by exact_mod_cast hnat.2
    linarith

/-- A decimal within half a unit of the seventeenth digit is rounded to the number. -/
lemma rounds_seventeen (hm : m < 2 ^ 53) (hx : (10 : ℚ) ^ x ≤ m * 2 ^ q) {v : ℚ}
    (hv : |v - m * 2 ^ q| ≤ 10 ^ (x - 16) / 2) : Rounds m q v := by
  have hpow : (0 : ℚ) < 2 ^ q := by positivity
  have hm' : (m : ℚ) + 1 ≤ 2 ^ 53 := by exact_mod_cast hm
  have hdist : |v / 2 ^ q - m| ≤ m / 10 ^ 16 / 2 := by
    have hsub : v / 2 ^ q - m = (v - m * 2 ^ q) / 2 ^ q := by field_simp
    rw [hsub, abs_div, abs_of_pos hpow, div_le_iff₀ hpow]
    calc |v - m * 2 ^ q| ≤ 10 ^ (x - 16) / 2 := hv
      _ = 10 ^ x / 10 ^ 16 / 2 := by rw [zpow_sub₀ (by norm_num)]; norm_cast
      _ ≤ m * 2 ^ q / 10 ^ 16 / 2 := by gcongr
      _ = m / 10 ^ 16 / 2 * 2 ^ q := by ring
  obtain ⟨hlow, hhigh⟩ := abs_le.1 hdist
  have hhalf : (m : ℚ) / 10 ^ 16 / 2 < 1 / 2 := by
    rw [div_div, div_lt_div_iff₀ (by norm_num) (by norm_num)]
    norm_num at hm' ⊢
    linarith
  refine ⟨?_, by linarith, .inr ⟨by linarith, by linarith⟩⟩
  split_ifs with h
  · have hquarter : (m : ℚ) / 10 ^ 16 / 2 < 1 / 4 := by
      rw [h.1]
      norm_num
    linarith
  · linarith

lemma Interval.onGrid_eq_some {v : Interval} {count : Nat} {ds : Digits} (h : v.onGrid x count = some ds) :
    ∃ n, ds = ofScaled n (count - 1 - x) ∧ v.contains n (count - 1 - x) = true := by
  have htwo : ∀ near far : Nat, (if v.contains near (count - 1 - x) then some (ofScaled near (count - 1 - x))
      else if v.contains far (count - 1 - x) then some (ofScaled far (count - 1 - x)) else none) = some ds →
      ∃ n, ds = ofScaled n (count - 1 - x) ∧ v.contains n (count - 1 - x) = true := by
    intro near far h
    split_ifs at h with hnear hfar
    · exact ⟨near, (Option.some.inj h).symm, hnear⟩
    · exact ⟨far, (Option.some.inj h).symm, hfar⟩
  exact htwo _ _ h

lemma Interval.onGrid_seventeen {v : Interval} (hv : v.Around m q) (hm : m < 2 ^ 53) (hx : (10 : ℚ) ^ x ≤ m * 2 ^ q) :
    ∃ ds, v.onGrid x 17 = some ds := by
  have hk : (((17 : Nat) : Int) - 1 - x) = 16 - x := by omega
  obtain ⟨hpos, hratio⟩ := ratio_shiftFraction v.value hv.den_pos (16 - x)
  obtain ⟨hlow, hhigh⟩ := roundDiv_bounds (shiftFraction v.value v.den (16 - x)).1 hpos
  rw [hratio, hv.value] at hlow hhigh
  have hunit : (10 : ℚ) ^ (-(16 - x)) * 10 ^ (16 - x) = 1 := by
    rw [← zpow_add₀ (by norm_num), neg_add_cancel, zpow_zero]
  have hten : (0 : ℚ) < 10 ^ (-(16 - x)) := by positivity
  have hnear : Rounds m q (roundDiv (shiftFraction v.value v.den (16 - x)).1 (shiftFraction v.value v.den (16 - x)).2 *
      10 ^ (-(16 - x))) := by
    apply rounds_seventeen hm hx
    rw [show x - 16 = -(16 - x) by omega, abs_le]
    have hvalue : (m * 2 ^ q : ℚ) = m * 2 ^ q * 10 ^ (16 - x) * 10 ^ (-(16 - x)) := by
      rw [mul_assoc _ ((10 : ℚ) ^ (16 - x)), mul_comm ((10 : ℚ) ^ (16 - x)), hunit, mul_one]
    constructor
    · nlinarith
    · nlinarith
  unfold onGrid
  dsimp only
  rw [hk, if_pos ((contains_iff hv _ _).2 hnear)]
  exact ⟨_, rfl⟩

theorem shortest_spec {negative : Bool} (hc : (Parts.finite negative m q).Canonical) (hm : 0 < m) :
    ∃ n k, shortest m q = ofScaled n k ∧ Rounds m q (n * 10 ^ (-k)) ∧ k ≤ 1400 := by
  obtain ⟨hlt, hq, hq', -⟩ := hc
  have hv := Interval.around_ofParts hm q
  have hval : 0 < (Interval.ofParts m q).value := by
    have hpos : (0 : ℚ) < (Interval.ofParts m q).value / (Interval.ofParts m q).den := by
      rw [hv.value]
      positivity
    rw [div_pos_iff_of_pos_right (by exact_mod_cast hv.den_pos)] at hpos
    exact_mod_cast hpos
  have hlog : (log2Fraction (Interval.ofParts m q).value (Interval.ofParts m q).den).natAbs ≤ 4096 := by
    have hpow : (0 : ℚ) < 2 ^ q := by positivity
    have hlow := le_log2Fraction (k := q) hval hv.den_pos (by
      rw [hv.value]
      exact le_mul_of_one_le_left hpow.le (by exact_mod_cast hm))
    have hhigh := log2Fraction_lt (k := 53 + q) hval hv.den_pos (by
      rw [hv.value, zpow_add₀ two_ne_zero]
      gcongr
      exact_mod_cast hlt)
    omega
  obtain ⟨hx, hx'⟩ := log10Fraction_spec hval hv.den_pos hlog
  rw [hv.value] at hx
  obtain ⟨ds, hds⟩ := Interval.onGrid_seventeen hv hlt hx
  unfold shortest
  dsimp only
  split
  · rename_i ds' hfind
    obtain ⟨i, hi, hgrid⟩ := List.exists_of_findSome?_eq_some hfind
    obtain ⟨n, rfl, hn⟩ := Interval.onGrid_eq_some hgrid
    refine ⟨n, _, rfl, (Interval.contains_iff hv _ _).1 hn, ?_⟩
    have := List.mem_range.1 hi
    omega
  · rename_i hfind
    have hnone := List.findSome?_eq_none_iff.1 hfind 16 (by decide)
    rw [hds] at hnone
    cases hnone

lemma Rounds.pos {v : ℚ} (h : Rounds m q v) (hm : 0 < m) : 1 / 2 * 2 ^ q ≤ v := by
  have hpow : (0 : ℚ) < 2 ^ q := by positivity
  have hm' : (1 : ℚ) ≤ m := by exact_mod_cast hm
  rw [← le_div_iff₀ hpow]
  refine le_trans ?_ h.low
  split_ifs <;> linarith

lemma toDigits_bounds (hn : 0 < n) : (10 : ℚ) ^ ((Nat.toDigits 10 n).length - 1 : Int) ≤ n ∧
    (n : ℚ) < 10 ^ ((Nat.toDigits 10 n).length : Int) := by
  have hpos : 0 < (Nat.toDigits 10 n).length := Nat.length_toDigits_pos
  constructor
  · obtain ⟨len, hlen⟩ := Nat.exists_eq_add_one.2 hpos
    have hle : 10 ^ len ≤ n := by
      by_contra hlt
      obtain rfl | hlen' := Nat.eq_zero_or_pos len
      · omega
      · have := (Nat.length_toDigits_le_iff (by decide) hlen').2 (not_le.1 hlt)
        omega
    rw [hlen]
    push_cast
    rw [add_sub_cancel_right]
    exact_mod_cast hle
  · have hlt := (Nat.length_toDigits_le_iff (b := 10) (n := n) (by decide) hpos).1 le_rfl
    exact_mod_cast hlt

lemma two_zpow_le_ten_zpow (k : Nat) : (2 : ℚ) ^ (3 * k : Int) ≤ 10 ^ (k : Int) := by
  rw [zpow_mul, zpow_natCast, zpow_natCast]
  gcongr
  norm_num

lemma Rounds.top_bounds {e : Int} {negative : Bool} (h : Rounds m q (n * 10 ^ e))
    (hc : (Parts.finite negative m q).Canonical) (hm : 0 < m) :
    0 < n ∧ -400 ≤ e + (Nat.toDigits 10 n).length ∧ e + (Nat.toDigits 10 n).length ≤ 400 := by
  obtain ⟨hlt, hq, hq', -⟩ := hc
  have hlow := h.pos hm
  have hpow : (0 : ℚ) < 2 ^ q := by positivity
  have hn : 0 < n := by
    by_contra hn
    rw [Nat.eq_zero_of_not_pos hn, Nat.cast_zero, zero_mul] at hlow
    linarith
  obtain ⟨hfew, hmany⟩ := toDigits_bounds hn
  set len := (Nat.toDigits 10 n).length
  have hten : (0 : ℚ) < 10 ^ e := by positivity
  have htop : (10 : ℚ) ^ (e + len - 1) < 10 ^ (342 : Int) := by
    calc (10 : ℚ) ^ (e + len - 1) = 10 ^ (len - 1 : Int) * 10 ^ e := by
          rw [← zpow_add₀ (by norm_num)]
          congr 1
          omega
      _ ≤ n * 10 ^ e := by gcongr
      _ ≤ (m + 1 / 2) * 2 ^ q := (div_le_iff₀ hpow).1 h.high
      _ < 2 ^ (53 : Int) * 2 ^ q := by
          have hm' : (m : ℚ) + 1 ≤ 2 ^ (53 : Int) := by exact_mod_cast hlt
          gcongr
          linarith
      _ = 2 ^ (53 + q) := (zpow_add₀ two_ne_zero 53 q).symm
      _ ≤ 2 ^ (3 * (342 : Nat) : Int) := zpow_le_zpow_right₀ one_le_two (by omega)
      _ ≤ 10 ^ (342 : Int) := two_zpow_le_ten_zpow 342
  have hbottom : (10 : ℚ) ^ (-360 : Int) < 10 ^ (e + len) := by
    calc (10 : ℚ) ^ (-360 : Int) ≤ (2 ^ (3 * (360 : Nat) : Int))⁻¹ := by
          rw [zpow_neg]
          gcongr
          exact two_zpow_le_ten_zpow 360
      _ = 2 ^ (-1080 : Int) := (zpow_neg 2 1080).symm
      _ ≤ 2 ^ (-1 + q) := zpow_le_zpow_right₀ one_le_two (by omega)
      _ = 1 / 2 * 2 ^ q := by rw [zpow_add₀ two_ne_zero, zpow_neg_one, one_div]
      _ ≤ n * 10 ^ e := hlow
      _ < 10 ^ (len : Int) * 10 ^ e := by gcongr
      _ = 10 ^ (e + len) := by rw [← zpow_add₀ (by norm_num), add_comm]
  rw [zpow_lt_zpow_iff_right₀ (by norm_num)] at htop hbottom
  exact ⟨hn, by omega, by omega⟩

theorem ofDecimal_of_rounds {x : Float} (hx : parts x = .finite false m q) (hm : 0 < m) {e : Int}
    (h : Rounds m q (n * 10 ^ e)) : ofDecimal false n e = x := by
  have hc := canonical_parts x
  rw [hx] at hc
  obtain ⟨hn, hbottom, htop⟩ := h.top_bounds hc hm
  obtain ⟨hpos, hratio⟩ := ratio_shiftFraction n one_pos e
  rw [Nat.cast_one, div_one] at hratio
  have hshift : ofDecimal false n e = nearest false (shiftFraction n 1 e).1 (shiftFraction n 1 e).2 := by
    unfold ofDecimal shiftFraction
    dsimp only
    rw [if_neg (by simpa [hn.ne'] using hbottom), if_neg (by omega)]
    split_ifs
    · rfl
    · rw [Nat.one_mul]
  rw [hshift]
  apply nearest_of_rounds hx _ hpos
  · rw [hratio]
    exact h
  · rw [shiftFraction_eq]
    positivity

end LandUse.Number
