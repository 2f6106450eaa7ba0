import LandUse.Proofs.Grammar.Lexemes
import LandUse.Proofs.Number.Numeral
import LandUse.Proofs.Number.Shortest
import Mathlib.Data.Nat.Digits.Defs

namespace LandUse.Number

lemma isDigit_hexValue : ∀ d < 10, isDigit (Char.ofNat (d + 48)) = true ∧ hexValue (Char.ofNat (d + 48)) = d :=
  by decide

lemma toList_digitText (ds : List Nat) : (digitText ds).toList = ds.map fun d => Char.ofNat (d + 48) := by
  rw [digitText, String.toList_ofList]

lemma isDigit_digitText {ds : List Nat} (h : ∀ d ∈ ds, d < 10) : ∀ c ∈ (digitText ds).toList, isDigit c = true := by
  intro c hc
  rw [toList_digitText] at hc
  obtain ⟨d, hd, rfl⟩ := List.mem_map.1 hc
  exact (isDigit_hexValue d (h d hd)).1

lemma digitText_append (xs ys : List Nat) : digitText (xs ++ ys) = digitText xs ++ digitText ys := by
  rw [digitText, List.map_append, String.ofList_append, digitText, digitText]

lemma zeros_eq_digitText (n : Nat) : zeros n = digitText (List.replicate n 0) := by
  rw [zeros, digitText, List.map_replicate]

def ofDigitList (ds : List Nat) : Nat := Nat.ofDigits 10 ds.reverse

lemma ofDigitList_append (xs ys : List Nat) :
    ofDigitList (xs ++ ys) = ofDigitList xs * 10 ^ ys.length + ofDigitList ys := by
  rw [ofDigitList, List.reverse_append, Nat.ofDigits_append, List.length_reverse, Nat.add_comm, Nat.mul_comm]
  rfl

lemma ofDigitList_replicate (n : Nat) : ofDigitList (List.replicate n 0) = 0 := by
  induction n with
  | zero => rfl
  | succ n ih =>
    rw [List.replicate_succ', ofDigitList_append, ih]
    rfl

lemma digitsValue_digitText {ds : List Nat} (h : ∀ d ∈ ds, d < 10) :
    digitsValue 10 (digitText ds).toList = ofDigitList ds := by
  have hfold : ∀ (ds : List Nat) (n : Nat), (∀ d ∈ ds, d < 10) →
      (ds.map fun d => Char.ofNat (d + 48)).foldl (fun n c => 10 * n + hexValue c) n = n * 10 ^ ds.length +
      ofDigitList ds := by
    intro ds
    induction ds with
    | nil => simp [ofDigitList]
    | cons d ds ih =>
      intro n h
      obtain ⟨hd, hds⟩ := List.forall_mem_cons.1 h
      rw [List.map_cons, List.foldl_cons, ih _ hds, (isDigit_hexValue d hd).2, ← List.singleton_append,
        ofDigitList_append,
        List.length_append]
      simp [ofDigitList, pow_succ, Nat.add_comm 1]
      ring
  rw [toList_digitText, digitsValue, hfold ds 0 h, Nat.zero_mul, Nat.zero_add]

lemma digitText_digitList (n : Nat) : digitText (digitList n) = toString n := by
  rw [Nat.toString_eq_ofList_toDigits, digitText, digitList, List.map_map]
  congr 1
  refine (List.map_congr_left fun c hc => ?_).trans (List.map_id _)
  have hdigit := Nat.isDigit_of_mem_toDigits (by decide) (by decide) hc
  rw [Char.isDigit, Bool.and_eq_true, decide_eq_true_iff, decide_eq_true_iff] at hdigit
  have hge : 48 ≤ c.toNat := hdigit.1
  rw [Function.comp_apply, Nat.sub_add_cancel hge, Char.ofNat_toNat, id]

lemma ofDigitList_digitList (n : Nat) : ofDigitList (digitList n) = n := by
  rw [← digitsValue_digitText fun _ => digit_lt, digitText_digitList, Nat.toString_eq_ofList_toDigits,
    String.toList_ofList,
    digitsValue_toDigits]

def exponentDigits (x : Int) : List Nat := (if x.natAbs < 10 then [0] else []) ++ digitList x.natAbs

lemma digit_lt_exponent {x : Int} {d : Nat} (h : d ∈ exponentDigits x) : d < 10 := by
  rw [exponentDigits, List.mem_append] at h
  rcases h with h | h
  · split_ifs at h
    · rw [List.mem_singleton.1 h]
      decide
    · cases h
  · exact digit_lt h

lemma exponentText_eq (x : Int) : exponentText x = (if x < 0 then "e-" else "e+") ++ digitText (exponentDigits x) := by
  rw [exponentText, exponentDigits, digitText_append, digitText_digitList, String.append_assoc]
  congr 2
  split_ifs <;> rfl

lemma ofDigitList_exponentDigits (x : Int) : ofDigitList (exponentDigits x) = x.natAbs := by
  rw [exponentDigits, ofDigitList_append, ofDigitList_digitList]
  split_ifs
  · exact (Nat.zero_mul _).symm ▸ Nat.zero_add _
  · exact (Nat.zero_mul _).symm ▸ Nat.zero_add _

lemma digitList_ne_nil (n : Nat) : digitList n ≠ [] := by
  rw [digitList, Ne, List.map_eq_nil_iff]
  exact Nat.toDigits_ne_nil

lemma readInt_exponent (x : Int) :
    readInt (String.ofList ((if x < 0 then '-' else '+') :: (digitText (exponentDigits x)).toList)) = some x := by
  have hall : (digitText (exponentDigits x)).toList.all isDigit = true :=
    List.all_eq_true.2 (isDigit_digitText fun _ => digit_lt_exponent)
  have hne : (digitText (exponentDigits x)).toList.isEmpty = false := by
    rw [toList_digitText, List.isEmpty_map, List.isEmpty_eq_false_iff, exponentDigits]
    exact List.append_ne_nil_of_right_ne_nil _ (digitList_ne_nil _)
  have hvalue : digitsValue 10 (digitText (exponentDigits x)).toList = ofDigitList (exponentDigits x) :=
    digitsValue_digitText fun _ => digit_lt_exponent
  rw [ofDigitList_exponentDigits] at hvalue
  rw [readInt, String.toList_ofList]
  split_ifs with hx
  · simp only [splitSign, hall, hne, hvalue, Bool.not_true, Bool.or_self, Bool.false_eq_true, if_false, if_true]
    congr 1
    omega
  · simp only [splitSign, hall, hne, hvalue, Bool.not_true, Bool.or_self, Bool.false_eq_true, if_false]
    congr 1
    omega

end LandUse.Number

namespace LandUse.Token

open Text Alphabet
open Number (digitText ofDigitList exponentDigits)

def decimalText (whole frac : List Nat) (exponent : Option Int) : String :=
  digitText whole ++ ((if frac.isEmpty then "" else "." ++ digitText frac) ++ exponent.elim "" Number.exponentText)

lemma span_digits {cs r : List Char} (h : ∀ c ∈ cs, Number.isDigit c = true)
    (hr : ∀ c ∈ r.head?, Number.isDigit c = false) :
    (cs ++ r).takeWhile Number.isDigit = cs ∧ (cs ++ r).dropWhile Number.isDigit = r := by
  rw [List.takeWhile_append_of_pos h, List.dropWhile_append_of_pos h]
  cases r with
  | nil => simp
  | cons c r =>
    have hc := hr c rfl
    simp [hc]

lemma numeralParts_append {whole frac : List Char} (hw : ∀ c ∈ whole, Number.isDigit c = true)
    (hf : ∀ c ∈ frac, Number.isDigit c = true) (tail : List Char) (ht : ∀ c ∈ tail.head?, c = 'e') (hp : '.' ∉ tail) :
    numeralParts (whole ++ ((if frac.isEmpty then [] else '.' :: frac) ++ tail)) =
      (whole, frac, match tail with | [] => none | _ :: e => some e) := by
  have htail : ∀ c ∈ tail.head?, Number.isDigit c = false := fun c hc => ht c hc ▸ by decide
  have hpoint : '.' ∉ whole := fun h => absurd (hw _ h) (by decide)
  cases frac with
  | nil =>
    obtain ⟨h1, h2⟩ := span_digits hw htail
    simp only [List.isEmpty_nil, if_true, List.nil_append, numeralParts, h1, h2]
    cases tail with
    | nil => rfl
    | cons c r =>
      obtain rfl : c = 'e' := ht c rfl
      have hcontains : (whole ++ 'e' :: r).contains '.' = false := by
        rw [List.contains_eq_mem, decide_eq_false_iff_not, List.mem_append, not_or]
        exact ⟨hpoint, hp⟩
      simp only [hcontains, Bool.and_false, Bool.false_eq_true, if_false]
      rfl
  | cons f fs =>
    obtain ⟨h1, h2⟩ := span_digits (r := '.' :: (f :: fs ++ tail)) hw fun c hc => by
      cases hc
      rfl
    obtain ⟨h3, h4⟩ := span_digits hf htail
    simp only [List.isEmpty_cons, Bool.false_eq_true, if_false, List.cons_append] at h1 h2 h3 h4 ⊢
    simp only [numeralParts, h1, h2, h3, h4]
    cases tail <;> rfl

lemma toList_decimalText (whole frac : List Nat) (exponent : Option Int) : (decimalText whole frac exponent).toList =
    (digitText whole).toList ++ ((if (digitText frac).toList.isEmpty then [] else '.' :: (digitText frac).toList) ++
      (exponent.elim "" Number.exponentText).toList) := by
  rw [decimalText, String.toList_append, String.toList_append, Number.toList_digitText frac, List.isEmpty_map]
  split_ifs
  · rfl
  · rw [String.toList_append, Number.toList_digitText frac]
    rfl

lemma numberValue?_decimalText {whole frac : List Nat} (hw : ∀ d ∈ whole, d < 10) (hf : ∀ d ∈ frac, d < 10)
    {exponent : Option Int} (hx : ∀ x ∈ exponent, x.natAbs ≤ 4000) (hlen : frac.length ≤ 4000) :
    numberValue? (decimalText whole frac exponent) =
      some (Number.ofDecimal false (ofDigitList (whole ++ frac)) (exponent.getD 0 - frac.length)) := by
  have hvalue : Number.digitsValue 10 ((digitText whole).toList ++ (digitText frac).toList) =
    ofDigitList (whole ++ frac) := by
    rw [← String.toList_append, ← Number.digitText_append, Number.digitsValue_digitText]
    exact fun d hd => (List.mem_append.1 hd).elim (hw d) (hf d)
  have hcount : (digitText frac).toList.length = frac.length := by rw [Number.toList_digitText, List.length_map]
  have hfits : ∀ e : Int, e.natAbs ≤ 8000 →
      (decide (Int32.minValue.toInt ≤ e) && decide (e ≤ Int32.maxValue.toInt)) = true := by
    intro e he
    have hmin : Int32.minValue.toInt = -2147483648 := rfl
    have hmax : Int32.maxValue.toInt = 2147483647 := rfl
    rw [hmin, hmax, Bool.and_eq_true, decide_eq_true_iff, decide_eq_true_iff]
    omega
  have hw' := Number.isDigit_digitText hw
  have hf' := Number.isDigit_digitText hf
  rw [numberValue?, toList_decimalText]
  cases exponent with
  | none =>
    have hparts := numeralParts_append hw' hf' [] (by simp) (by simp)
    simp only [Option.elim_none, hparts, String.toList_empty, hvalue, hcount, Option.getD_none]
    rw [hfits 0 (by decide), hfits _ (by omega)]
    rfl
  | some x =>
    have hx := hx x rfl
    have hsplit : (Number.exponentText x).toList =
        'e' :: ((if x < 0 then '-' else '+') :: (digitText (exponentDigits x)).toList) := by
      rw [Number.exponentText_eq, String.toList_append]
      split_ifs <;> rfl
    have hpoint : '.' ∉ 'e' :: ((if x < 0 then '-' else '+') :: (digitText (exponentDigits x)).toList) := by
      have hdigits : '.' ∉ (digitText (exponentDigits x)).toList := fun h =>
        absurd (Number.isDigit_digitText (fun _ => Number.digit_lt_exponent) _ h) (by decide)
      split_ifs <;> simpa using hdigits
    have hparts := numeralParts_append hw' hf' _ (by simp) hpoint
    simp only [Option.elim_some, hsplit, hparts, hvalue, hcount, Option.getD_some, Number.readInt_exponent]
    rw [hfits x (by omega), hfits _ (by omega)]
    rfl

def digitBytes (ds : List Nat) : Bytes := ds.map fun d => UInt8.ofNat (d + 48)

lemma ascii_append (bs cs : Bytes) : ascii (bs ++ cs) = ascii bs ++ ascii cs := by
  rw [ascii, List.map_append, String.ofList_append, ascii, ascii]

lemma digits_digitBytes {ds : List Nat} (h : ∀ d ∈ ds, d < 10) : Digits (digitBytes ds) := by
  have hdigit : ∀ d < 10, isDigitByte (UInt8.ofNat (d + 48)) = true := by decide
  intro b hb
  obtain ⟨d, hd, rfl⟩ := List.mem_map.1 hb
  exact hdigit d (h d hd)

lemma ascii_digitBytes {ds : List Nat} (h : ∀ d ∈ ds, d < 10) : ascii (digitBytes ds) = digitText ds := by
  have hchar : ∀ d < 10, Char.ofNat (UInt8.ofNat (d + 48)).toNat = Char.ofNat (d + 48) := by decide
  rw [ascii, digitBytes, digitText, List.map_map]
  congr 1
  exact List.map_congr_left fun d hd => hchar d (h d hd)

lemma spelled_decimal (whole frac : List Nat) (exponent : Option Int) (hw : ∀ d ∈ whole, d < 10)
    (hf : ∀ d ∈ frac, d < 10) (hne : whole ≠ [])
    (hx : ∀ x ∈ exponent, x.natAbs ≤ 4000) (hlen : frac.length ≤ 4000) :
    Spelled ⟨.number (Number.ofDecimal false (ofDigitList (whole ++ frac)) (exponent.getD 0 - frac.length)),
      decimalText whole frac exponent, 0⟩ := by
  have hpoint : ∃ bs, Fraction bs ∧ ascii bs = if frac.isEmpty then "" else "." ++ digitText frac := by
    split_ifs
    · exact ⟨[], .inl rfl, rfl⟩
    · refine ⟨46 :: digitBytes frac, .inr ⟨_, rfl, digits_digitBytes hf⟩, ?_⟩
      rw [← List.singleton_append, ascii_append, ascii_digitBytes hf]
      rfl
  have hexponent : ∃ bs, Exponent bs ∧ ascii bs = exponent.elim "" Number.exponentText := by
    cases exponent with
    | none => exact ⟨[], .inl rfl, rfl⟩
    | some x =>
      have hd := fun d => @Number.digit_lt_exponent x d
      refine ⟨101 :: ([if x < 0 then 45 else 43] ++ digitBytes (exponentDigits x)),
        .inr ⟨101, _, _, rfl, .inl rfl, ?_, digits_digitBytes hd, ?_⟩, ?_⟩
      · split_ifs
        · exact .inr (.inr rfl)
        · exact .inr (.inl rfl)
      · rw [digitBytes, Ne, List.map_eq_nil_iff]
        exact List.append_ne_nil_of_right_ne_nil _ (Number.digitList_ne_nil _)
      · rw [← List.singleton_append, ascii_append, ascii_append, ascii_digitBytes hd, Option.elim_some,
          Number.exponentText_eq, ← String.append_assoc]
        split_ifs <;> rfl
  obtain ⟨point, hp, hpt⟩ := hpoint
  obtain ⟨tail, he, het⟩ := hexponent
  have htext : ascii (digitBytes whole ++ (point ++ tail)) = decimalText whole frac exponent := by
    rw [ascii_append, ascii_append, ascii_digitBytes hw, hpt, het, decimalText]
  refine ⟨_, .numeral ⟨digitBytes whole, point, tail, rfl, digits_digitBytes hw, hp, he, .inl ?_⟩ ?_, htext.symm⟩
  · rwa [digitBytes, Ne, List.map_eq_nil_iff]
  · rw [htext]
    exact numberValue?_decimalText hw hf hx hlen

lemma Spells.number {x : Float} {lex : Bytes} (h : Spells (.number x) lex) :
    Numeral lex ∧ numberValue? (ascii lex) = some x := by
  generalize hk : TokenKind.number x = k at h
  cases h with
  | name => cases hk
  | numeral hn hvalue =>
    cases hk
    exact ⟨hn, hvalue⟩
  | operator => cases hk
  | bracket hb =>
    subst hk
    unfold bracket? at hb
    split at hb <;> cases hb

end LandUse.Token

namespace LandUse.Number

open Token

def Digits.value (d : Digits) : ℚ := ofDigitList d.digits * 10 ^ (d.exponent + 1 - d.digits.length)

def ReadsAs (s : String) (v : ℚ) : Prop :=
  ∃ (n : Nat) (e : Int), (n * 10 ^ e : ℚ) = v ∧ Spelled ⟨.number (ofDecimal false n e), s, 0⟩

lemma readsAs_decimal {whole frac : List Nat} {exponent : Option Int} {d : Digits} (h : ∀ x ∈ whole ++ frac, x < 10)
    (hne : whole ≠ []) (hx : ∀ x ∈ exponent, x.natAbs ≤ 4000) (hlen : frac.length ≤ 4000)
    (hv : (ofDigitList (whole ++ frac) * 10 ^ (exponent.getD 0 - frac.length) : ℚ) = d.value) :
    ReadsAs (decimalText whole frac exponent) d.value :=
  ⟨_, _, hv, spelled_decimal _ _ _ (fun x hx => h x (List.mem_append_left _ hx))
    (fun x hx => h x (List.mem_append_right _ hx)) hne hx hlen⟩

lemma readsAs_positional {d : Digits} (h : ∀ x ∈ d.digits, x < 10) (hne : d.digits ≠ []) (hlen : d.digits.length ≤ 3000)
    (hlow : -500 ≤ d.exponent) : ReadsAs (positional d) d.value := by
  have hzero : ∀ n, ∀ x ∈ List.replicate n 0, x < 10 := fun n x hx => by
    rw [List.eq_of_mem_replicate hx]
    decide
  have happend : ∀ {xs ys : List Nat}, (∀ x ∈ xs, x < 10) → (∀ x ∈ ys, x < 10) → ∀ x ∈ xs ++ ys, x < 10 :=
    fun hx hy x hmem => (List.mem_append.1 hmem).elim (hx x) (hy x)
  have hempty : ∀ xs ys : List Nat, ys ≠ [] → (xs ++ ys).isEmpty = false := fun xs ys hy =>
    List.isEmpty_eq_false_iff.2 (List.append_ne_nil_of_right_ne_nil xs hy)
  unfold positional
  split_ifs with hneg
  · set z := (-d.exponent - 1).toNat with hz
    have htext : "0." ++ zeros z ++ digitText d.digits = decimalText [0] (List.replicate z 0 ++ d.digits) none := by
      rw [decimalText, hempty _ _ hne, if_neg Bool.false_ne_true, digitText_append, zeros_eq_digitText]
      simp only [Option.elim_none, String.append_empty, ← String.append_assoc]
      rfl
    rw [htext]
    refine readsAs_decimal (happend (by decide) (happend (hzero z) h)) (by decide) (by simp) ?_ ?_
    · rw [List.length_append, List.length_replicate]
      omega
    · rw [Digits.value, ofDigitList_append, ofDigitList_append, ofDigitList_replicate, List.length_append,
        List.length_replicate, show ofDigitList [0] = 0 from rfl, Nat.zero_mul, Nat.zero_mul,
        Nat.zero_add, Nat.zero_add]
      congr 2
      rw [Option.getD_none]
      omega
  dsimp only
  set w := d.exponent.toNat + 1 with hw
  split_ifs with hshort
  · set z := w - d.digits.length with hz
    have htext : digitText d.digits ++ zeros z = decimalText (d.digits ++ List.replicate z 0) [] none := by
      rw [decimalText, digitText_append, zeros_eq_digitText]
      simp only [List.isEmpty_nil, if_true, Option.elim_none, String.append_empty]
    rw [htext]
    refine readsAs_decimal (happend (happend h (hzero z)) (by simp)) (List.append_ne_nil_of_left_ne_nil hne _) (by simp)
      (by simp) ?_
    rw [Digits.value, List.append_nil, ofDigitList_append, ofDigitList_replicate, List.length_replicate, Nat.add_zero,
      show d.exponent + 1 - d.digits.length = (z : Int) by omega, zpow_natCast]
    simp
  · have hdrop : d.digits.drop w ≠ [] := by
      rw [Ne, List.drop_eq_nil_iff]
      omega
    have htext : digitText (d.digits.take w) ++ "." ++ digitText (d.digits.drop w) =
        decimalText (d.digits.take w) (d.digits.drop w) none := by
      rw [decimalText, List.isEmpty_eq_false_iff.2 hdrop, if_neg Bool.false_ne_true]
      simp only [Option.elim_none, String.append_empty, ← String.append_assoc]
    rw [htext]
    refine readsAs_decimal (by rwa [List.take_append_drop]) ?_ (by simp) ?_ ?_
    · rw [Ne, List.take_eq_nil_iff, not_or]
      exact ⟨Nat.succ_ne_zero _, hne⟩
    · rw [List.length_drop]
      omega
    · rw [Digits.value, List.take_append_drop, List.length_drop]
      congr 2
      rw [Option.getD_none]
      omega

lemma readsAs_scientific {d : Digits} (h : ∀ x ∈ d.digits, x < 10) (hne : d.digits ≠ []) (hlen : d.digits.length ≤ 3000)
    (hx : d.exponent.natAbs ≤ 4000) : ReadsAs (scientific d) d.value := by
  obtain ⟨ds, x⟩ := d
  obtain ⟨a, r, rfl⟩ := List.exists_cons_of_ne_nil hne
  have htext : scientific ⟨a :: r, x⟩ = decimalText [a] r (some x) := by
    cases r with
    | nil => rfl
    | cons b r =>
      simp only [scientific, decimalText, List.isEmpty_cons, Bool.false_eq_true, if_false, Option.elim_some,
        ← String.append_assoc]
  rw [htext]
  refine readsAs_decimal h (by simp) ?_ ?_ ?_
  · rintro y hy
    cases hy
    exact hx
  · exact Nat.le_of_succ_le (hlen.trans (by decide))
  · rw [Digits.value]
    congr 2
    simp only [Option.getD_some, List.length_cons]
    omega

lemma stripZeros_append (ds : List Nat) : ∃ z, ds = stripZeros ds ++ List.replicate z 0 := by
  refine ⟨(ds.reverse.takeWhile (· == 0)).length, ?_⟩
  have hzero : ds.reverse.takeWhile (· == 0) = List.replicate (ds.reverse.takeWhile (· == 0)).length 0 :=
    List.eq_replicate_of_mem fun x hx => by simpa using List.mem_takeWhile_imp hx
  have hsplit := congrArg List.reverse (List.takeWhile_append_dropWhile (p := (· == 0)) (l := ds.reverse))
  rw [List.reverse_append, List.reverse_reverse, hzero, List.reverse_replicate] at hsplit
  exact hsplit.symm

lemma value_ofScaled (n : Nat) (k : Int) : (ofScaled n k).value = n * 10 ^ (-k) := by
  obtain ⟨z, hz⟩ := stripZeros_append (digitList n)
  have hn := ofDigitList_digitList n
  rw [hz, ofDigitList_append, ofDigitList_replicate, List.length_replicate, Nat.add_zero] at hn
  have hlen := congrArg List.length hz
  rw [List.length_append, List.length_replicate] at hlen
  have hexp : (ofScaled n k).exponent + 1 - (ofScaled n k).digits.length = (z : Int) + -k := by
    simp only [ofScaled]
    omega
  rw [Digits.value, hexp, zpow_add₀ (by norm_num), zpow_natCast, ← mul_assoc]
  congr 1
  exact_mod_cast hn

lemma ofScaled_digits_ne_nil {n : Nat} (hn : 0 < n) (k : Int) : (ofScaled n k).digits ≠ [] := by
  obtain ⟨z, hz⟩ := stripZeros_append (digitList n)
  intro h
  have hnil : stripZeros (digitList n) = [] := h
  have hval := ofDigitList_digitList n
  rw [hz, hnil, List.nil_append, ofDigitList_replicate] at hval
  omega

theorem spelled_general {x : Float} {m : Nat} {q : Int} (hx : parts x = .finite false m q) :
    Spelled ⟨.number x, general x, 0⟩ := by
  have hc := canonical_parts x
  rw [hx] at hc
  unfold general
  simp only [hx, signText, Bool.false_eq_true, if_false, String.empty_append, beq_iff_eq]
  by_cases hm : m = 0
  · subst hm
    have hq : q = -1074 := hc.2.2.2.resolve_right (by decide)
    have hzero : x = ofDecimal false 0 0 := by
      apply eq_of_parts
      rw [hx, hq]
      decide
    rw [if_pos rfl, hzero]
    exact spelled_decimal [0] [] none (by decide) (by decide) (by decide) (by simp) (by decide)
  rw [if_neg hm]
  obtain ⟨n, k, hs, hr, hk⟩ := shortest_spec hc (Nat.pos_of_ne_zero hm)
  obtain ⟨hn, hbottom, htop⟩ := hr.top_bounds hc (Nat.pos_of_ne_zero hm)
  have hlen : (digitList n).length = (Nat.toDigits 10 n).length := List.length_map _
  have hlen' : (ofScaled n k).digits.length ≤ (digitList n).length := by
    obtain ⟨z, hz⟩ := stripZeros_append (digitList n)
    have := congrArg List.length hz
    rw [List.length_append] at this
    exact this ▸ Nat.le_add_right _ _
  have hexp : (ofScaled n k).exponent = (digitList n).length - 1 - k := rfl
  have hreads : ReadsAs (if -4 ≤ (shortest m q).exponent && (shortest m q).exponent ≤ 5 then positional (shortest m q)
      else scientific (shortest m q)) (n * 10 ^ (-k)) := by
    rw [hs, ← value_ofScaled]
    split_ifs
    · exact readsAs_positional (fun _ => digit_lt_ofScaled) (ofScaled_digits_ne_nil hn k) (by omega) (by omega)
    · exact readsAs_scientific (fun _ => digit_lt_ofScaled) (ofScaled_digits_ne_nil hn k) (by omega) (by omega)
  obtain ⟨n', e, hv, hspelled⟩ := hreads
  rwa [ofDecimal_of_rounds hx (Nat.pos_of_ne_zero hm) (hv ▸ hr)] at hspelled

end LandUse.Number
