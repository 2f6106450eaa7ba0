import LandUse.Number.Layout
import Mathlib.Tactic.Common

namespace LandUse.Number

lemma digit_lt {n d : Nat} (h : d ∈ digitList n) : d < 10 := by
  obtain ⟨c, hc, rfl⟩ := List.mem_map.1 h
  have hdigit := Nat.isDigit_of_mem_toDigits (by decide) (by decide) hc
  rw [Char.isDigit, Bool.and_eq_true, decide_eq_true_iff, decide_eq_true_iff] at hdigit
  have hle : c.toNat ≤ 57 := hdigit.2
  omega

lemma digit_lt_ofScaled {n d : Nat} {k : Int} (h : d ∈ (ofScaled n k).digits) : d < 10 := by
  refine digit_lt (n := n) ?_
  have hsub : ((digitList n).reverse.dropWhile (· == 0)).Sublist (digitList n).reverse := List.dropWhile_sublist _
  exact List.mem_reverse.1 (hsub.subset (List.mem_reverse.1 h))

lemma digit_lt_shortest {m d : Nat} {q : Int} (h : d ∈ (shortest m q).digits) : d < 10 := by
  unfold shortest at h
  dsimp only at h
  split at h
  · rename_i ds hds
    obtain ⟨i, -, hi⟩ := List.exists_of_findSome?_eq_some hds
    unfold Interval.onGrid at hi
    dsimp only at hi
    split_ifs at hi <;> cases hi <;> exact digit_lt_ofScaled h
  · rw [List.mem_singleton.1 h]
    decide

lemma digit_lt_walk {v : Interval} {x : Int} {fuel count : Nat} {up : Bool} {ds : Digits}
    (h : v.walk x fuel count up = some ds)
    {d : Nat} (hd : d ∈ ds.digits) : d < 10 := by
  induction fuel generalizing count up with
  | zero => cases h
  | succ fuel ih =>
    unfold Interval.walk at h
    dsimp only at h
    split at h
    · cases h
      exact digit_lt_ofScaled hd
    · cases h
      exact digit_lt_ofScaled hd
    · cases h
      exact digit_lt_ofScaled hd
    · exact ih h

lemma digit_lt_distinguishing {m d : Nat} {q : Int} (h : d ∈ (distinguishing m q).digits) : d < 10 := by
  unfold distinguishing Interval.walked at h
  cases hwalk : (Interval.ofParts m q).walk (log10Fraction (Interval.ofParts m q).value (Interval.ofParts m q).den)
    (18 + 1) 0 true with
  | none =>
    rw [hwalk] at h
    rw [List.mem_singleton.1 h]
    decide
  | some ds =>
    rw [hwalk] at h
    exact digit_lt_walk hwalk h

def Numeral (s : String) : Prop := ∀ c ∈ s.toList, c ∈ "0123456789.+-eNaInf".toList

instance (s : String) : Decidable (Numeral s) := List.decidableBAll _ s.toList

lemma Numeral.not_mem {s : String} (h : Numeral s) {c : Char} (hc : c ∉ "0123456789.+-eNaInf".toList) : c ∉ s.toList :=
  fun hmem => hc (h c hmem)

lemma Numeral.append {s t : String} (hs : Numeral s) (ht : Numeral t) : Numeral (s ++ t) := by
  intro c hc
  rw [String.toList_append, List.mem_append] at hc
  exact hc.elim (hs c) (ht c)

lemma mem_of_digit : ∀ d < 10, Char.ofNat (d + 48) ∈ "0123456789.+-eNaInf".toList := by decide

lemma numeral_digitText {ds : List Nat} (h : ∀ d ∈ ds, d < 10) : Numeral (digitText ds) := by
  intro c hc
  rw [digitText, String.toList_ofList, List.mem_map] at hc
  obtain ⟨d, hd, rfl⟩ := hc
  exact mem_of_digit d (h d hd)

lemma numeral_zeros (n : Nat) : Numeral (zeros n) := by
  intro c hc
  rw [zeros, String.toList_ofList] at hc
  rw [List.eq_of_mem_replicate hc]
  decide

lemma numeral_toString (n : Nat) : Numeral (toString n) := by
  intro c hc
  have hdigit := Nat.isDigit_of_mem_toDigits (by decide) (by decide) (Nat.toList_repr ▸ hc : c ∈ Nat.toDigits 10 n)
  rw [Char.isDigit, Bool.and_eq_true, decide_eq_true_iff, decide_eq_true_iff] at hdigit
  have hge : 48 ≤ c.toNat := hdigit.1
  have hle : c.toNat ≤ 57 := hdigit.2
  have hmem := mem_of_digit (c.toNat - 48) (by omega)
  rwa [Nat.sub_add_cancel hge, Char.ofNat_toNat] at hmem

lemma numeral_toString_int (k : Int) : Numeral (toString k) := by
  cases k with
  | ofNat n => exact numeral_toString n
  | negSucc n => exact Numeral.append (by decide) (numeral_toString (n + 1))

lemma numeral_positional {d : Digits} (h : ∀ x ∈ d.digits, x < 10) : Numeral (positional d) := by
  unfold positional
  split
  · exact ((show Numeral "0." by decide).append (numeral_zeros _)).append (numeral_digitText h)
  · dsimp only
    split
    · exact (numeral_digitText h).append (numeral_zeros _)
    · refine ((numeral_digitText fun x hx => h x ?_).append (by decide)).append (numeral_digitText fun x hx => h x ?_)
      · exact List.mem_of_mem_take hx
      · exact List.mem_of_mem_drop hx

lemma numeral_exponentText (x : Int) : Numeral (exponentText x) := by
  unfold exponentText
  dsimp only
  refine Numeral.append (.append ?_ ?_) (numeral_toString _)
  · split <;> decide
  · split <;> decide

lemma numeral_scientific {d : Digits} (h : ∀ x ∈ d.digits, x < 10) : Numeral (scientific d) := by
  unfold scientific
  split
  · exact Numeral.append (by decide) (numeral_exponentText _)
  · rename_i a hd
    exact (numeral_digitText (hd ▸ h)).append (numeral_exponentText _)
  · rename_i a r _ hd
    rw [hd] at h
    obtain ⟨ha, hr⟩ := List.forall_mem_cons.1 h
    refine (((numeral_digitText ?_).append (by decide)).append (numeral_digitText hr)).append (numeral_exponentText _)
    exact List.forall_mem_singleton.2 ha

lemma numeral_signText (negative : Bool) : Numeral (signText negative) := by
  cases negative <;> decide

lemma numeral_general (x : Float) : Numeral (general x) := by
  unfold general
  split
  · decide
  · split <;> decide
  · split
    · exact (numeral_signText _).append (by decide)
    · dsimp only
      refine (numeral_signText _).append ?_
      split
      · exact numeral_positional fun _ => digit_lt_shortest
      · exact numeral_scientific fun _ => digit_lt_shortest

lemma numeral_plain? {x : Float} {s : String} (h : plain? x = some s) : Numeral s := by
  unfold plain? at h
  split at h
  · cases h
    split
    · decide
    · exact (numeral_signText _).append (numeral_positional fun _ => digit_lt_distinguishing)
  · cases h

end LandUse.Number
