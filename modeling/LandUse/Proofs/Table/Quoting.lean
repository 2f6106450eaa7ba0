import LandUse.Table.Filter
import Mathlib.Tactic.Common

namespace LandUse.SqlText

open LandUse.Filter

variable {quote : Char} {rest : List Char}

def doubled (quote : Char) (cs : List Char) : List Char := cs.flatMap fun c => if c = quote then [quote, quote] else [c]

lemma enclose_append (quote : Char) (cs rest : List Char) :
    enclose quote cs ++ rest = quote :: (doubled quote cs ++ quote :: rest) := by
  simp [enclose, doubled]

lemma readEnclosed_doubled (cs : List Char) (h : rest.head? ≠ some quote) :
    readEnclosed quote (doubled quote cs ++ quote :: rest) = some (cs, rest) := by
  induction cs with
  | nil =>
    cases rest with
    | nil => simp [doubled, readEnclosed]
    | cons d r =>
      have hd : d ≠ quote := fun hd => h (congrArg some hd)
      simp [doubled, readEnclosed, hd]
  | cons c cs ih =>
    -- What is still to be read is never empty, so the reader always has a second character to look at.
    obtain ⟨d, r, hr⟩ := List.exists_cons_of_ne_nil (List.append_ne_nil_of_right_ne_nil (doubled quote cs)
      (List.cons_ne_nil quote rest))
    by_cases hc : c = quote
    · have hcons : doubled quote (c :: cs) = quote :: quote :: doubled quote cs := by simp [doubled, hc]
      rw [hcons, List.cons_append, List.cons_append, readEnclosed, if_pos rfl, if_pos rfl, ih, hc]
      rfl
    · have hcons : doubled quote (c :: cs) = c :: doubled quote cs := by simp [doubled, hc]
      rw [hcons, List.cons_append, hr, readEnclosed, if_neg hc, ← hr, ih]
      rfl

lemma length_readEnclosed {cs s : List Char} (h : readEnclosed quote cs = some (s, rest)) :
    rest.length < cs.length := by
  fun_induction readEnclosed quote cs generalizing s with
  | case1 => cases h
  | case2 =>
    cases h
    exact Nat.one_pos
  | case3 => cases h
  | case4 r ih =>
    obtain ⟨⟨t, rest'⟩, ht, heq⟩ := Option.map_eq_some_iff.1 h
    cases heq
    exact Nat.lt_succ_of_lt (Nat.lt_succ_of_lt (ih ht))
  | case5 =>
    cases h
    exact Nat.lt_succ_self _
  | case6 c d r _ ih =>
    obtain ⟨⟨t, rest'⟩, ht, heq⟩ := Option.map_eq_some_iff.1 h
    cases heq
    exact Nat.lt_succ_of_lt (ih ht)

def readNames (text : List Char) : Option (List String × List Char) :=
  match text with
  | '"' :: r =>
    match _ : readEnclosed '"' r with
    | some (name, ',' :: ' ' :: '"' :: more) =>
      (readNames ('"' :: more)).map fun (names, rest) => (String.ofList name :: names, rest)
    | some (name, rest) => some ([String.ofList name], rest)
    | none => none
  | _ => some ([], text)
termination_by text.length
decreasing_by
  have := length_readEnclosed ‹readEnclosed '"' r = _›
  simp only [List.length_cons] at this ⊢
  omega

lemma toList_quoteName (name : String) : (quoteName name).toList = enclose '"' name.toList := String.toList_ofList

lemma readToken_quoteName (name : String) (h : rest.head? ≠ some '"') :
    readToken ((quoteName name).toList ++ rest) = some (.quoted name, rest) := by
  rw [toList_quoteName, enclose_append, readToken, readEnclosed_doubled _ h, Option.map_some]
  simp only [String.ofList_toList]

lemma readToken_quoteText (s : String) (h : rest.head? ≠ some '\'') :
    readToken ((quoteText s).toList ++ rest) = some (.text s, rest) := by
  rw [quoteText, String.toList_ofList, enclose_append, readToken, readEnclosed_doubled _ h, Option.map_some]
  simp only [String.ofList_toList]

lemma readNames_one (name : String) (h : rest.head? ≠ some '"') (hmore : ¬ [',', ' ', '"'] <+: rest) :
    readNames ((quoteName name).toList ++ rest) = some ([name], rest) := by
  have hread := readEnclosed_doubled name.toList h
  rw [toList_quoteName, enclose_append, readNames]
  split
  · rename_i s more heq
    rw [hread] at heq
    cases heq
    exact absurd ⟨more, rfl⟩ hmore
  · rename_i heq
    rw [hread] at heq
    cases heq
    rw [String.ofList_toList]
  · rename_i heq
    rw [hread] at heq
    cases heq

lemma readNames_more (name : String) (r : List Char) :
    readNames ((quoteName name).toList ++ ',' :: ' ' :: '"' :: r) =
      (readNames ('"' :: r)).map fun (names, rest) => (name :: names, rest) := by
  have hread : readEnclosed '"' (doubled '"' name.toList ++ '"' :: ',' :: ' ' :: '"' :: r) =
      some (name.toList, ',' :: ' ' :: '"' :: r) := readEnclosed_doubled name.toList (by simp)
  rw [toList_quoteName, enclose_append, readNames]
  split
  · rename_i s more heq
    rw [hread] at heq
    cases heq
    rw [String.ofList_toList]
  · rename_i s more hne heq
    rw [hread] at heq
    cases heq
    exact absurd rfl (hne r)
  · rename_i heq
    rw [hread] at heq
    cases heq

lemma readNames_quoteNames (names : List String) (h : rest.head? ≠ some '"') (hmore : ¬ [',', ' ', '"'] <+: rest) :
    readNames ((quoteNames names).toList ++ rest) = some (names, rest) := by
  induction names with
  | nil =>
    rw [quoteNames, List.map_nil, String.intercalate_nil, String.toList_empty, List.nil_append, readNames]
    rintro r rfl
    exact h rfl
  | cons name names ih =>
    cases names with
    | nil =>
      rw [quoteNames, List.map_singleton, String.intercalate_singleton]
      exact readNames_one name h hmore
    | cons next names =>
      -- The separator is followed by the quote of the next name.
      obtain ⟨r, hr⟩ : ∃ r, (quoteNames (next :: names)).toList ++ rest = '"' :: r := by
        cases names <;> exact ⟨_, by simp [quoteNames, toList_quoteName, enclose]; rfl⟩
      rw [hr] at ih
      have hsplit : (quoteNames (name :: next :: names)).toList ++ rest =
          (quoteName name).toList ++ ',' :: ' ' :: ((quoteNames (next :: names)).toList ++ rest) := by
        simp [quoteNames, String.intercalate_cons_cons]
      rw [hsplit, hr, readNames_more, ih]
      rfl

/-- Quoted names and texts are read back to the end of their quotes, whatever characters they have. -/
theorem quoted_reads_back :
    (∀ names, readNames (quoteNames names).toList = some (names, [])) ∧
    (∀ names rest, rest.head? ≠ some '"' → ¬ [',', ' ', '"'] <+: rest →
      readNames ((quoteNames names).toList ++ rest) = some (names, rest)) ∧
    (∀ name rest, rest.head? ≠ some '"' → readToken ((quoteName name).toList ++ rest) = some (.quoted name, rest)) ∧
    (∀ s rest, rest.head? ≠ some '\'' → readToken ((quoteText s).toList ++ rest) = some (.text s, rest)) ∧
    quoteNames.Injective ∧ quoteName.Injective ∧ quoteText.Injective := by
  have hall : ∀ names, readNames (quoteNames names).toList = some (names, []) := fun names => by
    simpa using @readNames_quoteNames [] names (by decide) (by decide)
  have hname : ∀ name, readToken (quoteName name).toList = some (.quoted name, []) := fun name => by
    simpa using @readToken_quoteName [] name (by decide)
  have htext : ∀ s, readToken (quoteText s).toList = some (.text s, []) := fun s => by
    simpa using @readToken_quoteText [] s (by decide)
  refine ⟨hall, fun names _ => readNames_quoteNames names, fun name _ => readToken_quoteName name,
    fun s _ => readToken_quoteText s, fun names names' h => ?_, fun name name' h => ?_, fun s s' h => ?_⟩
  · have heq := hall names
    rw [h, hall names'] at heq
    cases heq
    rfl
  · have heq := hname name
    rw [h, hname name'] at heq
    cases heq
    rfl
  · have heq := htext s
    rw [h, htext s'] at heq
    cases heq
    rfl

theorem hostile_names_read_back :
    readNames ((quoteNames ["a\", \"b", "\"", ""]).toList ++ " FROM ".toList) =
        some (["a\", \"b", "\"", ""], " FROM ".toList) ∧
      readToken ((quoteText "it's'").toList ++ ") > 0".toList) = some (.text "it's'", ") > 0".toList) :=
  ⟨quoted_reads_back.2.1 _ _ (by decide) (by decide), quoted_reads_back.2.2.2.1 _ _ (by decide)⟩

end LandUse.SqlText
