import LandUse.Expansion.Instr
import LandUse.Proofs.Linear.Writing

namespace LandUse

open Outcome

namespace LpText

def Alike (a b : String) : Prop :=
  List.Forall₂ (fun c d => c = d ∨ c.isAlphanum = false ∧ d.isAlphanum = false) a.toList b.toList

lemma isNameChar_iff {c : Char} : isNameChar c = true ↔ c.isAlphanum = true ∨ c = '_' := by
  rw [isNameChar, Bool.or_eq_true, beq_iff_eq]
  rfl

lemma ne_underscore_of_isAlphanum {c : Char} (h : c.isAlphanum = true) : c ≠ '_' := by
  rintro rfl
  exact absurd h (by decide)

lemma written_eq (c : Char) : (if isNameChar c then c else '_') = if c.isAlphanum then c else '_' := by
  by_cases hc : c.isAlphanum = true
  · rw [if_pos (isNameChar_iff.2 (.inl hc)), if_pos hc]
  · rw [if_neg hc, ite_eq_right_iff]
    exact fun h => (isNameChar_iff.1 h).resolve_left hc

lemma written_eq_iff {c d : Char} : (if isNameChar c then c else '_') = (if isNameChar d then d else '_') ↔
    c = d ∨ c.isAlphanum = false ∧ d.isAlphanum = false := by
  rw [written_eq, written_eq]
  cases hc : c.isAlphanum <;> cases hd : d.isAlphanum
  · simp
  · have hne : c ≠ d := fun h => by simp [h, hd] at hc
    simpa [hne] using (ne_underscore_of_isAlphanum hd).symm
  · have hne : c ≠ d := fun h => by simp [h, hd] at hc
    simpa [hne] using ne_underscore_of_isAlphanum hc
  · simp

lemma nameText_eq_iff {a b : String} : nameText a = nameText b ↔ Alike a b := by
  rw [nameText, nameText, String.ofList_inj, ← List.forall₂_eq_eq_eq, List.forall₂_map_left_iff,
    List.forall₂_map_right_iff, Alike]
  simp only [written_eq_iff]

lemma nameText_append (a b : String) : nameText (a ++ b) = nameText a ++ nameText b := by
  simp [nameText]

lemma nameText_eq_self {a : String} (h : ∀ c ∈ a.toList, isNameChar c = true) : nameText a = a := by
  rw [nameText, List.map_congr_left (g := id), List.map_id, String.ofList_toList]
  exact fun c hc => if_pos (h c hc)

lemma isNameChar_of_mem {a : String} {c : Char} (h : c ∈ (nameText a).toList) : isNameChar c = true := by
  rw [nameText, String.toList_ofList, List.mem_map] at h
  obtain ⟨d, -, rfl⟩ := h
  split_ifs with hd
  · exact hd
  · rfl

lemma term_eq_iff {m : Matrix Float} {i j : Nat} {c d : MatrixColumn} (hc : m.columns[i]? = some c)
    (hd : m.columns[j]? = some d) {x : Float} (hx : x.isFinite = true) :
    term m i x = term m j x ↔ Alike c.name d.name := by
  obtain ⟨digits, hdigits⟩ := number_ok_iff.2 hx
  have hterm {k : Nat} {e : MatrixColumn} (he : m.columns[k]? = some e) :
      term m k x = .ok ((if 0 ≤ x then "+" else "") ++ digits ++ " " ++ nameText e.name) := by
    have hcolumn : m.hasColumn k = true := by
      simpa [Matrix.hasColumn] using (List.getElem?_eq_some_iff.1 he).1
    simp [term, hdigits, hcolumn, he]
  rw [hterm hc, hterm hd, Except.ok.injEq, String.append_right_inj, nameText_eq_iff]

def label (row : String) : List Char := row.toList.takeWhile (· != ':')

lemma label_row {m : Matrix Float} {r : MatrixRow Float} {s : String} (h : row m r = .ok s) :
    label s = (nameText r.name).toList := by
  simp only [row, bind_eq_ok] at h
  obtain ⟨lhs, -, rhs, -, h⟩ := h
  cases h
  have hname : ∀ c ∈ (nameText r.name).toList, (c != ':') = true := by
    intro c hc
    rw [bne_iff_ne]
    rintro rfl
    exact absurd (isNameChar_of_mem hc) (by decide)
  simp only [label, String.append_assoc, String.toList_append]
  rw [List.takeWhile_append_of_pos hname]
  exact List.append_nil _

lemma label_eq_iff {m : Matrix Float} {r r' : MatrixRow Float} {s s' : String} (h : row m r = .ok s)
    (h' : row m r' = .ok s') : label s = label s' ↔ Alike r.name r'.name := by
  rw [label_row h, label_row h', String.toList_inj, nameText_eq_iff]

end LpText

namespace Segment

open LpText

lemma substitute_eq (label : List Char) : (∀ value, substitute value label = none) ∨
    ∃ before after, ∀ value, substitute value label = some (before ++ value ++ after) := by
  induction label using substitute.induct with
  | case1 => exact .inl fun _ => rfl
  | case2 rest => exact .inr ⟨[], rest, fun _ => rfl⟩
  | case3 c rest hplace ih =>
    have hstep (value : List Char) : substitute value (c :: rest) = (substitute value rest).map (c :: ·) :=
      substitute.eq_3 value c rest hplace
    rcases ih with hnone | ⟨before, after, hsome⟩
    · exact .inl fun value => by rw [hstep, hnone, Option.map_none]
    · exact .inr ⟨c :: before, after, fun value => by rw [hstep, hsome, Option.map_some]; rfl⟩

lemma labelFor_eq (label : String) :
    ∃ before after : String, ∀ values, values ≠ [] →
    labelFor label values = before ++ "_".intercalate values ++ after := by
  rcases substitute_eq label.toList with hnone | ⟨before, after, hsome⟩
  · refine ⟨label ++ "_", "", fun values hvalues => ?_⟩
    simp [labelFor, hvalues, hnone]
  · refine ⟨String.ofList before, String.ofList after, fun values hvalues => ?_⟩
    rw [← String.toList_inj]
    simp [labelFor, hvalues, hsome]

lemma intercalate_inj {vs ws : List String} (hvs : vs ≠ []) (hws : ws ≠ []) (hv : ∀ v ∈ vs, '_' ∉ v.toList)
    (hw : ∀ w ∈ ws, '_' ∉ w.toList) (h : "_".intercalate vs = "_".intercalate ws) : vs = ws := by
  have hsplit {us : List String} (hus : us ≠ []) (hu : ∀ u ∈ us, '_' ∉ u.toList) :
      ("_".intercalate us).toList.splitOn '_' = us.map String.toList := by
    rw [String.toList_intercalate]
    exact List.splitOn_intercalate '_' (by simpa using hu) (by simpa using hus)
  have hlists : vs.map String.toList = ws.map String.toList := by rw [← hsplit hvs hv, h, hsplit hws hw]
  exact List.map_injective_iff.2 (fun _ _ => String.toList_inj.1) hlists

lemma nameText_intercalate {us : List String} (hu : ∀ u ∈ us, ∀ c ∈ u.toList, c.isAlphanum = true) :
    nameText ("_".intercalate us) = "_".intercalate us := by
  induction us with
  | nil => rfl
  | cons u us ih =>
    obtain ⟨hu, hus⟩ := List.forall_mem_cons.1 hu
    have hfirst : nameText u = u := nameText_eq_self fun c hc => isNameChar_iff.2 (.inl (hu c hc))
    cases us with
    | nil => rw [String.intercalate_singleton, hfirst]
    | cons v us => rw [String.intercalate_cons_cons, nameText_append, nameText_append, hfirst, ih hus]; rfl

lemma alike_labelFor_iff (label : String) {vs ws : List String} (hvs : vs ≠ []) (hws : ws ≠ [])
    (hv : ∀ v ∈ vs, ∀ c ∈ v.toList, c.isAlphanum = true) (hw : ∀ w ∈ ws, ∀ c ∈ w.toList, c.isAlphanum = true) :
    Alike (labelFor label vs) (labelFor label ws) ↔ vs = ws := by
  refine ⟨fun h => ?_, fun h => h ▸ nameText_eq_iff.1 rfl⟩
  obtain ⟨before, after, hlabel⟩ := labelFor_eq label
  rw [hlabel vs hvs, hlabel ws hws, ← nameText_eq_iff] at h
  simp only [nameText_append, String.append_left_inj, String.append_right_inj] at h
  rw [nameText_intercalate hv, nameText_intercalate hw] at h
  have hline {us : List String} (hu : ∀ u ∈ us, ∀ c ∈ u.toList, c.isAlphanum = true) : ∀ u ∈ us, '_' ∉ u.toList :=
    fun u hus hmem => ne_underscore_of_isAlphanum (hu u hus _ hmem) rfl
  exact intercalate_inj hvs hws (hline hv) (hline hw) h

end Segment

end LandUse
