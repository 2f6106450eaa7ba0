import LandUse.Equation.Elements
import Mathlib.Data.List.Nodup
import Mathlib.Tactic.Common

namespace LandUse

namespace Span

def Apart (s t : Span) : Prop := s.stop < t.start ∨ t.stop < s.start

structure Encloses (s t : Span) : Prop where
  contains : s.contains t = true
  ne : s ≠ t

lemma contains_iff {s t : Span} : s.contains t = true ↔ s.start ≤ t.start ∧ t.stop ≤ s.stop := by
  simp [contains]

lemma encloses_iff {s t : Span} : s.Encloses t ↔
    s.start ≤ t.start ∧ t.stop ≤ s.stop ∧ (s.start < t.start ∨ t.stop < s.stop) := by
  obtain ⟨a, b⟩ := s
  obtain ⟨a', b'⟩ := t
  constructor
  · rintro ⟨hcontains, hne⟩
    rw [contains_iff] at hcontains
    simp only [ne_eq, mk.injEq] at hcontains hne ⊢
    omega
  · rintro ⟨hstart, hstop, hlt⟩
    refine ⟨contains_iff.2 ⟨hstart, hstop⟩, fun h => ?_⟩
    simp only [mk.injEq] at h hlt
    omega

def Nests (s t : Span) : Prop := s.Apart t ∨ s.Encloses t

lemma Nests.not_overlaps {s t : Span} (h : s.Nests t) : s.overlaps t = false := by
  rcases h with h | h
  · simp [overlaps, show (s.stop < t.start || t.stop < s.start : Bool) = true by simpa [Apart] using h]
  · simp [overlaps, h.contains]

end Span

namespace Elements

def recorded (es : List (Element × Bool)) : List Element := (es.filter (·.2)).map (·.1)

lemma recorded_cons (x : Element) (es : List (Element × Bool)) : recorded ((x, true) :: es) = x :: recorded es := rfl

lemma recorded_append (es es' : List (Element × Bool)) : recorded (es ++ es') = recorded es ++ recorded es' := by
  rw [recorded, List.filter_append, List.map_append, recorded, recorded]

variable {equation : String} {endAddressed : Bool} {es : List (Element × Bool)}

lemma mem_marks {pos : Int} {i : Nat} : (pos, i) ∈ (ofList equation endAddressed es).marks ↔
    ∃ e, es[i]? = some (e, true) ∧ pos = address endAddressed e := by
  simp only [ofList, List.mem_filterMap, Prod.exists, List.mem_zipIdx_iff_getElem?]
  constructor
  · rintro ⟨e, marked, j, hget, h⟩
    split at h
    · obtain ⟨rfl, rfl⟩ := Prod.mk.inj (Option.some.inj h)
      simp_all
    · cases h
  · rintro ⟨e, hget, rfl⟩
    exact ⟨e, true, i, hget, rfl⟩

lemma getElem?_list {i : Nat} : (ofList equation endAddressed es).list[i]? = es[i]?.map (·.1) := List.getElem?_map

lemma filterMap_marks (equation : String) (endAddressed : Bool) (es : List (Element × Bool)) {β : Type}
    (g : Int → Element → Option β) :
    (ofList equation endAddressed es).marks.filterMap
        (fun m => ((ofList equation endAddressed es).list[m.2]?).bind (g m.1)) =
      (recorded es).filterMap fun e => g (address endAddressed e) e := by
  have hread : ∀ x ∈ es.zipIdx, ((if x.1.2 then some (address endAddressed x.1.1, x.2)
    else none : Option (Int × Nat)).bind
      fun m => ((ofList equation endAddressed es).list[m.2]?).bind (g m.1)) =
      if x.1.2 then g (address endAddressed x.1.1) x.1.1 else none := by
    rintro ⟨⟨e, marked⟩, i⟩ hx
    rw [List.mem_zipIdx_iff_getElem?] at hx
    cases marked with
    | false => rfl
    | true =>
      dsimp only at hx ⊢
      rw [if_pos rfl, Option.bind_some, getElem?_list, hx]
      rfl
  have hzip : ∀ h : Element × Bool → Option β, es.zipIdx.filterMap (h ∘ Prod.fst) = es.filterMap h := fun h => by
    rw [← List.filterMap_map, List.zipIdx_map_fst]
  have hmarks : (ofList equation endAddressed es).marks =
      es.zipIdx.filterMap fun x => if x.1.2 then some (address endAddressed x.1.1, x.2) else none := rfl
  rw [hmarks, List.filterMap_filterMap, List.filterMap_congr hread, recorded, List.filterMap_map, List.filterMap_filter]
  exact hzip fun x => if x.2 then g (address endAddressed x.1) x.1 else none

lemma elementsAt_ofList (pos : Int) : (ofList equation endAddressed es).elementsAt pos =
    (recorded es).filter fun e => address endAddressed e == pos := by
  have hread := filterMap_marks equation endAddressed es fun p e => if p == pos then some e else none
  rw [elementsAt, indicesAt, List.filterMap_filterMap, ← List.filterMap_eq_filter]
  refine (List.filterMap_congr fun m _ => ?_).trans hread
  by_cases hpos : m.1 == pos <;> simp [hpos]

lemma spans_ofList : (ofList equation endAddressed es).spans = (recorded es).map (·.span) := by
  have hread := filterMap_marks equation endAddressed es fun _ e => some e.span
  rw [spans, ← List.filterMap_eq_map]
  exact (List.filterMap_congr fun _ _ => Option.map_eq_bind).trans hread

lemma noOverlaps_iff {ss : List Span} : noOverlaps ss = true ↔ ss.Pairwise fun s t => s.overlaps t = false := by
  induction ss with
  | nil => simp [noOverlaps]
  | cons s ss ih => simp [noOverlaps, ih]

lemma consistent_iff {a : Elements} : a.consistent = true ↔
    (∀ m ∈ a.marks, ∃ e, a.list[m.2]? = some e ∧ m.1 = address a.endAddressed e) ∧
      a.spans.Pairwise fun s t => s.overlaps t = false := by
  rw [consistent, Bool.and_eq_true, noOverlaps_iff, List.all_eq_true]
  refine and_congr_left fun _ => forall₂_congr fun m _ => ?_
  obtain ⟨pos, i⟩ := m
  dsimp only
  cases a.list[i]? <;> simp

lemma count_marks {i : Nat} {e : Element} {marked : Bool} (h : es[i]? = some (e, marked)) :
    ((ofList equation endAddressed es).marks.map (·.2)).count i = if marked then 1 else 0 := by
  have hmem : i ∈ (ofList equation endAddressed es).marks.map (·.2) ↔ marked = true := by
    simp only [List.mem_map, Prod.exists, exists_eq_right, mem_marks, h, Option.some.injEq, Prod.mk.injEq]
    exact ⟨fun ⟨_, _, ⟨_, hm⟩, _⟩ => hm, fun hm => ⟨_, e, ⟨rfl, hm⟩, rfl⟩⟩
  have hnodup : ((ofList equation endAddressed es).marks.map (·.2)).Nodup := by
    have hsub : ((ofList equation endAddressed es).marks.map (·.2)).Sublist (es.zipIdx.map (·.2)) := by
      have hindices : (ofList equation endAddressed es).marks.map (·.2) = (es.zipIdx.filter (·.1.2)).map (·.2) := by
        rw [ofList, List.map_filterMap, ← List.filterMap_eq_map, ← List.filterMap_eq_filter, List.filterMap_filterMap]
        refine List.filterMap_congr fun x _ => ?_
        obtain ⟨⟨e, marked⟩, i⟩ := x
        cases marked <;> rfl
      rw [hindices]
      exact List.filter_sublist.map _
    refine hsub.nodup ?_
    rw [List.zipIdx_map_snd]
    exact List.nodup_range'
  cases marked with
  | true => exact List.count_eq_one_of_mem hnodup (hmem.2 rfl)
  | false => exact List.count_eq_zero.2 fun h => Bool.false_ne_true (hmem.1 h)

structure Orderly (a : Elements) (unmarked : Element → Bool) : Prop where
  consistent : a.consistent = true
  placed : ∀ m ∈ a.marks, ∃ e, a.list[m.2]? = some e ∧ m.1 = address a.endAddressed e
  nests : a.spans.Pairwise Span.Nests
  once : ∀ i e, a.list[i]? = some e → (a.marks.map (·.2)).count i = if unmarked e then 0 else 1
  nested : ∀ pos, (a.elementsAt pos).Pairwise fun e f => e.span.Encloses f.span

lemma encloses_of_address {e f : Element} (h : e.span.Nests f.span) (he : e.span.start ≤ e.span.stop)
    (hf : f.span.start ≤ f.span.stop) (haddress : address endAddressed e = address endAddressed f) :
    e.span.Encloses f.span := by
  refine h.resolve_left fun hapart => ?_
  unfold address at haddress
  unfold Span.Apart at hapart
  split at haddress <;> omega

theorem orderly_ofList {unmarked : Element → Bool} (hmarked : ∀ x ∈ es, x.2 = !unmarked x.1)
    (hspans : ∀ e ∈ recorded es, e.span.start ≤ e.span.stop)
    (hnests : (recorded es).Pairwise fun e f => e.span.Nests f.span) :
    (ofList equation endAddressed es).Orderly unmarked := by
  have hplaced : ∀ m ∈ (ofList equation endAddressed es).marks,
      ∃ e, (ofList equation endAddressed es).list[m.2]? = some e ∧ m.1 = address endAddressed e := by
    intro m hm
    obtain ⟨e, hget, hpos⟩ := mem_marks.1 hm
    exact ⟨e, by rw [getElem?_list, hget]; rfl, hpos⟩
  have hpairs : (ofList equation endAddressed es).spans.Pairwise Span.Nests := by
    rw [spans_ofList, List.pairwise_map]
    exact hnests
  refine ⟨consistent_iff.2 ⟨hplaced, hpairs.imp Span.Nests.not_overlaps⟩, hplaced, hpairs, ?_, ?_⟩
  · intro i e he
    rw [getElem?_list, Option.map_eq_some_iff] at he
    obtain ⟨⟨e', marked⟩, hget, rfl⟩ := he
    obtain rfl : marked = !unmarked e' := hmarked _ (List.mem_of_getElem? hget)
    rw [count_marks hget]
    cases unmarked e' <;> rfl
  · intro pos
    rw [elementsAt_ofList]
    refine (hnests.filter _).imp_of_mem fun {e f} he hf h => ?_
    obtain ⟨he, hpos⟩ := List.mem_filter.1 he
    obtain ⟨hf, hpos'⟩ := List.mem_filter.1 hf
    exact encloses_of_address h (hspans e he) (hspans f hf) ((beq_iff_eq.1 hpos).trans (beq_iff_eq.1 hpos').symm)

end Elements

end LandUse
