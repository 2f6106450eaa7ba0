import LandUse.Proofs.Table.Stored
import LandUse.Proofs.Expansion.References

namespace LandUse

open Outcome

namespace Failure

def IsUnbound (f : Failure) : Prop :=
  ∃ equation name dim, f = .dimension equation (name ++ "[" ++ dim ++ "]: dimension " ++ dim ++ " is not bound")

def IsUnread (f : Failure) : Prop :=
  (∃ equation column dim,
    f = .dimension equation ("column " ++ column ++ " of dimension " ++ dim ++ " has not been read")) ∨
  ∃ equation column name,
    f = .lookup equation (-1) ("column " ++ column ++ " of parameter " ++ name ++ " has not been read")

def IsMissingVariable (f : Failure) : Prop := ∃ text, f = .lookup "" (-1) ("no decision variable " ++ text)

end Failure

def Settings.Selects (s : Settings) (dim : String) : Subscript → Prop
  | .dim _ name => name = dim
  | .option _ _ index | .index _ index _ => dim = optionsDimension ∧ index < s.options.length

instance (s : Settings) (dim : String) (sub : Subscript) : Decidable (s.Selects dim sub) :=
  match sub with
  | .dim .. => inferInstanceAs (Decidable (_ = _))
  | .option .. | .index .. => inferInstanceAs (Decidable (_ ∧ _))

def CodeToken.Subscripted (s : Settings) : CodeToken → Prop
  | .param name true subs => ∃ v ∈ s.decisions, v.name = name ∧ List.Forall₂ s.Selects v.dimensions subs
  | _ => True

instance (s : Settings) (token : CodeToken) : Decidable (token.Subscripted s) :=
  match token with
  | .param _ true _ => inferInstanceAs (Decidable (∃ _ ∈ _, _ ∧ _))
  | .param _ false _ | .number .. | .operation .. | .list .. | .loop .. | .equation .. =>
    inferInstanceAs (Decidable True)

namespace Program

def Subscripted (p : Program) : Prop := ∀ c ∈ p.codes, ∀ token ∈ c.2.tokens, token.Subscripted p.settings

instance (p : Program) : Decidable p.Subscripted := inferInstanceAs (Decidable (∀ _ ∈ _, _))

def Harmless (p : Program) (e : Fault) : Prop :=
  ∀ f, e = .failure f →
    ¬ f.IsUnbound ∧ ¬ f.IsUnread ∧ (p.catalog.table.Proper → p.Subscripted → ¬ f.IsMissingVariable)

variable {p : Program}

section Messages

lemma start_append {a : String} (s : String) {n : Nat} (h : n ≤ a.toList.length) :
    (a ++ s).toList.take n = a.toList.take n := by
  rw [String.toList_append, List.take_append_of_le_length h]

lemma ending_append (s : String) {a : String} {n : Nat} (h : n ≤ a.toList.length) :
    (s ++ a).toList.reverse.take n = a.toList.reverse.take n := by
  rw [String.toList_append, List.reverse_append, List.take_append_of_le_length (by rwa [List.length_reverse])]

lemma harmless_violation : p.Harmless .violation := fun _ h => nomatch h

lemma harmless_access (message : String) (inner : Option String) : p.Harmless (.failure (.access message inner)) := by
  rintro _ ⟨⟩
  refine ⟨?_, ?_, fun _ _ => ?_⟩
  · rintro ⟨_, _, _, h⟩
    cases congrArg Failure.kind h
  · rintro (⟨_, _, _, h⟩ | ⟨_, _, _, h⟩) <;> cases congrArg Failure.kind h
  · rintro ⟨_, h⟩
    cases congrArg Failure.kind h

lemma harmless_lookup {equation message : String} {offset : Int} (hc : message.toList.take 4 ≠ "colu".toList)
    (hn : message.toList.take 4 ≠ "no d".toList) : p.Harmless (.failure (.lookup equation offset message)) := by
  rintro _ ⟨⟩
  refine ⟨?_, ?_, fun _ _ => ?_⟩
  · rintro ⟨_, _, _, h⟩
    cases congrArg Failure.kind h
  · rintro (⟨_, _, _, h⟩ | ⟨_, column, name, h⟩)
    · cases congrArg Failure.kind h
    · obtain rfl : message = _ := congrArg Failure.message h
      refine hc ?_
      dsimp only [Failure.lookup]
      rw [String.append_assoc, String.append_assoc, String.append_assoc, start_append _ (by decide)]
      decide
  · rintro ⟨text, h⟩
    obtain rfl : message = _ := congrArg Failure.message h
    exact hn ((start_append text (by decide)).trans (by decide))

lemma harmless_dimension {equation message : String} (hb : message.toList.reverse.take 5 ≠ "dnuob".toList)
    (hr : message.toList.reverse.take 5 ≠ "daer ".toList) : p.Harmless (.failure (.dimension equation message)) := by
  rintro _ ⟨⟩
  refine ⟨?_, ?_, fun _ _ => ?_⟩
  · rintro ⟨_, name, dim, h⟩
    obtain rfl : message = _ := congrArg Failure.message h
    exact hb ((ending_append _ (by decide)).trans (by decide))
  · rintro (⟨_, column, dim, h⟩ | ⟨_, _, _, h⟩)
    · obtain rfl : message = _ := congrArg Failure.message h
      exact hr ((ending_append _ (by decide)).trans (by decide))
    · cases congrArg Failure.kind h
  · rintro ⟨text, h⟩
    cases congrArg Failure.kind h

lemma harmless_dimension_ending {equation s a : String} (ha : 5 ≤ a.toList.length)
    (hb : a.toList.reverse.take 5 ≠ "dnuob".toList) (hr : a.toList.reverse.take 5 ≠ "daer ".toList) :
    p.Harmless (.failure (.dimension equation (s ++ a))) :=
  harmless_dimension (by rwa [ending_append s ha]) (by rwa [ending_append s ha])

lemma harmless_lookup_start {equation a s : String} {offset : Int} (ha : 4 ≤ a.toList.length)
    (hc : a.toList.take 4 ≠ "colu".toList) (hn : a.toList.take 4 ≠ "no d".toList) :
    p.Harmless (.failure (.lookup equation offset (a ++ s))) :=
  harmless_lookup (by rwa [start_append s ha]) (by rwa [start_append s ha])

end Messages

end Program

namespace Catalog

variable {c : Catalog}

def IsAccess (f : Failure) : Prop := ∃ message, f = .access message none

lemma restricting_ok (dim : String) {bs : List Binding} (h : ∀ b ∈ bs, ∃ d, c.resolve b.dim = .ok d) :
    ∃ r, c.restricting dim bs = .ok r := by
  induction bs with
  | nil => exact ⟨_, rfl⟩
  | cons b bs ih =>
    obtain ⟨⟨d, hd⟩, hbs⟩ := List.forall_mem_cons.1 h
    obtain ⟨r, hr⟩ := ih hbs
    rw [restricting, hd, ok_bind]
    split
    · exact ⟨_, rfl⟩
    · rw [hr, ok_bind]
      exact ⟨_, rfl⟩

lemma access_of_aggregate {t : Table} {query condition : String} {f : Failure}
    (h : t.aggregate query condition = .error f) : IsAccess f := by
  unfold Table.aggregate at h
  split at h <;> cases h
  exact ⟨_, rfl⟩

lemma fails_length {dim : String} (h : ∃ d, c.resolve dim = .ok d) : Fails IsAccess (c.length dim) := by
  obtain ⟨⟨d, column?⟩, hd⟩ := h
  unfold length
  rw [hd]
  refine (fails_liftM fun _ h => nomatch h).bind fun _ d hd => ?_
  cases hd
  cases column? with
  | none => exact fails_pure _
  | some column =>
    refine fails_get.bind fun _ m _ => ?_
    split
    · exact fails_pure _
    · refine (fails_liftM fun f hf => ?_).bind fun _ _ _ => (fails_modify _).bind fun _ _ _ => fails_pure _
      rcases bind_eq_error.1 hf with hf | ⟨_, -, hf⟩
      · exact access_of_aggregate hf
      · cases hf

lemma fails_loadLevel (dim column : String) (bound : List Binding) : Fails IsAccess (c.loadLevel dim column bound) := by
  unfold loadLevel
  refine fails_get.bind fun _ m _ => ?_
  dsimp only
  split
  · refine (fails_liftM fun f hf => ?_).bind fun _ _ _ => fails_modify _
    rcases bind_eq_error.1 hf with hf | ⟨_, -, hf⟩
    · exact access_of_aggregate hf
    · cases hf
  · exact fails_pure _

lemma fails_cascade (dim column : String) (outer inner : List Binding) :
    Fails IsAccess (c.cascade dim column outer inner) := by
  induction inner generalizing outer with
  | nil => exact fails_pure _
  | cons b inner ih =>
    unfold cascade
    refine (fails_loadLevel dim column _).bind fun _ _ _ => fails_get.bind fun _ m _ => ?_
    split
    · exact fails_pure _
    · exact fails_pure _
    · split
      · exact fails_pure _
      · exact ih _

lemma fails_conditionalLength {dim : String} {outer : List Binding} (h : ∃ d, c.resolve dim = .ok d)
    (houter : ∀ b ∈ outer, ∃ d, c.resolve b.dim = .ok d) : Fails IsAccess (c.conditionalLength dim outer) := by
  obtain ⟨⟨d, column?⟩, hd⟩ := h
  obtain ⟨r, hr⟩ := restricting_ok dim houter
  unfold conditionalLength
  rw [hd, hr]
  refine (fails_liftM fun _ h => nomatch h).bind fun _ d' hd' => ?_
  cases hd'
  cases column? with
  | none => exact fails_pure _
  | some column =>
    refine (fails_liftM fun _ h => nomatch h).bind fun _ r' hr' => ?_
    split
    · exact fails_pure _
    · exact fails_length ⟨_, hd⟩
    · exact fails_cascade dim column [] _

end Catalog

end LandUse
