import LandUse.Proofs.Expansion.Scoping
import LandUse.Proofs.Expansion.Segments

namespace LandUse

open Outcome Direct

namespace Program

variable {p : Program} {entry : IndexEntry}
variable {t : Table} {condition : String} {columns : List String} {rows group : List Row} {f : Failure}

lemma make_supplied {s : Settings} {memo : Catalog.Memo} (h : make s t condition = .ok (p, memo)) : p.Supplied := by
  obtain ⟨rfl, hcatalog⟩ := make_catalog h
  exact ⟨by rw [hcatalog], by rw [hcatalog], fun v hv => make_numbers h hv⟩

lemma mem_readRows (h : p.readRows entry = .ok rows) {row : Row} (hrow : row ∈ rows) :
    ∃ cells, p.catalog.Selected cells ∧ row = Table.readRow (p.catalog.table.cellsOf entry.columns cells) := by
  unfold readRows at h
  split at h
  · cases h
    cases hrow
  · rw [bind_eq_ok] at h
    obtain ⟨order, -, h⟩ := h
    obtain ⟨selected, hs, rfl⟩ := Table.select_eq_ok h
    obtain ⟨cells, hcells, rfl⟩ := List.mem_map.1 hrow
    exact ⟨cells, ⟨selected, hs, Table.mem_sorted.1 hcells⟩, rfl⟩

lemma ne_nil_of_mem_splitGroups {key : Row → List Value} (h : group ∈ splitGroups key rows) : group ≠ [] := by
  induction rows generalizing group with
  | nil => cases h
  | cons row rows ih =>
    unfold splitGroups at h
    split at h
    · rw [List.mem_singleton.1 h]
      exact List.cons_ne_nil _ _
    · rename_i hs
      exact absurd rfl (ih (hs ▸ List.mem_cons_self))
    · rename_i next more groups hs
      rw [hs] at ih
      split at h
      · rcases List.mem_cons.1 h with rfl | h
        · exact List.cons_ne_nil _ _
        · exact ih (List.mem_cons_of_mem _ h)
      · rcases List.mem_cons.1 h with rfl | h
        · exact List.cons_ne_nil _ _
        · exact ih h

lemma mem_groupRows {free : List String} (h : group ∈ groupRows columns free rows) :
    (∀ row ∈ group, row ∈ rows) ∧ (free ≠ [] → group ≠ []) := by
  unfold groupRows at h
  split at h
  · rename_i hfree
    rw [List.mem_singleton.1 h]
    exact ⟨fun _ h => h, fun hne => absurd (List.isEmpty_iff.1 hfree) hne⟩
  · refine ⟨fun row hrow => ?_, fun _ => ne_nil_of_mem_splitGroups h⟩
    rw [← flatten_splitGroups (project columns free) rows]
    exact List.mem_flatten.2 ⟨group, h, hrow⟩

lemma mem_groupBindings (t : Table) {free : List String} (cells : List Cell) (rows : List Row) {cs : List String}
    (hcs : ∀ c ∈ cs, c ∈ columns) {b : Binding} :
    b ∈ groupBindings columns (free.zip cs) (Table.readRow (t.cellsOf columns cells) :: rows) ↔
      ∃ d c, (d, c) ∈ free.zip cs ∧ b = ⟨d, some (Table.readCell (t.cellOf c cells))⟩ := by
  unfold groupBindings
  rw [List.mem_filterMap]
  constructor
  · rintro ⟨⟨d, c⟩, hmem, hb⟩
    obtain ⟨i, hi, hget⟩ := readRow_findIdx? t cells (hcs c (List.of_mem_zip hmem).2)
    dsimp only at hb
    rw [hi, Option.bind_some, hget] at hb
    cases hb
    exact ⟨d, c, hmem, rfl⟩
  · rintro ⟨d, c, hmem, rfl⟩
    obtain ⟨i, hi, hget⟩ := readRow_findIdx? t cells (hcs c (List.of_mem_zip hmem).2)
    refine ⟨(d, c), hmem, ?_⟩
    dsimp only
    rw [hi, Option.bind_some, hget]
    rfl

lemma columnsOf_eq (hp : p.Supplied) {dims : List String}
    (hdims : ∀ d ∈ dims, d ≠ optionsDimension ∧ ∃ column, p.settings.dimensions.get? d = some column ∧
      column ∈ columns) :
    ∃ cs, columnsOf p.catalog dims = .ok cs ∧
      List.Forall₂ (fun d c => d ≠ optionsDimension ∧ p.catalog.columns.get? d = some c ∧ c ∈ columns) dims cs := by
  induction dims with
  | nil => exact ⟨[], rfl, .nil⟩
  | cons d dims ih =>
    obtain ⟨⟨hne, c, hget, hmem⟩, hdims⟩ := List.forall_mem_cons.1 hdims
    obtain ⟨cs, hcs, hall⟩ := ih hdims
    rw [← hp.columns] at hget
    refine ⟨c :: cs, ?_, .cons ⟨hne, hget, hmem⟩ hall⟩
    unfold columnsOf at hcs ⊢
    rw [List.mapM_cons, resolve_eq hne hget, ok_bind, hcs]
    rfl

lemma holds_group (hp : p.Supplied) (hcovers : p.Covers entry) {base : Frame}
    (hbase : ∀ b ∈ base.bindings, ∃ d, p.catalog.resolve b.dim = .ok d) (hrows : p.readRows entry = .ok rows)
    {cs : List String} (hcs : columnsOf p.catalog entry.free = .ok cs)
    (hgroup : group ∈ groupRows entry.columns cs rows) :
    Frame.Holds p entry.columns entry.free []
      ⟨entry.name, base.bindings ++ groupBindings entry.columns (entry.free.zip cs) group, group⟩ := by
  obtain ⟨hsub, hne⟩ := mem_groupRows hgroup
  obtain ⟨cs', hcs', hfree⟩ := columnsOf_eq hp fun d hd => hcovers.sorted d (List.mem_append_left _ hd)
  obtain rfl : cs' = cs := Except.ok.inj (hcs'.symm.trans hcs)
  obtain ⟨hlength, hpair⟩ := List.forall₂_iff_zip.1 hfree
  have hcolumns : ∀ c ∈ cs', c ∈ entry.columns := by
    intro c hc
    rw [← List.map_snd_zip (Nat.le_of_eq hlength.symm), List.mem_map] at hc
    obtain ⟨⟨d, c⟩, hmem, rfl⟩ := hc
    exact (hpair hmem).2.2
  have hmember : ∀ b ∈ groupBindings entry.columns (entry.free.zip cs') group,
      ∃ v, b.value = some v ∧ p.catalog.Occurs b.dim v ∧ ∃ d, p.catalog.resolve b.dim = .ok d := by
    intro b hb
    cases group with
    | nil => cases hb
    | cons row group =>
      obtain ⟨cells, hsel, rfl⟩ := mem_readRows hrows (hsub row List.mem_cons_self)
      obtain ⟨d, c, hmem, rfl⟩ := (mem_groupBindings p.catalog.table cells group hcolumns).1 hb
      obtain ⟨hd, hget, -⟩ := hpair hmem
      exact ⟨_, rfl, .cell hd hget hsel, _, resolve_eq hd hget⟩
  refine ⟨fun row hrow => mem_readRows hrows (hsub row hrow), fun d hd => ?_, fun b hb => ?_⟩
  · have hd : d ∈ entry.free := hd.resolve_left (nomatch ·)
    have hne : group ≠ [] := hne fun h => by
      rw [h, List.length_nil, List.length_eq_zero_iff] at hlength
      rw [hlength] at hd
      cases hd
    obtain ⟨row, group, rfl⟩ := List.exists_cons_of_ne_nil hne
    obtain ⟨cells, -, rfl⟩ := mem_readRows hrows (hsub row List.mem_cons_self)
    rw [← List.map_fst_zip (Nat.le_of_eq hlength), List.mem_map] at hd
    obtain ⟨⟨d, c⟩, hmem, rfl⟩ := hd
    have hb := (mem_groupBindings p.catalog.table cells group hcolumns).2 ⟨d, c, hmem, rfl⟩
    -- The innermost of the bindings of a dimension counts, whichever it is.
    have hsome := List.find?_isSome (p := fun b : Binding => b.dim == d).2 ⟨_, List.mem_reverse.2 hb,
      beq_self_eq_true d⟩
    obtain ⟨b, hfind⟩ := Option.isSome_iff_exists.1 hsome
    obtain ⟨v, hv, hoccurs, -⟩ := hmember b (List.mem_reverse.1 (List.mem_of_find?_eq_some hfind))
    have hdim : (b.dim == d) = true := List.find?_some (p := fun b : Binding => b.dim == d) hfind
    have hdim : b.dim = d := beq_iff_eq.1 hdim
    refine ⟨v, ?_, hdim ▸ hoccurs⟩
    refine (Frame.binding?_append ⟨entry.name, base.bindings, _⟩ _ d).trans ?_
    rw [hfind, Option.map_some, hv, Option.some_or]
  · rcases List.mem_append.1 hb with hb | hb
    · exact hbase b hb
    · exact (hmember b hb).choose_spec.2.2

lemma harmless_select {orderBy : List String} (h : t.select columns condition orderBy = .error f) :
    p.Harmless (.failure f) := by
  rcases Table.select_eq_error h with ⟨column, -, -, rfl⟩ | ⟨message, rfl⟩
  · rw [String.append_assoc, String.append_assoc]
    exact harmless_lookup_start (by decide) (by decide) (by decide)
  · exact harmless_access _ none

lemma readRows_eq_error (hp : p.Supplied) (hcovers : p.Covers entry) (h : p.readRows entry = .error f) :
    ∃ order, order ⊆ entry.columns ∧ p.catalog.table.select entry.columns p.catalog.condition order = .error f := by
  obtain ⟨cs, hcs, hall⟩ := columnsOf_eq hp hcovers.sorted
  unfold readRows at h
  split at h
  · cases h
  · rw [hcs] at h
    have hmem := (List.forall₂_and_left cs _).mp (hall.flip.imp fun _ _ h => ⟨h.2.2, h.1⟩)
    exact ⟨cs, hmem.1, h⟩

lemma groupsOf_eq_error {α : Type} (hp : p.Supplied) (hi : p.Indexed) {name : String} {template : Segment α}
    (h : p.groupsOf name template = .error f) : p.index.entry name = .error f ∨
      f = .lookup name (-1) ("unknown equation " ++ name) ∨ (∃ s, f = .dimension name (s ++ "]")) ∨
      ∃ entry order, p.index.entry name = .ok entry ∧ order ⊆ entry.columns ∧
        p.catalog.table.select entry.columns p.catalog.condition order = .error f := by
  unfold groupsOf at h
  cases hentry : p.index.entry name with
  | error f' =>
    rw [hentry] at h
    cases h
    exact .inl rfl
  | ok entry =>
    have hcovers := hi.covers hentry
    obtain ⟨cs, hcs, -⟩ := columnsOf_eq hp fun d hd => hcovers.sorted d (List.mem_append_left _ hd)
    have hrest : ∀ {β : Type} {F : List Row → List String → β}, (do
        let rows ← p.readRows entry
        let columns ← columnsOf p.catalog entry.free
        return F rows columns : Except Failure β) = .error f →
        ∃ entry' order, (Except.ok entry : Except Failure IndexEntry) = .ok entry' ∧ order ⊆ entry'.columns ∧
          p.catalog.table.select entry'.columns p.catalog.condition order = .error f := by
      intro β F h
      rcases bind_eq_error.1 h with h | ⟨rows, -, h⟩
      · obtain ⟨order, hsub, h⟩ := readRows_eq_error hp hcovers h
        exact ⟨entry, order, rfl, hsub, h⟩
      · rw [hcs] at h
        cases h
    right
    rw [hentry, ok_bind] at h
    split at h
    · cases h
      exact .inl rfl
    · right
      dsimp only at h
      split at h
      · split at h
        · cases h
          exact .inl ⟨_, rfl⟩
        · exact .inr (hrest h)
      · exact .inr (hrest h)

lemma harmless_groupsOf {α : Type} (hp : p.Supplied) (hi : p.Indexed) {name : String} {template : Segment α}
    (h : p.groupsOf name template = .error f) : p.Harmless (.failure f) := by
  rcases groupsOf_eq_error hp hi h with h | rfl | ⟨s, rfl⟩ | ⟨_, _, -, -, h⟩
  · unfold Index.entry at h
    split at h <;> cases h
    rw [String.append_assoc]
    exact harmless_lookup_start (by decide) (by decide) (by decide)
  · exact harmless_lookup_start (by decide) (by decide) (by decide)
  · -- The list of dimensions may be short, but it stands in brackets.
    have hlast : ∀ l : List Char, 'd' :: l ≠ (s ++ "]").toList.reverse.take 5 := by
      intro l h
      rw [String.toList_append, List.reverse_append] at h
      cases h
    exact harmless_dimension (fun h => hlast _ h.symm) (fun h => hlast _ h.symm)
  · exact harmless_select h

end Program

variable {α σ : Type} [Scalar α]

lemma harmless_sendsAll {p : Program} (hp : p.Supplied) (hi : p.Indexed) {depth : Nat} {sink : Sink α σ}
    {entry : IndexEntry}
    (hcovers : p.Covers entry) {template : Segment α} {base : Frame} {groups : List (List Binding × List Row)}
    (hgroups : ∀ group ∈ groups, Frame.Holds p entry.columns entry.free []
      ⟨entry.name, base.bindings ++ group.1, group.2⟩) {g g' : Generation σ} {outcome : Except Fault Unit}
    (h : SendsAll p depth sink entry template base groups g outcome g') {e : Fault} (he : outcome = .error e) :
    (∃ state segment emitted, (sink.receive state segment emitted true).1 = .error e) ∨ p.Harmless e := by
  have hsends : ∀ {group g₁ r g₂}, Frame.Holds p entry.columns entry.free []
    ⟨entry.name, base.bindings ++ group.1, group.2⟩ →
      Sends p depth sink entry template base group g₁ r g₂ → r = .error e →
      (∃ state segment emitted, (sink.receive state segment emitted true).1 = .error e) ∨ p.Harmless e := by
    intro group g₁ r g₂ hframe hsend hr
    obtain ⟨d, hd⟩ := hcovers.equation
    cases hsend with
    | complete _ _ hreceive _ =>
      left
      exact ⟨_, _, _, congrArg Prod.fst hreceive |>.trans hr⟩
    | failed hexpand _ _ =>
      right
      cases hr
      exact fails_expandEquation hp hi depth hd hframe _ e (congrArg Prod.fst hexpand)
  induction h with
  | nil => cases he
  | cons _ _ ih => exact ih (fun group hgroup => hgroups group (List.mem_cons_of_mem _ hgroup)) he
  | stop hsend => exact hsends (hgroups _ List.mem_cons_self) hsend he

def unitCosts : Settings where
  options := ["forest", "arable"]
  dimensions := [("UNIT", "unit")]
  parameters := [("cost", ⟨"cost", ["cost"], none, 1, []⟩)]
  equations := [("near", "sum\x7bOPTIONS\x7d(X[UNIT][OPTIONS] - X[UNIT][1]) * cost"), ("far", "sum\x7bUNIT\x7d(near)")]
  decisions := [⟨"X", ["UNIT", "OPTIONS"], 0, 1, true, .real⟩]

def silentSink : Sink Float Unit where
  receive _ _ _ _ := (.ok (), ())

def farSegment : Segment Float := ⟨"far", .constraint .le 0, []⟩

def unitTable : Except Failure Table := Table.create "units" [⟨"unit", .text⟩, ⟨"cost", .text⟩]
  [[some (.text "a"), some (.text "low")]]

end LandUse
