import LandUse.Proofs.Expansion.Splitting

namespace LandUse

open Outcome

structure Frame.Scoped (c : Catalog) (columns : List String) (read : List (List Cell)) (frame : Frame) : Prop where
  rows : frame.rows = (read.filter (c.fits frame.bindings)).map (c.readColumns columns)
  bound : ∀ b ∈ frame.bindings, c.Bound read b ∧ ∃ d, c.resolve b.dim = .ok d
  nonempty : (∃ b ∈ frame.bindings, c.OfTable b.dim) → frame.rows ≠ []

namespace Program

section Loops

variable {c : Catalog} {rows read : List (List Cell)} (ht : c.table.Proper) (hk : c.Keyed) (hread : c.Reads rows read)
  {columns : List String} {frame : Frame} {dim : String} {i : Nat}

lemma getElem?_readColumns (hi : columns.findIdx? (· == c.columnOf dim) = some i) (cells : List Cell) :
    (c.readColumns columns cells)[i]? = some (Table.readCell (c.cell dim cells)) := by
  have hmem : c.columnOf dim ∈ columns := by
    obtain ⟨hlt, heq, -⟩ := List.findIdx?_eq_some_iff_getElem.1 hi
    exact beq_iff_eq.1 heq ▸ List.getElem_mem hlt
  obtain ⟨j, hj, hget⟩ := readRow_findIdx? c.table cells hmem
  obtain rfl : j = i := Option.some.inj (hj.symm.trans hi)
  exact hget

include hk hread in
lemma getElem?_cell (hdim : c.OfTable dim) (hi : columns.findIdx? (· == c.columnOf dim) = some i) {cells : List Cell}
    (hcells : cells ∈ read) : (c.readColumns columns cells)[i]? = c.cell dim cells := by
  obtain ⟨v, hv, -⟩ := Catalog.exists_cell hk hread.selected hdim ((hread.mem cells).1 hcells)
  rw [getElem?_readColumns hi, hv]
  rfl

include hread in
lemma bound_rows {b : Binding} (hb : c.Bound read b) : c.Bound rows b :=
  ⟨hb.plain, fun h => (hb.value h).imp fun cells hc => ⟨(hread.mem cells).1 hc.1, hc.2⟩⟩

include ht hk hread

lemma length_groupBy (hframe : frame.Scoped c columns read) (hdim : c.OfTable dim)
    (hi : columns.findIdx? (· == c.columnOf dim) = some i) :
    c.among rows dim frame.bindings = (groupBy i frame.rows).length := by
  have hgroups := groups_groupBy i frame.rows
  have hrows := hread.selected
  -- An iteration is found by the cell of a row that it comes from.
  have hfrom : ∀ it ∈ groupBy i frame.rows, ∃ cells ∈ rows, c.fits frame.bindings cells = true ∧
      c.cell dim cells = some it.value := by
    intro it hit
    obtain ⟨row, hrow, hvalue⟩ := hgroups.value it hit
    rw [hframe.rows] at hrow
    obtain ⟨cells, hcells, rfl⟩ := List.mem_map.1 hrow
    obtain ⟨hcells, hfits⟩ := List.mem_filter.1 hcells
    rw [getElem?_cell hk hread hdim hi hcells] at hvalue
    exact ⟨cells, (hread.mem cells).1 hcells, hfits, hvalue⟩
  refine (Table.countDistinctCells_eq ?_ ?_ ?_ fun r => ?_ : _ =
    ((groupBy i frame.rows).map fun it => Cell.rank (some it.value)).length).trans (List.length_map _)
  · rw [List.forall_mem_map]
    exact fun x hx => Catalog.proper_cell ht hrows dim (List.mem_of_mem_filter hx)
  · rw [List.forall_mem_map]
    intro x hx
    obtain ⟨v, hv, -⟩ := Catalog.exists_cell hk hrows hdim (List.mem_of_mem_filter hx)
    rw [hv]
    rfl
  · have hnodup := hgroups.nodup
    rw [List.Nodup, List.pairwise_map] at hnodup ⊢
    refine hnodup.imp_of_mem fun {a b} ha hb hne hrank => hne ?_
    obtain ⟨cells, hcells, -, hcell⟩ := hfrom a ha
    obtain ⟨cells', hcells', -, hcell'⟩ := hfrom b hb
    rw [← hcell, ← hcell'] at hrank
    have hkey := (Catalog.key_eq_iff ht hk hrows hdim hcells hcells').2 hrank
    rw [hcell, hcell'] at hkey
    exact hkey
  · rw [List.mem_map]
    constructor
    · rintro ⟨it, hit, rfl⟩
      obtain ⟨cells, hcells, hfits, hcell⟩ := hfrom it hit
      exact ⟨c.cell dim cells, List.mem_map_of_mem (List.mem_filter.2 ⟨hcells, hfits⟩), by rw [hcell]⟩
    · rintro ⟨x, hx, rfl⟩
      obtain ⟨cells, hcells, rfl⟩ := List.mem_map.1 hx
      obtain ⟨hcells, hfits⟩ := List.mem_filter.1 hcells
      have hcells' := (hread.mem cells).2 hcells
      obtain ⟨v, hv, -⟩ := Catalog.exists_cell hk hrows hdim hcells
      have hmem : c.readColumns columns cells ∈ frame.rows := by
        rw [hframe.rows]
        exact List.mem_map_of_mem (List.mem_filter.2 ⟨hcells', hfits⟩)
      have hkey := hgroups.all _ hmem v ((getElem?_cell hk hread hdim hi hcells').trans hv)
      obtain ⟨it, hit, hitkey⟩ := List.mem_map.1 hkey
      obtain ⟨cells₁, hcells₁, -, hcell₁⟩ := hfrom it hit
      refine ⟨it, hit, ?_⟩
      rw [← hcell₁]
      refine (Catalog.key_eq_iff ht hk hrows hdim hcells₁ hcells).1 ?_
      rw [hcell₁, hv]
      exact hitkey

lemma scoped_iteration (hframe : frame.Scoped c columns read) (hplain : PlainName dim) (hdim : c.OfTable dim)
    (hresolve : ∃ d, c.resolve dim = .ok d) (hi : columns.findIdx? (· == c.columnOf dim) = some i) {it : Iteration}
    (hit : it ∈ groupBy i frame.rows) :
    ({ frame with rows := it.rows }.bind dim (some it.value)).Scoped c columns read := by
  have hgroups := groups_groupBy i frame.rows
  have hrows := hread.selected
  obtain ⟨row, hrow, hvalue⟩ := hgroups.value it hit
  have hmem := hrow
  rw [hframe.rows] at hmem
  obtain ⟨cells, hcells, rfl⟩ := List.mem_map.1 hmem
  have hcells' := List.mem_of_mem_filter hcells
  rw [getElem?_cell hk hread hdim hi hcells'] at hvalue
  have hbound : c.Bound read ⟨dim, some it.value⟩ := ⟨hplain, fun _ => ⟨cells, hcells', hvalue.symm⟩⟩
  have hself : Program.hasKey i it.key (c.readColumns columns cells) = true := by
    rw [hasKey, getElem?_cell hk hread hdim hi hcells', hvalue]
    exact beq_self_eq_true it.key
  refine ⟨?_, fun b hb => ?_, fun _ => ?_⟩
  · show it.rows = (read.filter (c.fits (frame.bindings ++ [⟨dim, some it.value⟩]))).map _
    rw [hgroups.filtered it hit, hframe.rows, List.filter_map, List.filter_filter]
    refine congrArg (List.map (c.readColumns columns)) (List.filter_congr fun x hx => ?_)
    have hx' := (hread.mem x).1 hx
    obtain ⟨v, hv, -⟩ := Catalog.exists_cell hk hrows hdim hx'
    have hsame : hasKey i it.key (c.readColumns columns x) = c.fits [⟨dim, some it.value⟩] x := by
      rw [Bool.eq_iff_iff, Catalog.fits_iff ht hrows (List.forall_mem_singleton.2 (bound_rows hread hbound)) hx']
      rw [hasKey, getElem?_cell hk hread hdim hi hx, hv, Option.any_some, beq_iff_eq, List.forall_mem_singleton]
      have hiff := Catalog.key_eq_iff ht hk hrows hdim hx' ((hread.mem cells).1 hcells')
      rw [hvalue, hv] at hiff
      show v.key = it.value.key ↔ (c.OfTable dim → (c.cell dim x).rank = Cell.rank (some it.value))
      rw [hv]
      exact ⟨fun h _ => hiff.1 h, fun h => hiff.2 (h hdim)⟩
    rw [Catalog.fits_append, Function.comp_apply, hsame, Bool.and_comm]
  · rcases List.mem_append.1 hb with hb | hb
    · exact hframe.bound b hb
    · rw [List.mem_singleton.1 hb]
      exact ⟨hbound, hresolve⟩
  · show it.rows ≠ []
    rw [hgroups.filtered it hit]
    exact List.ne_nil_of_mem (List.mem_filter.2 ⟨hrow, hself⟩)

end Loops

lemma plain_options : PlainName optionsDimension := by
  have hname : optionsDimension.toList = ['O', 'P', 'T', 'I', 'O', 'N', 'S'] := rfl
  unfold PlainName zeroChar
  rw [hname]
  simp

lemma scoped_option {c : Catalog} {columns : List String} {read : List (List Cell)} {frame : Frame}
    (hframe : frame.Scoped c columns read) (v : Cell) : (frame.bind optionsDimension v).Scoped c columns read := by
  have hnone : c.column? optionsDimension = none := if_pos rfl
  have hfits : c.fits (frame.bindings ++ [⟨optionsDimension, v⟩]) = c.fits frame.bindings := by
    funext cells
    rw [Catalog.fits_append]
    simp [Catalog.fits, hnone]
  refine ⟨?_, fun b hb => ?_, fun hbound => ?_⟩
  · show frame.rows = (read.filter (c.fits (frame.bindings ++ [⟨optionsDimension, v⟩]))).map _
    rw [hfits]
    exact hframe.rows
  · rcases List.mem_append.1 hb with hb | hb
    · exact hframe.bound b hb
    · rw [List.mem_singleton.1 hb]
      refine ⟨⟨plain_options, fun h => ?_⟩, _, if_pos (beq_self_eq_true _)⟩
      rw [Catalog.OfTable, hnone] at h
      cases h
  · obtain ⟨b, hb, hdim⟩ := hbound
    rcases List.mem_append.1 hb with hb | hb
    · exact hframe.nonempty ⟨b, hb, hdim⟩
    · rw [List.mem_singleton.1 hb, Catalog.OfTable, hnone] at hdim
      cases hdim

section Groups

variable {c : Catalog} {columns free : List String}

variable {rows read : List (List Cell)} (ht : c.table.Proper) (hk : c.Keyed) (hread : c.Reads rows read)
include ht hk hread

lemma scoped_group (hplain : ∀ d ∈ free, PlainName d) (hresolve : ∀ d ∈ free, ∃ dim, c.resolve d = .ok dim)
    (htable : ∀ d ∈ free, c.OfTable d) (hfree : ∀ d ∈ free, c.columnOf d ∈ columns)
    (hsorted : read.Pairwise fun a b => (free.map fun d => (c.cell d a).rank) ≤ free.map fun d => (c.cell d b).rank)
    (equation : String) {group : List Row}
    (hgroup : group ∈ groupRows columns (free.map c.columnOf) (read.map (c.readColumns columns))) :
    Frame.Scoped c columns read
      ⟨equation, groupBindings columns (free.zip (free.map c.columnOf)) group, group⟩ := by
  unfold groupRows at hgroup
  rw [List.isEmpty_map] at hgroup
  split at hgroup
  case isTrue hempty =>
    rw [List.isEmpty_iff.1 hempty, List.mem_singleton.1 hgroup]
    refine ⟨?_, ?_, ?_⟩ <;> dsimp only [List.map_nil, List.zip_nil_left] <;> rw [groupBindings_nil]
    · exact congrArg _ (List.filter_eq_self.2 fun _ _ => rfl).symm
    · exact nofun
    · rintro ⟨b, hb, -⟩
      cases hb
  case isFalse hne =>
    obtain ⟨heads, htuples, hgroups⟩ := groups_tuples ht hread (fun d hd => hk.keyedAt (htable d hd)) hplain
      htable hfree hsorted
    obtain ⟨a, ha, heq⟩ := List.mem_map.1 (hgroups ▸ List.mem_map_of_mem hgroup)
    obtain ⟨hbindings, hrows⟩ := Prod.mk.inj heq
    rw [← hbindings, ← hrows]
    have hmem : a ∈ read := htuples.sublist.subset ha
    have hbound : ∀ b ∈ c.tupleOf free a, c.Bound read b := Catalog.bound_tupleOf hplain hmem
    refine ⟨rfl, fun b hb => ⟨hbound b hb, ?_⟩, fun _ hnil => ?_⟩
    · obtain ⟨d, hd, rfl⟩ := List.mem_map.1 hb
      exact hresolve d hd
    · have hself := (fits_tupleOf_iff ht hread hplain htable hmem hmem).2 rfl
      exact List.ne_nil_of_mem (List.mem_map_of_mem (List.mem_filter.2 ⟨hmem, hself⟩)) hnil

end Groups

end Program

end LandUse
