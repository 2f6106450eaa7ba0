import LandUse.Proofs.Catalog.Keys
import LandUse.Proofs.Expansion.Instances
import Mathlib.Data.List.Dedup

/-! Lengths of dimensions under bindings, whatever has been looked up before. -/

namespace LandUse

open Outcome

namespace Table

open Cell

lemma countDistinctCells_eq {cells : List Cell} (hproper : ∀ x ∈ cells, x.Proper) (hfull : ∀ x ∈ cells, x.isSome = true)
    {ranks : List Rank} (hnodup : ranks.Nodup) (hmem : ∀ r, r ∈ ranks ↔ ∃ x ∈ cells, x.rank = r) :
    countDistinctCells cells = ranks.length := by
  unfold countDistinctCells
  rw [List.filter_eq_self.2 hfull]
  refine (length_distinctTuples ?_ (hnodup.map List.singleton_injective) fun r => ?_).trans (List.length_map _)
  · intro x hx
    obtain ⟨cell, hcell, rfl⟩ := List.mem_map.1 hx
    exact List.forall_mem_singleton.2 (hproper cell hcell)
  · rw [List.mem_map]
    constructor
    · rintro ⟨r, hr, rfl⟩
      obtain ⟨x, hx, rfl⟩ := (hmem r).1 hr
      exact ⟨[x], List.mem_map_of_mem hx, rfl⟩
    · rintro ⟨y, hy, rfl⟩
      obtain ⟨x, hx, rfl⟩ := List.mem_map.1 hy
      exact ⟨x.rank, (hmem _).2 ⟨x, hx, rfl⟩, rfl⟩

end Table

namespace Catalog

variable (c : Catalog)

def column? (dim : String) : Option String := if dim = optionsDimension then none else c.columns.get? dim

def OfTable (dim : String) : Prop := (c.column? dim).isSome = true

def cell (dim : String) (cells : List Cell) : Cell := c.table.cellOf (c.columnOf dim) cells

def fits (bindings : List Binding) (cells : List Cell) : Bool :=
  bindings.all fun b => (c.column? b.dim).all fun column => (c.table.cellOf column cells).order b.value == .eq

/-- No selected cell of a dimension is empty or has a zero character, and keys tell apart what the order does. -/
structure Keyed : Prop where
  full : ∀ dim column, c.columns.get? dim = some column → ∀ cells, c.Selected cells →
    ∃ v, c.table.cellOf column cells = some v ∧ ∀ s, v = .text s → Number.Visible s
  distinct : ∀ dim column, c.columns.get? dim = some column → ∀ cells cells', c.Selected cells → c.Selected cells' →
    (c.table.cellOf column cells).key = (c.table.cellOf column cells').key →
    (c.table.cellOf column cells).order (c.table.cellOf column cells') = .eq

structure KeyedAt (dim : String) : Prop where
  full : ∀ cells, c.Selected cells → ∃ v, c.cell dim cells = some v
  distinct : ∀ cells cells', c.Selected cells → c.Selected cells' → (c.cell dim cells).key = (c.cell dim cells').key →
    (c.cell dim cells).order (c.cell dim cells') = .eq

variable {c}
variable {dim : String}

lemma eq_of_resolve {d : Dimension} (h : c.resolve dim = .ok d) : d = ⟨dim, c.column? dim⟩ := by
  unfold resolve at h
  unfold column?
  by_cases hdim : dim = optionsDimension
  · rw [if_pos (beq_iff_eq.2 hdim)] at h
    cases h
    rw [if_pos hdim]
  · rw [if_neg fun h => hdim (beq_iff_eq.1 h)] at h
    split at h <;> cases h
    rename_i hget
    rw [if_neg hdim, hget]

lemma OfTable.column?_eq (h : c.OfTable dim) : c.column? dim = some (c.columnOf dim) := by
  obtain ⟨column, hcolumn⟩ := Option.isSome_iff_exists.1 h
  rw [hcolumn, columnOf]
  unfold column? at hcolumn
  split at hcolumn
  · cases hcolumn
  · rw [hcolumn]
    rfl

lemma OfTable.get?_columns (h : c.OfTable dim) : c.columns.get? dim = some (c.columnOf dim) := by
  have hcolumn := h.column?_eq
  unfold column? at hcolumn
  split at hcolumn
  · cases hcolumn
  · exact hcolumn

lemma ofTable_of_get? {column : String} (hdim : dim ≠ optionsDimension) (h : c.columns.get? dim = some column) :
    c.OfTable dim ∧ c.columnOf dim = column := by
  have hcolumn : c.column? dim = some column := (if_neg hdim).trans h
  have htable : c.OfTable dim := by
    unfold OfTable
    rw [hcolumn]
    rfl
  exact ⟨htable, Option.some.inj (htable.column?_eq.symm.trans hcolumn)⟩

lemma Keyed.keyedAt (h : c.Keyed) (hdim : c.OfTable dim) : c.KeyedAt dim where
  full cells hcells := (h.full dim _ hdim.get?_columns cells hcells).imp fun _ hv => hv.1
  distinct := h.distinct dim _ hdim.get?_columns

section Cells

variable {rows : List (List Cell)} (ht : c.table.Proper) (hk : c.Keyed)
  (hrows : c.table.selected? c.condition = some rows)
  {dim : String} {cells cells' : List Cell}
include hrows

include ht in
lemma proper_cell (dim : String) (hcells : cells ∈ rows) : (c.cell dim cells).Proper :=
  Table.proper_cellOf ht hrows hcells _

include ht in
lemma KeyedAt.key_eq_iff (hk : c.KeyedAt dim) (hcells : cells ∈ rows) (hcells' : cells' ∈ rows) :
    (c.cell dim cells).key = (c.cell dim cells').key ↔ (c.cell dim cells).rank = (c.cell dim cells').rank := by
  have hp := proper_cell ht hrows dim hcells
  have hp' := proper_cell ht hrows dim hcells'
  constructor
  · intro h
    have horder := hk.distinct cells cells' ⟨rows, hrows, hcells⟩ ⟨rows, hrows, hcells'⟩ h
    exact compare_eq_iff_eq.1 ((Cell.order_eq_compare hp hp').symm.trans horder)
  · exact Cell.key_eq_of_rank hp hp'

include hk

lemma exists_cell (hdim : c.OfTable dim) (hcells : cells ∈ rows) :
    ∃ v, c.cell dim cells = some v ∧ ∀ s, v = .text s → Number.Visible s :=
  hk.full dim _ hdim.get?_columns cells ⟨rows, hrows, hcells⟩

lemma visible_cell (hdim : c.OfTable dim) (hcells : cells ∈ rows) : Number.Visible (c.cell dim cells).key := by
  obtain ⟨v, hv, hs⟩ := exists_cell hk hrows hdim hcells
  rw [hv]
  exact Value.visible_key hs

include ht

lemma key_eq_iff (hdim : c.OfTable dim) (hcells : cells ∈ rows) (hcells' : cells' ∈ rows) :
    (c.cell dim cells).key = (c.cell dim cells').key ↔ (c.cell dim cells).rank = (c.cell dim cells').rank :=
  (hk.keyedAt hdim).key_eq_iff ht hrows hcells hcells'

end Cells

structure Bound (c : Catalog) (rows : List (List Cell)) (b : Binding) : Prop where
  plain : PlainName b.dim
  value : c.OfTable b.dim → ∃ cells ∈ rows, b.value = c.cell b.dim cells

/-- A binding to a value as it can be stored, which keys tell apart from those in the selected rows. -/
structure Told (c : Catalog) (rows : List (List Cell)) (b : Binding) : Prop where
  proper : c.OfTable b.dim → b.value.Proper
  distinct : c.OfTable b.dim → ∀ cells ∈ rows, (c.cell b.dim cells).key = b.value.key →
    (c.cell b.dim cells).order b.value = .eq

def tupleOf (c : Catalog) (dims : List String) (cells : List Cell) : List Binding :=
  dims.map fun d => ⟨d, c.cell d cells⟩

def among (c : Catalog) (rows : List (List Cell)) (dim : String) (bindings : List Binding) : Nat :=
  Table.countDistinctCells ((rows.filter (c.fits bindings)).map (c.cell dim))

/-- Whether a row has the bound values, as keys tell values apart; options restrict nothing. -/
def agrees (c : Catalog) (bs : List Binding) (cells : List Cell) : Bool :=
  bs.all fun b => !(c.column? b.dim).isSome || (c.cell b.dim cells).key == b.value.key

def found (c : Catalog) (rows : List (List Cell)) (dim : String) (bs : List Binding) : Nat :=
  ((rows.filter (c.agrees bs)).map fun cells => (c.cell dim cells).rank).dedup.length

section Fits

variable {rows : List (List Cell)}

lemma fits_append (bs bs' : List Binding) (cells : List Cell) :
    c.fits (bs ++ bs') cells = (c.fits bs cells && c.fits bs' cells) := List.all_append

variable {bs : List Binding}

lemma fits_iff (ht : c.table.Proper) (hrows : c.table.selected? c.condition = some rows)
    (hbs : ∀ b ∈ bs, c.Bound rows b) {cells : List Cell} (hcells : cells ∈ rows) :
    c.fits bs cells = true ↔ ∀ b ∈ bs, c.OfTable b.dim → (c.cell b.dim cells).rank = b.value.rank := by
  unfold fits
  rw [List.all_eq_true]
  refine forall₂_congr fun b hb => ?_
  by_cases hdim : c.OfTable b.dim
  · obtain ⟨cells', hcells', hvalue⟩ := (hbs b hb).value hdim
    have hproper : b.value.Proper := hvalue ▸ proper_cell ht hrows b.dim hcells'
    rw [hdim.column?_eq, Option.all_some, beq_iff_eq]
    change (c.cell b.dim cells).order b.value = .eq ↔ _
    rw [Cell.order_eq_compare (proper_cell ht hrows b.dim hcells) hproper, compare_eq_iff_eq]
    exact ⟨fun h _ => h, fun h => h hdim⟩
  · have hnone : c.column? b.dim = none := by simpa [OfTable] using hdim
    simp [hnone, hdim]

lemma restricting_eq (dim : String) (h : ∀ b ∈ bs, ∃ d, c.resolve b.dim = .ok d) :
    c.restricting dim bs =
      .ok (if dim ∈ bs.map (·.dim) then none else some (bs.filter fun b => (c.column? b.dim).isSome)) := by
  induction bs with
  | nil => rfl
  | cons b bs ih =>
    obtain ⟨⟨d, hd⟩, hbs⟩ := List.forall_mem_cons.1 h
    rw [restricting, hd, ok_bind, eq_of_resolve hd, List.map_cons]
    by_cases hb : b.dim = dim
    · rw [if_pos (beq_iff_eq.2 hb), if_pos (by simp [hb])]
      rfl
    · rw [if_neg fun h => hb (beq_iff_eq.1 h), ih hbs, ok_bind]
      by_cases hmem : dim ∈ bs.map (·.dim)
      · rw [if_pos hmem, if_pos (List.mem_cons_of_mem _ hmem)]
        cases c.column? b.dim <;> rfl
      · rw [if_neg hmem, if_neg fun h => (List.mem_cons.1 h).elim (fun h => hb h.symm) hmem]
        cases hc : c.column? b.dim <;> simp [hc]

lemma among_congr {dim : String} {bs' : List Binding} (h : ∀ cells ∈ rows, c.fits bs cells = c.fits bs' cells) :
    c.among rows dim bs = c.among rows dim bs' := by
  unfold among
  rw [List.filter_congr h]

lemma agrees_iff {cells : List Cell} :
    c.agrees bs cells = true ↔ ∀ b ∈ bs, c.OfTable b.dim → (c.cell b.dim cells).key = b.value.key := by
  simp [agrees, OfTable, imp_iff_not_or]

lemma agrees_filter (bs : List Binding) (cells : List Cell) :
    c.agrees (bs.filter fun b => (c.column? b.dim).isSome) cells = c.agrees bs cells := by
  rw [Bool.eq_iff_iff, agrees_iff, agrees_iff]
  exact ⟨fun h b hb hdim => h b (List.mem_filter.2 ⟨hb, hdim⟩) hdim, fun h b hb => h b (List.mem_of_mem_filter hb)⟩

lemma found_congr {bs' : List Binding} (dim : String) (h : ∀ cells ∈ rows, c.agrees bs cells = c.agrees bs' cells) :
    c.found rows dim bs = c.found rows dim bs' := by
  rw [found, found, List.filter_congr h]

lemma found_pos_iff {dim : String} : 0 < c.found rows dim bs ↔ ∃ cells ∈ rows, c.agrees bs cells = true := by
  simp only [found, List.length_pos_iff_exists_mem, List.mem_dedup, List.mem_map, List.mem_filter]
  exact ⟨fun ⟨_, cells, h, _⟩ => ⟨cells, h⟩, fun ⟨cells, h⟩ => ⟨_, cells, h, rfl⟩⟩

end Fits

section Memo

variable {rows : List (List Cell)} (ht : c.table.Proper) (hk : c.Keyed)
  (hrows : c.table.selected? c.condition = some rows)
  {dim : String} {cells : List Cell} {m : Memo}

lemma bound_tupleOf {dims : List String} (hdims : ∀ d ∈ dims, PlainName d) (hcells : cells ∈ rows) :
    ∀ b ∈ c.tupleOf dims cells, c.Bound rows b := by
  intro b hb
  obtain ⟨d, hd, rfl⟩ := List.mem_map.1 hb
  exact ⟨hdims d hd, fun _ => ⟨cells, hcells, rfl⟩⟩

include hk hrows in
lemma printable_of_bound {b : Binding} (hb : c.Bound rows b) (hdim : c.OfTable b.dim) : Printable b := by
  obtain ⟨cells, hcells, hvalue⟩ := hb.value hdim
  exact ⟨hb.plain, hvalue ▸ visible_cell hk hrows hdim hcells⟩

variable {bs bound : List Binding} {cells' : List Cell}

lemma tupleKey_eq (htable : ∀ b ∈ bs, c.OfTable b.dim) (h : c.agrees bs cells = true) (dim : String) :
    tupleKey dim bs = tupleKey dim (c.tupleOf (bs.map (·.dim)) cells) := by
  unfold tupleKey tupleOf
  rw [List.map_map, List.map_map]
  refine congrArg (fun l => String.join (dim :: l)) (List.map_congr_left fun b hb => ?_)
  show _ ++ b.value.key = _ ++ (c.cell b.dim cells).key
  rw [agrees_iff.1 h b hb (htable b hb)]

lemma agrees_tupleOf (h : c.agrees bs cells = true) :
    c.agrees (c.tupleOf (bs.map (·.dim)) cells) cells' = c.agrees bs cells' := by
  rw [Bool.eq_iff_iff, agrees_iff, agrees_iff]
  unfold tupleOf
  rw [List.map_map, List.forall_mem_map]
  refine forall₂_congr fun b hb => ?_
  show (c.OfTable b.dim → (c.cell b.dim cells').key = (c.cell b.dim cells).key) ↔ _
  exact imp_congr_right fun hdim => by rw [agrees_iff.1 h b hb hdim]

include ht hrows in
lemma agrees_eq_fits (hbs : ∀ b ∈ bs, c.Told rows b) (hcells : cells ∈ rows) :
    c.agrees bs cells = c.fits bs cells := by
  rw [Bool.eq_iff_iff, agrees_iff, fits, List.all_eq_true]
  refine forall₂_congr fun b hb => ?_
  by_cases hdim : c.OfTable b.dim
  · rw [hdim.column?_eq, Option.all_some, beq_iff_eq]
    have hproper := (hbs b hb).proper hdim
    refine ⟨fun h => (hbs b hb).distinct hdim cells hcells (h hdim), fun h _ => ?_⟩
    have hp := proper_cell ht hrows b.dim hcells
    exact Cell.key_eq_of_rank hp hproper (compare_eq_iff_eq.1 ((Cell.order_eq_compare hp hproper).symm.trans h))
  · have hnone : c.column? b.dim = none := by simpa [OfTable] using hdim
    simp [hnone, hdim]

include ht hk hrows in
lemma Bound.told {b : Binding} (hb : c.Bound rows b) : c.Told rows b := by
  refine ⟨fun hdim => ?_, fun hdim cells hcells hkey => ?_⟩
  · obtain ⟨cells', hcells', hvalue⟩ := hb.value hdim
    rw [hvalue]
    exact proper_cell ht hrows b.dim hcells'
  · obtain ⟨cells', hcells', hvalue⟩ := hb.value hdim
    rw [hvalue] at hkey ⊢
    exact hk.distinct b.dim _ hdim.get?_columns cells cells' ⟨rows, hrows, hcells⟩ ⟨rows, hrows, hcells'⟩ hkey

include ht hk hrows in
lemma among_eq_found (hdim : c.OfTable dim) (hbs : ∀ b ∈ bs, c.Bound rows b) :
    c.among rows dim bs = c.found rows dim bs := by
  unfold among found
  rw [List.filter_congr fun cells hcells => agrees_eq_fits ht hrows (fun b hb => (hbs b hb).told ht hk hrows) hcells]
  refine Table.countDistinctCells_eq ?_ ?_ (List.nodup_dedup _) fun r => ?_
  · rw [List.forall_mem_map]
    exact fun x hx => proper_cell ht hrows dim (List.mem_of_mem_filter hx)
  · rw [List.forall_mem_map]
    intro x hx
    obtain ⟨v, hv, -⟩ := exists_cell hk hrows hdim (List.mem_of_mem_filter hx)
    rw [hv]
    rfl
  · rw [List.mem_dedup, List.mem_map]
    simp only [List.mem_map, exists_exists_and_eq_and]

include ht hrows in
lemma fits_tupleOf (hbs : ∀ b ∈ bs, c.Bound rows b) (htable : ∀ b ∈ bs, c.OfTable b.dim) (hcells : cells ∈ rows)
    (hfits : c.fits bs cells = true) :
    ∀ cells' ∈ rows, c.fits (c.tupleOf (bs.map (·.dim)) cells) cells' = c.fits bs cells' := by
  intro cells' hcells'
  have hplain : ∀ d ∈ bs.map (·.dim), PlainName d := by
    intro d hd
    obtain ⟨b, hb, rfl⟩ := List.mem_map.1 hd
    exact (hbs b hb).plain
  have hcell := (fits_iff ht hrows hbs hcells).1 hfits
  rw [Bool.eq_iff_iff, fits_iff ht hrows (bound_tupleOf hplain hcells) hcells', fits_iff ht hrows hbs hcells']
  unfold tupleOf
  rw [List.map_map, List.forall_mem_map]
  refine forall₂_congr fun b hb => ?_
  show (c.OfTable b.dim → (c.cell b.dim cells').rank = (c.cell b.dim cells).rank) ↔ _
  rw [hcell b hb (htable b hb)]

/-! Whatever the hash and its collisions, a number is found by its key alone. -/

lemma bucket_push (bs : Buckets) (h h' : UInt64) (entry : String × Nat) :
    (bs.push h entry).bucket h' = if h' = h then bs.bucket h ++ [entry] else bs.bucket h' := by
  unfold Buckets.bucket
  induction bs with
  | nil =>
    by_cases heq : h' = h
    · simp [Buckets.push, heq]
    · simp [Buckets.push, List.lookup, heq, beq_eq_false_iff_ne.2 heq]
  | cons x bs ih =>
    obtain ⟨g, entries⟩ := x
    rw [Buckets.push]
    by_cases hg : g = h
    · subst hg
      by_cases heq : h' = g
      · simp [heq]
      · simp [List.lookup, heq, beq_eq_false_iff_ne.2 heq]
    · rw [if_neg (by simpa using hg)]
      by_cases heq : h' = g
      · subst heq
        simp [hg]
      · simpa only [List.lookup, beq_eq_false_iff_ne.2 heq, beq_eq_false_iff_ne.2 (Ne.symm hg)] using ih

lemma count?_store (counts : Buckets) (entry : String × Nat) (key : String) :
    c.count? (c.store counts entry) key = (c.count? counts key).or ([entry].lookup key) := by
  unfold count? store
  rw [bucket_push]
  split_ifs with hhash
  · rw [List.lookup_append, hhash]
  · have hkey : (key == entry.1) = false := beq_eq_false_iff_ne.2 fun h => hhash (congrArg c.hash h)
    rw [List.lookup_cons, hkey]
    exact (Option.or_none ..).symm

lemma count?_foldl_store (counts : Buckets) (entries : List (String × Nat)) (key : String) :
    c.count? (entries.foldl c.store counts) key = (c.count? counts key).or (entries.lookup key) := by
  induction entries generalizing counts with
  | nil => exact (Option.or_none ..).symm
  | cons entry entries ih =>
    rw [List.foldl_cons, ih, count?_store, Option.or_assoc, ← List.lookup_append]
    rfl

/-- What has been looked up is true of the selected rows. -/
structure TruthfulOn (c : Catalog) (rows : List (List Cell)) (m : Memo) : Prop where
  lengths : ∀ dim n, m.lengths.get? dim = some n → c.OfTable dim → n = c.among rows dim []
  counts : ∀ dim dims cells, PlainName dim → c.OfTable dim → (∀ d ∈ dims, PlainName d ∧ c.OfTable d) → cells ∈ rows →
    levelName dim (c.tupleOf dims cells) ∈ m.levels →
    c.count? m.counts (tupleKey dim (c.tupleOf dims cells)) = some (c.among rows dim (c.tupleOf dims cells))
  origin : ∀ key n, c.count? m.counts key = some n → ∃ dim dims cells, PlainName dim ∧
    (∀ d ∈ dims, PlainName d ∧ c.OfTable d) ∧ cells ∈ rows ∧ levelName dim (c.tupleOf dims cells) ∈ m.levels ∧
    key = tupleKey dim (c.tupleOf dims cells)

lemma map_dim_tupleOf (dims : List String) (cells : List Cell) : (c.tupleOf dims cells).map (·.dim) = dims := by
  unfold tupleOf
  rw [List.map_map]
  exact List.map_id dims

lemma levelName_congr {bs' : List Binding} (h : bs.map (·.dim) = bs'.map (·.dim)) (dim : String) :
    levelName dim bs = levelName dim bs' := by
  have hparts : ∀ bs : List Binding, (bs.map fun b => "|" ++ b.dim) = (bs.map (·.dim)).map ("|" ++ ·) := fun bs =>
    (List.map_map ..).symm
  rw [levelName, levelName, hparts, hparts, h]

lemma lookup_eq_of_forall {α : Type} {l : List (String × α)} {k : String} {a : α} (hmem : ∃ b, (k, b) ∈ l)
    (hall : ∀ b, (k, b) ∈ l → b = a) : l.lookup k = some a := by
  cases hl : l.lookup k with
  | none =>
    obtain ⟨b, hb⟩ := hmem
    have hne := List.lookup_eq_none_iff.1 hl _ hb
    simp at hne
  | some b =>
    obtain ⟨l₁, l₂, rfl, -⟩ := List.lookup_eq_some_iff.1 hl
    rw [hall b (List.mem_append_right _ List.mem_cons_self)]

include hk hrows in
lemma tupleOf_unique {dim' : String} {dims dims' : List String} (hdim : PlainName dim) (hdim' : PlainName dim')
    (hdims : ∀ d ∈ dims, PlainName d ∧ c.OfTable d) (hdims' : ∀ d ∈ dims', PlainName d ∧ c.OfTable d)
    (hcells : cells ∈ rows) (hcells' : cells' ∈ rows)
    (h : tupleKey dim (c.tupleOf dims cells) = tupleKey dim' (c.tupleOf dims' cells')) :
    dim = dim' ∧ dims = dims' ∧ ∀ d ∈ dims, (c.cell d cells).key = (c.cell d cells').key := by
  have hprintable : ∀ {dims : List String} {cells : List Cell}, (∀ d ∈ dims, PlainName d ∧ c.OfTable d) → cells ∈ rows →
      ∀ b ∈ c.tupleOf dims cells, Printable b := by
    intro dims cells hdims hcells b hb
    refine printable_of_bound hk hrows (bound_tupleOf (fun d hd => (hdims d hd).1) hcells b hb) ?_
    obtain ⟨d, hd, rfl⟩ := List.mem_map.1 hb
    exact (hdims d hd).2
  obtain ⟨rfl, hnames, hkeys⟩ := tupleKey_injective hdim hdim' (hprintable hdims hcells) (hprintable hdims' hcells') h
  rw [map_dim_tupleOf, map_dim_tupleOf] at hnames
  subst hnames
  refine ⟨rfl, rfl, fun d hd => ?_⟩
  unfold tupleOf at hkeys
  rw [List.map_map, List.map_map] at hkeys
  exact List.map_inj_left.1 hkeys d hd

def levelCounts (c : Catalog) (rows : List (List Cell)) (dim : String) (bound : List Binding) : List (String × Nat) :=
  let columns := bound.map fun b => c.columnOf b.dim
  (Table.distinctTuples (rows.map (c.table.cellsOf columns))).map fun tuple =>
    (tupleKey dim ((bound.zip (Table.readRow tuple)).map fun (b, v) => ⟨b.dim, some v⟩),
      Table.countDistinctCells ((rows.filter fun r => Cell.orderRows (c.table.cellsOf columns r) tuple == .eq).map
        (c.cell dim)))

include hrows in
lemma result_loadLevel (dim : String) (bound : List Binding) : result (c.loadLevel dim (c.columnOf dim) bound) m =
    (.ok (), if levelName dim bound ∈ m.levels then m else { m with
      levels := levelName dim bound :: m.levels
      counts := (c.levelCounts rows dim bound).foldl c.store m.counts }) := by
  unfold loadLevel
  rw [result_bind, result_get, proceed_ok]
  by_cases hlevel : levelName dim bound ∈ m.levels
  · rw [if_pos hlevel]
    dsimp only
    rw [if_neg (by simpa using hlevel)]
    rfl
  · rw [if_neg hlevel]
    dsimp only
    have hgroups : c.table.groupCounts (bound.map fun b => c.columnOf b.dim) (c.columnOf dim) c.condition =
        .ok ((Table.distinctTuples (rows.map (c.table.cellsOf (bound.map fun b => c.columnOf b.dim)))).map fun tuple =>
          (Table.readRow tuple, Table.countDistinctCells ((rows.filter fun r =>
            Cell.orderRows (c.table.cellsOf (bound.map fun b => c.columnOf b.dim) r) tuple == .eq).map
              (c.cell dim)))) := by
      unfold Table.groupCounts Table.aggregate
      rw [hrows]
      rfl
    rw [if_pos (by simpa using hlevel), result_bind, hgroups, result_liftM, proceed_ok, result_modify, List.map_map]
    rfl

include hk hrows in
lemma zip_readRow (htable : ∀ b ∈ bound, c.OfTable b.dim) (hcells : cells ∈ rows) :
    ((bound.zip (Table.readRow (c.table.cellsOf (bound.map fun b => c.columnOf b.dim) cells))).map
      fun (b, v) => (⟨b.dim, some v⟩ : Binding)) = c.tupleOf (bound.map (·.dim)) cells := by
  induction bound with
  | nil => rfl
  | cons b bound ih =>
    obtain ⟨hb, hbound⟩ := List.forall_mem_cons.1 htable
    obtain ⟨v, hv, -⟩ := exists_cell hk hrows hb hcells
    have hread : some (Table.readCell (c.cell b.dim cells)) = c.cell b.dim cells := by rw [hv]; rfl
    exact congrArg₂ List.cons (congrArg (Binding.mk b.dim) hread) (ih hbound)

include ht hrows

lemma orderRows_iff_fits (hplain : ∀ b ∈ bound, PlainName b.dim) (htable : ∀ b ∈ bound, c.OfTable b.dim)
    (hcells : cells ∈ rows) (hcells' : cells' ∈ rows) :
    (Cell.orderRows (c.table.cellsOf (bound.map fun b => c.columnOf b.dim) cells')
      (c.table.cellsOf (bound.map fun b => c.columnOf b.dim) cells) == .eq) =
      c.fits (c.tupleOf (bound.map (·.dim)) cells) cells' := by
  have hproper : ∀ cells ∈ rows, Cell.ProperRow (c.table.cellsOf (bound.map fun b => c.columnOf b.dim) cells) := by
    intro cells hcells x hx
    obtain ⟨column, -, rfl⟩ := List.mem_map.1 hx
    exact Table.proper_cellOf ht hrows hcells column
  have hnames : ∀ d ∈ bound.map (·.dim), PlainName d := List.forall_mem_map.2 hplain
  rw [Bool.eq_iff_iff, beq_iff_eq, Cell.orderRows_eq_iff (hproper _ hcells') (hproper _ hcells),
    fits_iff ht hrows (bound_tupleOf hnames hcells) hcells']
  unfold Table.cellsOf tupleOf
  rw [List.map_map, List.map_map, List.map_map, List.map_map, List.map_map, List.map_inj_left, List.forall_mem_map]
  exact forall₂_congr fun b hb => ⟨fun h _ => h, fun h => h (htable b hb)⟩

include hk

lemma mem_levelCounts (hplain : ∀ b ∈ bound, PlainName b.dim) (htable : ∀ b ∈ bound, c.OfTable b.dim) (dim : String)
    (x : String × Nat) : x ∈ c.levelCounts rows dim bound →
      ∃ cells ∈ rows, x = (tupleKey dim (c.tupleOf (bound.map (·.dim)) cells),
        c.among rows dim (c.tupleOf (bound.map (·.dim)) cells)) := by
  intro hx
  obtain ⟨tuple, htuple, rfl⟩ := List.mem_map.1 hx
  obtain ⟨cells, hcells, rfl⟩ := List.mem_map.1 (Table.mem_of_mem_distinctTuples htuple)
  refine ⟨cells, hcells, ?_⟩
  rw [zip_readRow hk hrows htable hcells]
  unfold among
  rw [List.filter_congr fun r hr => orderRows_iff_fits ht hrows hplain htable hcells hr]

lemma exists_levelCounts (htable : ∀ b ∈ bound, c.OfTable b.dim) (dim : String) (hcells : cells ∈ rows) :
    ∃ n, (tupleKey dim (c.tupleOf (bound.map (·.dim)) cells), n) ∈ c.levelCounts rows dim bound := by
  have hproper : ∀ x ∈ rows.map (c.table.cellsOf (bound.map fun b => c.columnOf b.dim)), Cell.ProperRow x := by
    intro x hx y hy
    obtain ⟨cells, hcells, rfl⟩ := List.mem_map.1 hx
    obtain ⟨column, -, rfl⟩ := List.mem_map.1 hy
    exact Table.proper_cellOf ht hrows hcells column
  obtain ⟨tuple, htuple, hranks⟩ := Table.exists_mem_distinctTuples hproper (List.mem_map_of_mem hcells)
  obtain ⟨cells', hcells', rfl⟩ := List.mem_map.1 (Table.mem_of_mem_distinctTuples htuple)
  refine ⟨_, List.mem_map.2 ⟨_, htuple, Prod.ext ?_ rfl⟩⟩
  -- The row that stands for the tuple may be another one, but its cells have the same keys.
  dsimp only
  rw [zip_readRow hk hrows htable hcells']
  unfold Table.cellsOf at hranks
  rw [List.map_map, List.map_map, List.map_map, List.map_map, List.map_inj_left] at hranks
  unfold tupleOf tupleKey
  rw [List.map_map, List.map_map, List.map_map, List.map_map]
  refine congrArg (fun l => String.join (dim :: l)) (List.map_congr_left fun b hb => ?_)
  show _ ++ (c.cell b.dim cells').key = _ ++ (c.cell b.dim cells).key
  rw [(key_eq_iff ht hk hrows (htable b hb) hcells' hcells).2 (hranks b hb)]

lemma loadLevel_truthful (hm : c.TruthfulOn rows m) (hdim : PlainName dim) (hplain : ∀ b ∈ bound, PlainName b.dim)
    (htable : ∀ b ∈ bound, c.OfTable b.dim) :
    ∃ m', result (c.loadLevel dim (c.columnOf dim) bound) m = (.ok (), m') ∧ c.TruthfulOn rows m' ∧
      levelName dim bound ∈ m'.levels := by
  refine ⟨_, result_loadLevel hrows dim bound, ?_⟩
  split_ifs with hlevel
  · exact ⟨hm, hlevel⟩
  have hnames : ∀ d ∈ bound.map (·.dim), PlainName d ∧ c.OfTable d :=
    List.forall_mem_map.2 fun b hb => ⟨hplain b hb, htable b hb⟩
  have hlevelName : ∀ cells, levelName dim bound = levelName dim (c.tupleOf (bound.map (·.dim)) cells) := fun cells =>
    levelName_congr (map_dim_tupleOf _ _).symm dim
  refine ⟨⟨hm.lengths, ?_, ?_⟩, List.mem_cons_self⟩
  · intro dim' dims cells hdim' htable' hdims hcells hmem
    dsimp only
    rw [count?_foldl_store]
    rcases List.mem_cons.1 hmem with hmem | hmem
    · -- The level that has been added: nothing loaded before has one of its keys.
      obtain ⟨rfl, hdims'⟩ := levelName_injective hdim' hdim (fun b hb => (bound_tupleOf
        (fun d hd => (hdims d hd).1) hcells b hb).plain) hplain hmem
      rw [map_dim_tupleOf] at hdims'
      subst hdims'
      have hnone : c.count? m.counts (tupleKey dim' (c.tupleOf (bound.map (·.dim)) cells)) = none := by
        refine Option.eq_none_iff_forall_ne_some.2 fun n hn => ?_
        obtain ⟨dim₁, dims₁, cells₁, hdim₁, hdims₁, hcells₁, hlevel₁, heq⟩ := hm.origin _ n hn
        obtain ⟨rfl, rfl, -⟩ := tupleOf_unique hk hrows hdim' hdim₁ hnames hdims₁ hcells hcells₁ heq
        exact hlevel ((hlevelName cells₁).symm ▸ hlevel₁)
      rw [hnone, Option.none_or]
      refine lookup_eq_of_forall (exists_levelCounts ht hk hrows htable dim' hcells) fun n hn => ?_
      obtain ⟨cells', hcells', hx⟩ := mem_levelCounts ht hk hrows hplain htable dim' _ hn
      obtain ⟨hkey, rfl⟩ := Prod.mk.inj hx
      obtain ⟨-, -, hkeys⟩ := tupleOf_unique hk hrows hdim' hdim' hnames hnames hcells hcells' hkey
      refine among_congr fun cells₁ hcells₁ => ?_
      have hfits : c.fits (c.tupleOf (bound.map (·.dim)) cells') cells = true := by
        rw [fits_iff ht hrows (bound_tupleOf (fun d hd => (hnames d hd).1) hcells') hcells]
        intro b hb hdim
        obtain ⟨d, hd, rfl⟩ := List.mem_map.1 hb
        exact (key_eq_iff ht hk hrows hdim hcells hcells').1 (hkeys d hd)
      have h := fits_tupleOf ht hrows (bound_tupleOf (fun d hd => (hnames d hd).1) hcells') ?_ hcells
        hfits cells₁ hcells₁
      · rw [map_dim_tupleOf] at h
        exact h.symm
      · intro b hb
        obtain ⟨d, hd, rfl⟩ := List.mem_map.1 hb
        exact (hnames d hd).2
    · rw [hm.counts dim' dims cells hdim' htable' hdims hcells hmem, Option.some_or]
  · intro key n hn
    dsimp only at hn
    rw [count?_foldl_store, Option.or_eq_some_iff] at hn
    rcases hn with hn | ⟨-, hn⟩
    · obtain ⟨dim₁, dims₁, cells₁, hdim₁, hdims₁, hcells₁, hlevel₁, hkey⟩ := hm.origin key n hn
      exact ⟨dim₁, dims₁, cells₁, hdim₁, hdims₁, hcells₁, List.mem_cons_of_mem _ hlevel₁, hkey⟩
    · obtain ⟨cells, hcells, hx⟩ := mem_levelCounts ht hk hrows hplain htable dim _ (Dict.mem_of_get? hn)
      exact ⟨dim, _, cells, hdim, hnames, hcells, hlevelName cells ▸ List.mem_cons_self, congrArg Prod.fst hx⟩

lemma lookup_counts (hm : c.TruthfulOn rows m) (hplain : PlainName dim) (hdim : c.OfTable dim)
    (hnames : ∀ b ∈ bs, PlainName b.dim ∧ c.OfTable b.dim) (hvisible : ∀ b ∈ bs, Number.Visible b.value.key)
    (hlevel : levelName dim bs ∈ m.levels) : c.count? m.counts (tupleKey dim bs) =
      if 0 < c.found rows dim bs then some (c.found rows dim bs) else none := by
  have hdims : ∀ d ∈ bs.map (·.dim), PlainName d ∧ c.OfTable d := List.forall_mem_map.2 hnames
  split_ifs with hfound
  · obtain ⟨cells, hcells, hagrees⟩ := found_pos_iff.1 hfound
    rw [tupleKey_eq (fun b hb => (hnames b hb).2) hagrees]
    rw [hm.counts dim _ cells hplain hdim hdims hcells (levelName_congr (map_dim_tupleOf _ _).symm dim ▸ hlevel)]
    rw [among_eq_found ht hk hrows hdim (bound_tupleOf (fun d hd => (hdims d hd).1) hcells)]
    exact congrArg some (found_congr dim fun cells' _ => agrees_tupleOf hagrees)
  · -- A count of these bindings comes from a row that has their values.
    refine Option.eq_none_iff_forall_ne_some.2 fun n hn => ?_
    obtain ⟨dim₁, dims₁, cells₁, hdim₁, hdims₁, hcells₁, -, heq⟩ := hm.origin _ n hn
    refine hfound (found_pos_iff.2 ⟨cells₁, hcells₁, agrees_iff.2 fun b hb _ => ?_⟩)
    have hprintable : ∀ b ∈ c.tupleOf dims₁ cells₁, Printable b := by
      intro b hb
      refine printable_of_bound hk hrows (bound_tupleOf (fun d hd => (hdims₁ d hd).1) hcells₁ b hb) ?_
      obtain ⟨d, hd, rfl⟩ := List.mem_map.1 hb
      exact (hdims₁ d hd).2
    obtain ⟨rfl, hnames', hkeys⟩ :=
      tupleKey_injective hplain hdim₁ (fun b hb => ⟨(hnames b hb).1, hvisible b hb⟩) hprintable heq
    rw [map_dim_tupleOf] at hnames'
    subst hnames'
    unfold tupleOf at hkeys
    rw [List.map_map, List.map_map, List.map_inj_left] at hkeys
    exact (hkeys b hb).symm

lemma cascade_counts (hm : c.TruthfulOn rows m) (hplain : PlainName dim) (hdim : c.OfTable dim)
    {outer inner : List Binding}
    (hinner : inner ≠ []) (hnames : ∀ b ∈ outer ++ inner, PlainName b.dim ∧ c.OfTable b.dim) :
    ∃ n m', result (c.cascade dim (c.columnOf dim) outer inner) m = (.ok n, m') ∧ c.TruthfulOn rows m' ∧
      ((∀ b ∈ outer ++ inner, Number.Visible b.value.key) → n = c.found rows dim (outer ++ inner)) := by
  induction inner generalizing outer m with
  | nil => exact absurd rfl hinner
  | cons b inner ih =>
    have hsplit : outer ++ b :: inner = (outer ++ [b]) ++ inner := by rw [List.append_assoc]; rfl
    rw [hsplit] at hnames ⊢
    obtain ⟨hnames₁, -⟩ := List.forall_mem_append.1 hnames
    obtain ⟨m₁, hload, hm₁, hlevel⟩ := loadLevel_truthful ht hk hrows hm hplain (fun b hb => (hnames₁ b hb).1)
      fun b hb => (hnames₁ b hb).2
    have hlookup := fun hvisible : ∀ x ∈ outer ++ [b] ++ inner, Number.Visible x.value.key =>
      lookup_counts ht hk hrows hm₁ hplain hdim hnames₁
        (fun b hb => hvisible b (List.mem_append_left _ hb)) hlevel
    -- Without a row that has the first values there is none that has all of them.
    have hzero : ¬ 0 < c.found rows dim (outer ++ [b]) → c.found rows dim (outer ++ [b] ++ inner) = 0 := by
      refine fun hnone => Nat.eq_zero_of_not_pos fun hpos => hnone ?_
      obtain ⟨cells, hcells, hagrees⟩ := found_pos_iff.1 hpos
      exact found_pos_iff.2 ⟨cells, hcells, agrees_iff.2 fun b hb =>
        agrees_iff.1 hagrees b (List.mem_append_left _ hb)⟩
    unfold cascade
    rw [result_bind, hload, proceed_ok, result_bind, result_get, proceed_ok]
    cases hcount : c.count? m₁.counts (tupleKey dim (outer ++ [b])) with
    | none =>
      refine ⟨0, m₁, rfl, hm₁, fun hvisible => ?_⟩
      have := (hlookup hvisible).symm.trans hcount
      split_ifs at this with hpos
      exact (hzero hpos).symm
    | some n =>
      have hn : (∀ x ∈ outer ++ [b] ++ inner, Number.Visible x.value.key) →
          0 < c.found rows dim (outer ++ [b]) ∧ n = c.found rows dim (outer ++ [b]) := by
        intro hvisible
        have := (hlookup hvisible).symm.trans hcount
        split_ifs at this with hpos
        exact ⟨hpos, (Option.some.inj this).symm⟩
      cases n with
      | zero => exact ⟨0, m₁, rfl, hm₁, fun hvisible => absurd (hn hvisible).2 (hn hvisible).1.ne⟩
      | succ n =>
        cases inner with
        | nil => exact ⟨n + 1, m₁, rfl, hm₁, fun hvisible => by rw [(hn hvisible).2, List.append_nil]⟩
        | cons b' inner => exact ih hm₁ (List.cons_ne_nil _ _) hnames

omit ht hk in
lemma length_eq (hm : c.TruthfulOn rows m) (hdim : c.OfTable dim) (hresolve : ∃ d, c.resolve dim = .ok d) :
    ∃ m', result (c.length dim) m = (.ok (c.among rows dim []), m') ∧ c.TruthfulOn rows m' := by
  obtain ⟨d, hd⟩ := hresolve
  have hd' := eq_of_resolve hd
  rw [hdim.column?_eq] at hd'
  unfold length
  rw [hd, hd', result_bind, result_liftM, proceed_ok]
  dsimp only
  rw [result_bind, result_get, proceed_ok]
  cases hn : m.lengths.get? dim with
  | some n =>
    have := hm.lengths dim n hn hdim
    exact ⟨m, by rw [this]; rfl, hm⟩
  | none =>
    have hcount : c.table.countDistinct (c.columnOf dim) c.condition = .ok (c.among rows dim []) := by
      have hall : rows.filter (c.fits []) = rows := List.filter_eq_self.2 fun _ _ => rfl
      unfold Table.countDistinct Table.aggregate among
      rw [hrows, hall]
      rfl
    dsimp only
    rw [result_bind, hcount, result_liftM, proceed_ok, result_bind, result_modify, proceed_ok, result_pure]
    refine ⟨_, rfl, fun d n hn hd => ?_, hm.counts, hm.origin⟩
    rw [Dict.get?_set] at hn
    split_ifs at hn with heq
    · rw [← Option.some.inj hn, heq]
    · exact hm.lengths d n hn hd

lemma conditionalLength_counts (hm : c.TruthfulOn rows m) (hplain : PlainName dim) (hdim : c.OfTable dim)
    (hresolve : ∃ d, c.resolve dim = .ok d) (hbs : ∀ b ∈ bs, PlainName b.dim)
    (hresolved : ∀ b ∈ bs, ∃ d, c.resolve b.dim = .ok d) :
    ∃ n m', result (c.conditionalLength dim bs) m = (.ok n, m') ∧ c.TruthfulOn rows m' ∧
      ((∀ b ∈ bs, c.OfTable b.dim → Number.Visible b.value.key) →
        n = if dim ∈ bs.map (·.dim) then 1 else c.found rows dim bs) := by
  obtain ⟨d, hd⟩ := hresolve
  have hd' := eq_of_resolve hd
  rw [hdim.column?_eq] at hd'
  unfold conditionalLength
  rw [hd, hd', result_bind, result_liftM, proceed_ok]
  dsimp only
  rw [restricting_eq dim hresolved, result_bind, result_liftM, proceed_ok]
  by_cases hmem : dim ∈ bs.map (·.dim)
  · rw [if_pos hmem]
    exact ⟨1, m, rfl, hm, fun _ => (if_pos hmem).symm⟩
  · rw [if_neg hmem]
    have hfound : c.found rows dim (bs.filter fun b => (c.column? b.dim).isSome) = c.found rows dim bs :=
      found_congr dim fun cells _ => agrees_filter bs cells
    have htable : ∀ b ∈ bs.filter fun b => (c.column? b.dim).isSome, b ∈ bs ∧ c.OfTable b.dim :=
      fun b => List.mem_filter.1
    rw [if_neg hmem, ← hfound]
    cases hfilter : bs.filter fun b => (c.column? b.dim).isSome with
    | nil =>
      obtain ⟨m', hlength, hm'⟩ := length_eq hrows hm hdim ⟨d, hd⟩
      exact ⟨_, m', hlength, hm', fun _ => among_eq_found ht hk hrows hdim (List.forall_mem_nil _)⟩
    | cons b bound =>
      rw [hfilter] at htable
      have hnames : ∀ b' ∈ [] ++ b :: bound, PlainName b'.dim ∧ c.OfTable b'.dim := fun b' hb' =>
        ⟨hbs b' (htable b' hb').1, (htable b' hb').2⟩
      obtain ⟨n, m', hcascade, hm', hn⟩ :=
        cascade_counts ht hk hrows hm hplain hdim (List.cons_ne_nil b bound) hnames
      exact ⟨n, m', hcascade, hm', fun hvisible => hn fun b' hb' => hvisible b' (htable b' hb').1 (htable b' hb').2⟩

theorem conditionalLength_eq (hm : c.TruthfulOn rows m) (hplain : PlainName dim) (hdim : c.OfTable dim)
    (hresolve : ∃ d, c.resolve dim = .ok d) (hbs : ∀ b ∈ bs, c.Bound rows b)
    (hresolved : ∀ b ∈ bs, ∃ d, c.resolve b.dim = .ok d)
    (hrow : (∃ b ∈ bs, c.OfTable b.dim) → ∃ cells ∈ rows, c.fits bs cells = true) :
    ∃ m', result (c.conditionalLength dim bs) m = (.ok (c.among rows dim bs), m') ∧ c.TruthfulOn rows m' := by
  obtain ⟨n, m', hrun, hm', hn⟩ :=
    conditionalLength_counts ht hk hrows hm hplain hdim hresolve (fun b hb => (hbs b hb).plain) hresolved
  have htold : ∀ b ∈ bs, c.Told rows b := fun b hb => (hbs b hb).told ht hk hrows
  refine ⟨m', ?_, hm'⟩
  rw [hrun, hn fun b hb hb' => (printable_of_bound hk hrows (hbs b hb) hb').2, among_eq_found ht hk hrows hdim hbs]
  split_ifs with hmem
  · -- All rows that match have the bound value.
    obtain ⟨b, hb, rfl⟩ := List.mem_map.1 hmem
    obtain ⟨cells, hcells, hfits⟩ := hrow ⟨b, hb, hdim⟩
    have hrank : ∀ x ∈ rows.filter (c.agrees bs), (c.cell b.dim x).rank = b.value.rank := by
      intro x hx
      obtain ⟨hx, hagrees⟩ := List.mem_filter.1 hx
      rw [agrees_eq_fits ht hrows htold hx] at hagrees
      exact (fits_iff ht hrows hbs hx).1 hagrees b hb hdim
    have hne : rows.filter (c.agrees bs) ≠ [] := by
      rw [← agrees_eq_fits ht hrows htold hcells] at hfits
      exact List.ne_nil_of_mem (List.mem_filter.2 ⟨hcells, hfits⟩)
    have hone : c.found rows b.dim bs = 1 := by
      unfold found
      rw [List.map_congr_left hrank, List.map_const', List.replicate_dedup (by simpa using hne)]
      rfl
    rw [hone]
  · rfl

end Memo

end Catalog

end LandUse
