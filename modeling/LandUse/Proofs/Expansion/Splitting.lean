import LandUse.Proofs.Catalog.Counts
import LandUse.Proofs.Expansion.Resolution

namespace LandUse

def Catalog.readColumns (c : Catalog) (columns : List String) (cells : List Cell) : Row :=
  Table.readRow (c.table.cellsOf columns cells)

structure Catalog.Reads (c : Catalog) (rows read : List (List Cell)) : Prop where
  selected : c.table.selected? c.condition = some rows
  mem : ∀ cells, cells ∈ read ↔ cells ∈ rows

namespace Program

structure Heads {β γ : Type} [LinearOrder γ] (rank : β → γ) (read heads : List β) : Prop where
  sublist : heads.Sublist read
  increasing : heads.Pairwise fun a b => rank a < rank b
  first : ∀ a ∈ heads, ∃ rest, (read.filter fun b => rank b = rank a) = a :: rest
  all : ∀ b ∈ read, ∃ a ∈ heads, rank a = rank b

section Heads

variable {β γ : Type} [LinearOrder γ] {rank : β → γ} {x a first : β} {read heads : List β}

lemma filter_rank_of_eq (h : rank x = rank a) :
    ((x :: read).filter fun b => rank b = rank a) = x :: read.filter fun b => rank b = rank a :=
  List.filter_cons_of_pos (by simpa using h)

lemma filter_rank_of_ne (h : rank x ≠ rank a) :
    ((x :: read).filter fun b => rank b = rank a) = read.filter fun b => rank b = rank a :=
  List.filter_cons_of_neg (by simpa using h)

lemma Heads.higher (h : Heads rank read (first :: heads)) (hx : rank x = rank first) : ∀ a ∈ heads, rank x < rank a :=
  fun a ha => hx.trans_lt ((List.pairwise_cons.1 h.increasing).1 a ha)

lemma Heads.cons_same (h : Heads rank read (first :: heads)) (hx : rank x = rank first) :
    Heads rank (x :: read) (x :: heads) where
  sublist := ((List.sublist_cons_self _ _).trans h.sublist).cons_cons x
  increasing := List.pairwise_cons.2 ⟨h.higher hx, (List.pairwise_cons.1 h.increasing).2⟩
  first := by
    refine List.forall_mem_cons.2 ⟨⟨_, filter_rank_of_eq rfl⟩, fun a ha => ?_⟩
    rw [filter_rank_of_ne (h.higher hx a ha).ne]
    exact h.first a (List.mem_cons_of_mem _ ha)
  all := by
    refine List.forall_mem_cons.2 ⟨⟨x, List.mem_cons_self, rfl⟩, fun b hb => ?_⟩
    obtain ⟨a, ha, hab⟩ := h.all b hb
    rcases List.mem_cons.1 ha with rfl | ha
    · exact ⟨x, List.mem_cons_self, hx.trans hab⟩
    · exact ⟨a, List.mem_cons_of_mem _ ha, hab⟩

lemma Heads.cons_below (h : Heads rank read heads) (hx : ∀ a ∈ heads, rank x < rank a) :
    Heads rank (x :: read) (x :: heads) where
  sublist := h.sublist.cons_cons x
  increasing := List.pairwise_cons.2 ⟨hx, h.increasing⟩
  first := by
    refine List.forall_mem_cons.2 ⟨⟨_, filter_rank_of_eq rfl⟩, fun a ha => ?_⟩
    rw [filter_rank_of_ne (hx a ha).ne]
    exact h.first a ha
  all := by
    refine List.forall_mem_cons.2 ⟨⟨x, List.mem_cons_self, rfl⟩, fun b hb => ?_⟩
    obtain ⟨a, ha, hab⟩ := h.all b hb
    exact ⟨a, List.mem_cons_of_mem _ ha, hab⟩

lemma Heads.filter_below (h : Heads rank read heads) (hx : ∀ a ∈ heads, rank x < rank a) :
    (read.filter fun b => rank b = rank x) = [] := List.filter_eq_nil_iff.2 fun b hb hbx => by
  obtain ⟨a, ha, hab⟩ := h.all b hb
  exact (hx a ha).ne (hab.trans (of_decide_eq_true hbx)).symm

end Heads

lemma splitGroups_sorted {key : Row → List Value} {view : List Cell → Row} {γ : Type} [LinearOrder γ]
    (rank : List Cell → γ)
    {read : List (List Cell)} (hsame : ∀ a ∈ read, ∀ b ∈ read, sameValues (key (view a)) (key (view b)) = true ↔
      rank a = rank b)
    (hsorted : read.Pairwise fun a b => rank a ≤ rank b) :
    ∃ heads : List (List Cell), Heads rank read heads ∧
      splitGroups key (read.map view) = heads.map fun a => (read.filter fun b => rank b = rank a).map view := by
  induction read with
  | nil => exact ⟨[], ⟨.slnil, .nil, nofun, nofun⟩, rfl⟩
  | cons x read ih =>
    obtain ⟨hle, hsorted⟩ := List.pairwise_cons.1 hsorted
    obtain ⟨heads, h, hsplit⟩ := ih
      (fun a ha b hb => hsame a (List.mem_cons_of_mem _ ha) b (List.mem_cons_of_mem _ hb)) hsorted
    rw [List.map_cons, splitGroups, hsplit]
    cases heads with
    | nil =>
      have hbelow : ∀ a ∈ ([] : List (List Cell)), rank x < rank a := List.forall_mem_nil _
      refine ⟨[x], h.cons_below hbelow, ?_⟩
      rw [List.map_singleton, filter_rank_of_eq rfl, h.filter_below hbelow]
      rfl
    | cons first heads =>
      obtain ⟨rest, hrest⟩ := h.first first List.mem_cons_self
      have hmem : first ∈ read := h.sublist.subset List.mem_cons_self
      have hkey := hsame x List.mem_cons_self first (List.mem_cons_of_mem _ hmem)
      rw [List.map_cons, hrest, List.map_cons]
      dsimp only
      -- A row of the rank of the first group joins it; any other one is below all groups.
      by_cases hx : rank x = rank first
      · refine ⟨x :: heads, h.cons_same hx, ?_⟩
        rw [if_pos (hkey.2 hx), List.map_cons, filter_rank_of_eq rfl, hx, hrest, List.map_cons, List.map_cons]
        exact congrArg _ (List.map_congr_left fun a ha => by rw [filter_rank_of_ne (h.higher hx a ha).ne])
      · have hbelow : ∀ a ∈ first :: heads, rank x < rank a := by
          have hlt := lt_of_le_of_ne (hle first hmem) hx
          exact List.forall_mem_cons.2 ⟨hlt, fun a ha => hlt.trans ((List.pairwise_cons.1 h.increasing).1 a ha)⟩
        refine ⟨x :: first :: heads, h.cons_below hbelow, ?_⟩
        rw [if_neg (mt hkey.1 hx), List.map_cons, filter_rank_of_eq rfl, h.filter_below hbelow,
          List.map_cons, List.map_nil,
          List.map_cons, filter_rank_of_ne (hbelow _ List.mem_cons_self).ne, hrest, List.map_cons]
        refine congrArg _ (congrArg _ (List.map_congr_left fun a ha => ?_))
        rw [filter_rank_of_ne (hbelow a (List.mem_cons_of_mem _ ha)).ne]

lemma append_lt_append {γ : Type} [LinearOrder γ] {a b a' b' : List γ} (hlength : a.length = a'.length) (h : a < a') :
    a ++ b < a' ++ b' := by
  induction a generalizing a' with
  | nil =>
    rw [List.length_nil] at hlength
    rw [List.length_eq_zero_iff.1 hlength.symm] at h
    exact absurd h (lt_irrefl _)
  | cons x a ih =>
    cases a' with
    | nil => cases hlength
    | cons x' a' =>
      rw [List.cons_lt_cons_iff] at h
      rw [List.cons_append, List.cons_append, List.cons_lt_cons_iff]
      exact h.imp_right fun h => ⟨h.1, ih (Nat.succ.inj hlength) h.2⟩

lemma sameValues_map {β : Type} {f g : β → Value} {l : List β} :
    sameValues (l.map f) (l.map g) = true ↔ ∀ b ∈ l, (f b).equal (g b) = true := by
  induction l with
  | nil => simp [sameValues]
  | cons b l ih => rw [List.map_cons, List.map_cons, sameValues, Bool.and_eq_true, ih, List.forall_mem_cons]

variable {c : Catalog} {columns free : List String}

lemma value_readColumns {dim : String} (hdim : c.columnOf dim ∈ columns) (cells : List Cell) :
    (columns.findIdx? (· == c.columnOf dim)).bind ((c.readColumns columns cells)[·]?) =
      some (Table.readCell (c.cell dim cells)) := by
  obtain ⟨i, hi, hget⟩ := readRow_findIdx? c.table cells hdim
  rw [hi]
  exact hget

lemma project_readColumns (hfree : ∀ d ∈ free, c.columnOf d ∈ columns) (cells : List Cell) :
    project columns (free.map c.columnOf) (c.readColumns columns cells) =
      free.map fun d => Table.readCell (c.cell d cells) := by
  unfold project
  rw [List.filterMap_map, ← List.filterMap_eq_map]
  exact List.filterMap_congr fun d hd => value_readColumns (hfree d hd) cells

lemma groupBindings_nil (columns : List String) (rows : List Row) : groupBindings columns [] rows = [] := by
  cases rows <;> rfl

lemma groupBindings_readColumns (hfree : ∀ d ∈ free, c.columnOf d ∈ columns) (cells : List Cell) (rows : List Row) :
    groupBindings columns (free.zip (free.map c.columnOf)) (c.readColumns columns cells :: rows) =
      free.map fun d => ⟨d, some (Table.readCell (c.cell d cells))⟩ := by
  unfold groupBindings
  have hzip : free.zip (free.map c.columnOf) = free.map fun d => (d, c.columnOf d) := by
    conv_lhs => rw [← List.map_id free, List.map_map, List.zip_map']
    rfl
  dsimp only
  rw [hzip, List.filterMap_map, ← List.filterMap_eq_map]
  refine List.filterMap_congr fun d hd => ?_
  show Option.map _ ((columns.findIdx? (· == c.columnOf d)).bind _) = _
  rw [value_readColumns (hfree d hd)]
  rfl

end Program

/-- The first rows of all tuples of values, in the order of reading, which is that of the tuples. -/
structure Catalog.Tuples (c : Catalog) (free : List String) (read heads : List (List Cell)) : Prop where
  sublist : heads.Sublist read
  ascending : heads.Pairwise fun a b =>
    Cell.orderRows (c.table.cellsOf (free.map c.columnOf) a) (c.table.cellsOf (free.map c.columnOf) b) = .lt
  apart : heads.Pairwise fun a b => c.fits (c.tupleOf free a) b = false
  all : ∀ b ∈ read, ∃ a ∈ heads, c.fits (c.tupleOf free a) b = true

namespace Program

variable {c : Catalog} {columns free : List String} {rows read : List (List Cell)} (ht : c.table.Proper)
  (hread : c.Reads rows read) (hk : ∀ d ∈ free, c.KeyedAt d)
include ht hread

lemma fits_tupleOf_iff (hplain : ∀ d ∈ free, PlainName d) (htable : ∀ d ∈ free, c.OfTable d) {a b : List Cell}
    (ha : a ∈ read) (hb : b ∈ read) : c.fits (c.tupleOf free a) b = true ↔
      (free.map fun d => (c.cell d b).rank) = free.map fun d => (c.cell d a).rank := by
  have hbound := Catalog.bound_tupleOf (c := c) hplain ((hread.mem a).1 ha)
  rw [Catalog.fits_iff ht hread.selected hbound ((hread.mem b).1 hb), List.map_inj_left]
  unfold Catalog.tupleOf
  rw [List.forall_mem_map]
  exact forall₂_congr fun d hd => ⟨fun h => h (htable d hd), fun h _ => h⟩

include hk

lemma sameValues_iff (hfree : ∀ d ∈ free, c.columnOf d ∈ columns) {a b : List Cell} (ha : a ∈ read) (hb : b ∈ read) :
    sameValues (project columns (free.map c.columnOf) (c.readColumns columns a))
        (project columns (free.map c.columnOf) (c.readColumns columns b)) = true ↔
      (free.map fun d => (c.cell d a).rank) = free.map fun d => (c.cell d b).rank := by
  have hrows := hread.selected
  rw [project_readColumns hfree, project_readColumns hfree, sameValues_map, List.map_inj_left]
  refine forall₂_congr fun d hd => ?_
  have ha' := (hread.mem a).1 ha
  have hb' := (hread.mem b).1 hb
  have hkey := (hk d hd).key_eq_iff ht hrows ha' hb'
  have hpa := Catalog.proper_cell ht hrows d ha'
  have hpb := Catalog.proper_cell ht hrows d hb'
  obtain ⟨v, hv⟩ := (hk d hd).full a ⟨rows, hrows, ha'⟩
  obtain ⟨w, hw⟩ := (hk d hd).full b ⟨rows, hrows, hb'⟩
  rw [hv] at hkey hpa ⊢
  rw [hw] at hkey hpb ⊢
  refine ⟨fun h => hkey.1 (Value.key_eq_of_equal (hpa v rfl) (hpb w rfl) h), fun h => ?_⟩
  exact Value.equal_of_rank (hpa v rfl) (hpb w rfl) (WithBot.coe_injective h)

lemma groups_tuples (hplain : ∀ d ∈ free, PlainName d) (htable : ∀ d ∈ free, c.OfTable d)
    (hfree : ∀ d ∈ free, c.columnOf d ∈ columns)
    (hsorted : read.Pairwise fun a b => (free.map fun d => (c.cell d a).rank) ≤ free.map fun d => (c.cell d b).rank) :
    ∃ heads, c.Tuples free read heads ∧
      ((splitGroups (project columns (free.map c.columnOf)) (read.map (c.readColumns columns))).map fun rows =>
        (groupBindings columns (free.zip (free.map c.columnOf)) rows, rows)) = heads.map fun a =>
          (c.tupleOf free a, (read.filter (c.fits (c.tupleOf free a))).map (c.readColumns columns)) := by
  obtain ⟨heads, ⟨hsublist, hheads, hfirst, hall⟩, hsplit⟩ := splitGroups_sorted
    (fun cells => free.map fun d => (c.cell d cells).rank)
      (fun a ha b hb => sameValues_iff ht hread hk hfree ha hb) hsorted
  have hmem : ∀ a ∈ heads, a ∈ read := fun a ha => hsublist.subset ha
  have hcells : ∀ a, (c.table.cellsOf (free.map c.columnOf) a).map Cell.rank = free.map fun d => (c.cell d a).rank := by
    intro a
    unfold Table.cellsOf
    rw [List.map_map, List.map_map]
    rfl
  have hproper : ∀ a ∈ read, Cell.ProperRow (c.table.cellsOf (free.map c.columnOf) a) := by
    intro a ha x hx
    obtain ⟨column, -, rfl⟩ := List.mem_map.1 hx
    exact Table.proper_cellOf ht hread.selected ((hread.mem a).1 ha) column
  refine ⟨heads, ⟨hsublist, ?_, ?_, fun b hb => ?_⟩, ?_⟩
  · refine hheads.imp_of_mem fun {a b} ha hb hlt => ?_
    rw [Cell.orderRows_lt_iff (hproper a (hmem a ha)) (hproper b (hmem b hb)), hcells, hcells]
    exact hlt
  · refine hheads.imp_of_mem fun {a b} ha hb hlt => Bool.eq_false_iff.2 fun hfits => hlt.ne ?_
    exact ((fits_tupleOf_iff ht hread hplain htable (hmem a ha) (hmem b hb)).1 hfits).symm
  · obtain ⟨a, ha, hab⟩ := hall b hb
    exact ⟨a, ha, (fits_tupleOf_iff ht hread hplain htable (hmem a ha) hb).2 hab.symm⟩
  · rw [hsplit, List.map_map]
    refine List.map_congr_left fun a ha => ?_
    obtain ⟨rest, hrest⟩ := hfirst a ha
    have hfilter : read.filter (c.fits (c.tupleOf free a)) = a :: rest := by
      rw [← hrest]
      refine List.filter_congr fun b hb => ?_
      rw [Bool.eq_iff_iff, fits_tupleOf_iff ht hread hplain htable (hmem a ha) hb, @decide_eq_true_iff _ (_)]
    rw [Function.comp_apply, hrest, hfilter, List.map_cons, groupBindings_readColumns hfree]
    refine congrArg (·, _) (List.map_congr_left fun d hd => ?_)
    obtain ⟨v, hv⟩ := (hk d hd).full a ⟨rows, hread.selected, (hread.mem a).1 (hmem a ha)⟩
    rw [hv]
    rfl

end Program

end LandUse
