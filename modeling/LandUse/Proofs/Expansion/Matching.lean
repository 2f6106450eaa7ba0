import LandUse.Proofs.Expansion.Points

/-! At every point of a generation the rows in scope are the selected ones that match the bindings. -/

namespace LandUse

open Outcome

namespace Catalog

def Memo.counting (m : Memo) : Dict Nat × List String × Buckets := (m.lengths, m.levels, m.counts)

lemma truthful_of_counting {c : Catalog} {m : Memo} (h : m.counting = Memo.counting {}) : c.Truthful m := by
  obtain ⟨hlengths, h⟩ := Prod.mk.inj h
  obtain ⟨hlevels, hcounts⟩ := Prod.mk.inj h
  refine fun rows _ => ⟨fun dim n h => ?_, fun dim dims cells _ _ _ _ h => ?_, fun key n h => ?_⟩
  · rw [hlengths] at h
    cases h
  · rw [hlevels] at h
    cases h
  · rw [hcounts] at h
    cases h

lemma counting_values (c : Catalog) (dim : String) (m : Memo) : (result (c.values dim) m).2.counting = m.counting := by
  rcases c.values_cases dim m with h | ⟨vs, h⟩
  · rw [h]
  · rw [h]
    rfl

lemma counting_mapM_values (c : Catalog) (dims : List String) (m : Memo) :
    (result (dims.mapM c.values) m).2.counting = m.counting := by
  induction dims generalizing m with
  | nil => rfl
  | cons dim dims ih =>
    rw [List.mapM_cons, result_bind]
    have hdim := c.counting_values dim m
    rcases hr : result (c.values dim) m with ⟨f | vs, m₁⟩
    · rw [hr] at hdim
      exact hdim
    · rw [hr] at hdim
      rw [proceed_ok, result_bind]
      have hdims := ih m₁
      rcases hr' : result (dims.mapM c.values) m₁ with ⟨f | vss, m₂⟩ <;>
        rw [hr'] at hdims <;> exact hdims.trans hdim

end Catalog

lemma Offsets.counting_enumerateEach (c : Catalog) (o : Offsets) (m : Catalog.Memo) (vs : List Variable) :
    (enumerateEach c o m vs).2.2.counting = m.counting := by
  induction vs generalizing o m with
  | nil => rfl
  | cons v vs ih =>
    have hv : (result (enumerate c o v) m).2.counting = m.counting := by
      have hvalues := c.counting_mapM_values v.dimensions m
      rw [enumerate, result_bind]
      rcases hr : result (v.dimensions.mapM c.values) m with ⟨f | vss, m₁⟩ <;> rw [hr] at hvalues <;> exact hvalues
    unfold enumerateEach
    split
    case h_1 o' m₁ hr =>
      change result (enumerate c o v) m = _ at hr
      rw [hr] at hv
      exact (ih o' m₁).trans hv
    case h_2 f m₁ hr =>
      change result (enumerate c o v) m = _ at hr
      rw [hr] at hv
      exact hv

namespace Program

lemma make_truthful {s : Settings} {t : Table} {condition : String} {p : Program} {memo : Catalog.Memo}
    (h : make s t condition = .ok (p, memo)) : p.catalog.Truthful memo := by
  simp only [make, bind_eq_ok, pure_eq_ok, Except.ok.injEq, Prod.mk.injEq] at h
  obtain ⟨index, -, catalog, -, declared, -, ⟨⟩, -, trees, -, rfl, rfl⟩ := h
  exact Catalog.truthful_of_counting (Offsets.counting_enumerateEach ..)

def RowsOf (p : Program) (entry : IndexEntry) (read : List (List Cell)) : Prop :=
  if entry.columns = [] then read = []
  else ∃ rows order, p.catalog.table.selected? p.catalog.condition = some rows ∧
    columnsOf p.catalog (entry.free ++ entry.loops) = .ok order ∧ read = p.catalog.table.sortBy order rows

variable {p : Program} (hp : p.Supplied) (hi : p.Indexed)

include hp in
lemma columnsOf_eq_map {dims columns : List String} (hdims : ∀ d ∈ dims, d ≠ optionsDimension ∧
      ∃ column, p.settings.dimensions.get? d = some column ∧ column ∈ columns) :
    columnsOf p.catalog dims = .ok (dims.map p.catalog.columnOf) ∧
      ∀ d ∈ dims, p.catalog.OfTable d ∧ p.catalog.columnOf d ∈ columns ∧ ∃ dim, p.catalog.resolve d = .ok dim := by
  obtain ⟨cs, hcs, hall⟩ := columnsOf_eq hp hdims
  refine ⟨?_, fun d hd => ?_⟩
  · rw [hcs]
    refine congrArg Except.ok ?_
    clear hcs hdims
    induction hall with
    | nil => rfl
    | cons h _ ih => rw [List.map_cons, (Catalog.ofTable_of_get? h.1 h.2.1).2, ih]
  · obtain ⟨hne, column, hget, hmem⟩ := hdims d hd
    rw [← hp.columns] at hget
    obtain ⟨htable, rfl⟩ := Catalog.ofTable_of_get? hne hget
    exact ⟨htable, hmem, _, resolve_eq hne hget⟩

lemma sorted_sortBy {c : Catalog} (ht : c.table.Proper) {rows : List (List Cell)}
    (hrows : c.table.selected? c.condition = some rows) (free loops : List String) :
    (c.table.sortBy ((free ++ loops).map c.columnOf) rows).Pairwise fun a b =>
      (free.map fun d => (c.cell d a).rank) ≤ free.map fun d => (c.cell d b).rank := by
  have hcells : ∀ a, (c.table.cellsOf ((free ++ loops).map c.columnOf) a).map Cell.rank =
      (free.map fun d => (c.cell d a).rank) ++ loops.map fun d => (c.cell d a).rank := by
    intro a
    unfold Table.cellsOf
    rw [List.map_map, List.map_map, List.map_append]
    rfl
  refine (Table.pairwise_sorted (f := c.table.cellsOf ((free ++ loops).map c.columnOf)) fun a ha x hx => ?_).imp ?_
  · obtain ⟨column, -, rfl⟩ := List.mem_map.1 hx
    exact Table.proper_cellOf ht hrows ha column
  · intro a b hab
    rw [hcells, hcells] at hab
    refine le_of_not_gt fun hlt => not_lt_of_ge hab ?_
    exact append_lt_append (by rw [List.length_map, List.length_map]) hlt

section Generating

variable (ht : p.catalog.table.Proper) (hk : p.catalog.Keyed) {α σ : Type} {name : String}
include hp hi ht hk

omit hk in
lemma groupsOf_reads {template : Segment α} {entry : IndexEntry} {code : Code} {groups : List (List Binding × List Row)}
    (h : p.groupsOf name template = .ok (entry, code, groups)) :
    ∃ read, p.RowsOf entry read ∧
      (entry.columns ≠ [] → ∃ rows, p.catalog.Reads rows read ∧ read.Pairwise fun a b =>
        (entry.free.map fun d => (p.catalog.cell d a).rank) ≤ entry.free.map fun d => (p.catalog.cell d b).rank) ∧
      groups = (groupRows entry.columns (entry.free.map p.catalog.columnOf)
        (read.map (p.catalog.readColumns entry.columns))).map fun rows =>
          (groupBindings entry.columns (entry.free.zip (entry.free.map p.catalog.columnOf)) rows, rows) := by
  obtain ⟨hentry, -, rows, cs, hrows, hcs, rfl⟩ := groupsOf_eq_ok h
  have hcovers := hi.covers hentry
  obtain ⟨horder, -⟩ := columnsOf_eq_map hp hcovers.sorted
  obtain ⟨hfree, -⟩ := columnsOf_eq_map hp fun d hd => hcovers.sorted d (List.mem_append_left _ hd)
  obtain rfl : entry.free.map p.catalog.columnOf = cs := Except.ok.inj (hfree.symm.trans hcs)
  unfold readRows at hrows
  unfold RowsOf
  by_cases hcolumns : entry.columns = []
  · rw [if_pos (List.isEmpty_iff.2 hcolumns)] at hrows
    obtain rfl := Except.ok.inj hrows
    exact ⟨[], by rw [if_pos hcolumns], fun h => absurd hcolumns h, rfl⟩
  · rw [if_neg fun h => hcolumns (List.isEmpty_iff.1 h), horder, ok_bind] at hrows
    obtain ⟨selected, hselected, rfl⟩ := Table.select_eq_ok hrows
    refine ⟨_, ?_, fun _ => ⟨selected, ⟨hselected, fun _ => Table.mem_sorted⟩, sorted_sortBy ht hselected _ _⟩, rfl⟩
    rw [if_neg hcolumns]
    exact ⟨selected, _, hselected, horder, rfl⟩

lemma scoped_groupsOf {template : Segment α} {entry : IndexEntry} {code : Code}
    {groups : List (List Binding × List Row)}
    (h : p.groupsOf name template = .ok (entry, code, groups)) {base : Frame} (hbase : base.bindings = []) :
    ∃ read, p.RowsOf entry read ∧ (entry.columns ≠ [] → ∃ rows, p.catalog.Reads rows read) ∧
      ∀ group ∈ groups, Frame.Scoped p.catalog entry.columns read ⟨entry.name, base.bindings ++ group.1, group.2⟩ := by
  rw [hbase]
  have hcovers := hi.covers (groupsOf_eq_ok h).1
  obtain ⟨-, htable⟩ := columnsOf_eq_map hp fun d hd => hcovers.sorted d (List.mem_append_left _ hd)
  obtain ⟨read, hrowsOf, hreads, rfl⟩ := groupsOf_reads hp hi ht h
  refine ⟨read, hrowsOf, fun hcolumns => (hreads hcolumns).imp fun _ h => h.1, fun group hgroup => ?_⟩
  obtain ⟨group, hmem, rfl⟩ := List.mem_map.1 hgroup
  by_cases hcolumns : entry.columns = []
  · have hnone : entry.free = [] := by
      refine List.eq_nil_iff_forall_not_mem.2 fun d hd => ?_
      have hmem := (htable d hd).2.1
      rw [hcolumns] at hmem
      cases hmem
    unfold RowsOf at hrowsOf
    rw [if_pos hcolumns] at hrowsOf
    subst hrowsOf
    rw [hnone] at hmem ⊢
    rw [List.mem_singleton.1 hmem]
    exact ⟨rfl, nofun, fun ⟨_, hb, _⟩ => nomatch hb⟩
  · obtain ⟨rows, hread, hsorted⟩ := hreads hcolumns
    exact scoped_group ht hk hread (fun d hd => hcovers.plain d (List.mem_append_left _ hd))
      (fun d hd => (htable d hd).2.2) (fun d hd => (htable d hd).1) (fun d hd => (htable d hd).2.1)
      hsorted entry.name hmem

omit ht hk in
lemma counted_groupsOf {template : Segment α} {f : Failure} (h : p.groupsOf name template = .error f) :
    Fault.Counted (.failure f) := by
  rcases groupsOf_eq_error hp hi h with h | rfl | ⟨s, rfl⟩ | ⟨_, _, -, -, h⟩
  · unfold Index.entry at h
    split at h <;> cases h
    exact counted_of_kind nofun
  · exact counted_of_kind nofun
  · rintro _ ⟨⟩ - hlast
    dsimp only [Failure.dimension] at hlast
    rw [String.toList_append, List.reverse_append] at hlast
    cases hlast
  · rcases Table.select_eq_error h with ⟨_, -, -, rfl⟩ | ⟨_, rfl⟩ <;> exact counted_of_kind nofun

omit hi
variable [Scalar α] {entry : IndexEntry} {code : Code} {read : List (List Cell)}
  (hread : entry.columns ≠ [] → ∃ rows, p.catalog.Reads rows read) (hcode : Walk.Covered p entry.columns code.tokens)
  (sink : Sink α σ) (template : Segment α) {base : Frame}
include hread hcode

lemma generateGroup_keeps {bindings : List Binding} {rows : List Row}
    (hframe : Frame.Scoped p.catalog entry.columns read ⟨entry.name, base.bindings ++ bindings, rows⟩)
    {g : Generation σ}
    (hg : p.catalog.Truthful g.memo) :
    p.catalog.Truthful (p.generateGroup sink entry code template base bindings rows g).2.memo ∧
      ∀ e, (p.generateGroup sink entry code template base bindings rows g).1 = .error e →
        (∃ state segment emitted, (sink.receive state segment emitted true).1 = .error e) ∨ e.Counted := by
  have hrun := Walk.yields_run (α := α) hp ht hk hread (p.equationSteps (p.trees.length + 1) entry.name + 1)
    (List.forall_mem_singleton.2 (show (Walk.Task.code code.tokens).Leads p entry.columns read from hcode))
    (s := ⟨g.scope.restore ⟨entry.name, base.bindings ++ bindings, rows⟩, g.memo, []⟩) ⟨hframe, hg⟩
  unfold Walk.Yields result at hrun
  unfold generateGroup walk
  split at hrun
  · rename_i b s hrun'
    dsimp only
    rw [hrun']
    exact ⟨hrun, fun e he => .inl ⟨_, _, _, he⟩⟩
  · rename_i e s hrun'
    dsimp only
    rw [hrun']
    refine ⟨hrun.1, ?_⟩
    rintro _ ⟨⟩
    exact .inr hrun.2

lemma generateGroups_keeps {groups : List (List Binding × List Row)}
    (hgroups : ∀ group ∈ groups, Frame.Scoped p.catalog entry.columns read
      ⟨entry.name, base.bindings ++ group.1, group.2⟩) {g : Generation σ} (hg : p.catalog.Truthful g.memo) :
    p.catalog.Truthful (p.generateGroups sink entry code template base groups g).2.memo ∧
      ∀ e, (p.generateGroups sink entry code template base groups g).1 = .error e →
        (∃ state segment emitted, (sink.receive state segment emitted true).1 = .error e) ∨ e.Counted := by
  induction groups generalizing g with
  | nil => exact ⟨hg, nofun⟩
  | cons group groups ih =>
    obtain ⟨hgroup, hrest⟩ := List.forall_mem_cons.1 hgroups
    obtain ⟨bindings, rows⟩ := group
    obtain ⟨hmemo, hfail⟩ := generateGroup_keeps hp ht hk hread hcode sink template hgroup hg
    unfold generateGroups
    rcases hr : p.generateGroup sink entry code template base bindings rows g with ⟨e | _, g₁⟩
    · rw [hr] at hmemo hfail
      refine ⟨hmemo, ?_⟩
      rintro _ ⟨⟩
      exact hfail e rfl
    · rw [hr] at hmemo
      exact ih hrest hmemo

end Generating

inductive Generated (p : Program) (memo : Catalog.Memo) : Scope → Catalog.Memo → Prop
  | start : Generated p memo {} memo
  | generate {α σ : Type} [Scalar α] (sink : Sink α σ) (name : String) (template : Segment α) (g : Generation σ) :
      Generated p memo g.scope g.memo →
      Generated p memo (p.generate sink name template g).2.scope (p.generate sink name template g).2.memo

section Generations

variable {α σ : Type} [Scalar α]

inductive Passes (p : Program) (sink : Sink α σ) (name : String) (template : Segment α) (g : Generation σ) :
    IndexEntry → List Walk.Task → Walk.State α → Prop
  | intro {entry : IndexEntry} {code : Code} {before after : List (List Binding × List Row)} {bindings : List Binding}
      {rows : List Row} {g' : Generation σ} {tasks : List Walk.Task} {s : Walk.State α} :
      p.groupsOf name template = .ok (entry, code, before ++ (bindings, rows) :: after) →
      p.generateGroups sink entry code template g.scope.frame before g = (.ok (), g') →
      Walk.Reaches p entry.columns [.code code.tokens]
        ⟨g'.scope.restore ⟨entry.name, g.scope.frame.bindings ++ bindings, rows⟩, g'.memo, []⟩ tasks s →
      Passes p sink name template g entry tasks s

variable (ht : p.catalog.table.Proper) (hk : p.catalog.Keyed) (sink : Sink α σ) (name : String) (template : Segment α)
  {g : Generation σ} (hbase : g.scope.frame.bindings = []) (hg : p.catalog.Truthful g.memo)
include hp hi ht hk hbase hg

lemma generate_keeps : p.catalog.Truthful (p.generate sink name template g).2.memo ∧
    (p.generate sink name template g).2.scope.frame = g.scope.frame ∧
    ∀ e, (p.generate sink name template g).1 = .error e →
      (∃ state segment emitted, (sink.receive state segment emitted true).1 = .error e) ∨ e.Counted := by
  unfold generate
  cases hgroups : p.groupsOf name template with
  | error f =>
    refine ⟨hg, rfl, ?_⟩
    rintro _ ⟨⟩
    exact .inr (counted_groupsOf hp hi hgroups)
  | ok x =>
    obtain ⟨entry, code, groups⟩ := x
    obtain ⟨hentry, hcode, -⟩ := groupsOf_eq_ok hgroups
    obtain ⟨-, rfl⟩ := hi.entry_name hentry
    obtain ⟨depth, hcovered⟩ := (hi.covers hentry).equation
    obtain ⟨read, -, hread, hscoped⟩ := scoped_groupsOf hp hi ht hk hgroups hbase
    obtain ⟨hmemo, hfail⟩ := generateGroups_keeps hp ht hk hread (Walk.covered_equation hi hcovered hcode) sink
      template hscoped hg
    refine ⟨hmemo, rfl, fun e he => hfail e ?_⟩
    dsimp only at he
    cases hr : (p.generateGroups sink entry code template g.scope.frame groups g).1 with
    | ok _ =>
      rw [hr] at he
      cases he
    | error e' =>
      rw [hr] at he
      cases he
      rfl

lemma Passes.here {entry : IndexEntry} {tasks : List Walk.Task} {s : Walk.State α}
    (h : p.Passes sink name template g entry tasks s) :
    ∃ read, p.RowsOf entry read ∧ (entry.columns ≠ [] → ∃ rows, p.catalog.Reads rows read) ∧
      Walk.Here p entry.columns read s ∧ ∀ task ∈ tasks, task.Leads p entry.columns read := by
  obtain ⟨hgroups, hbefore, hreaches⟩ := h
  obtain ⟨hentry, hcode, -⟩ := groupsOf_eq_ok hgroups
  obtain ⟨-, rfl⟩ := hi.entry_name hentry
  obtain ⟨depth, hcovered⟩ := (hi.covers hentry).equation
  have hcode := Walk.covered_equation hi hcovered hcode
  obtain ⟨read, hrows, hread, hscoped⟩ := scoped_groupsOf hp hi ht hk hgroups hbase
  rw [List.forall_mem_append, List.forall_mem_cons] at hscoped
  obtain ⟨hbefores, hgroup, -⟩ := hscoped
  obtain ⟨hmemo, -⟩ := generateGroups_keeps hp ht hk hread hcode sink template hbefores hg
  rw [hbefore] at hmemo
  exact ⟨read, hrows, hread, hreaches.here hp ht hk hread (List.forall_mem_singleton.2 hcode) ⟨hgroup, hmemo⟩⟩

end Generations

include hp hi in
lemma Generated.truthful {memo : Catalog.Memo} (ht : p.catalog.table.Proper) (hk : p.catalog.Keyed)
    (hmemo : p.catalog.Truthful memo) {scope : Scope} {m : Catalog.Memo} (h : p.Generated memo scope m) :
    scope.frame.bindings = [] ∧ p.catalog.Truthful m := by
  induction h with
  | start => exact ⟨rfl, hmemo⟩
  | generate sink name template g _ ih =>
    obtain ⟨hm, hframe, -⟩ := generate_keeps hp hi ht hk sink name template ih.1 ih.2
    exact ⟨hframe ▸ ih.1, hm⟩

end Program

def Catalog.Textual (c : Catalog) : Prop :=
  ∀ x ∈ c.columns, ∀ rows ∈ c.table.selected? c.condition, ∀ cells ∈ rows,
    match c.table.cellOf x.2 cells with
    | some (.text s) => Number.Visible s
    | _ => False

instance (c : Catalog) : Decidable c.Textual :=
  have (x : Cell) : Decidable (match x with
    | some (.text s) => Number.Visible s
    | _ => False) :=
    match x with
    | some (.text s) => inferInstanceAs (Decidable (Number.Visible s))
    | some (.int _) | some (.double _) | none => inferInstanceAs (Decidable False)
  inferInstanceAs (Decidable (∀ _ ∈ _, _))

lemma Catalog.Textual.keyed {c : Catalog} (h : c.Textual) : c.Keyed := by
  have hcell : ∀ dim column, c.columns.get? dim = some column → ∀ cells, c.Selected cells →
      ∃ s, c.table.cellOf column cells = some (.text s) ∧ Number.Visible s := by
    rintro dim column hget cells ⟨rows, hrows, hcells⟩
    have hx := h (dim, column) (Dict.mem_of_get? hget) rows hrows cells hcells
    split at hx
    · rename_i s hs
      exact ⟨s, hs, hx⟩
    · exact hx.elim
  refine ⟨fun dim column hget cells hsel => ?_, fun dim column hget cells cells' hsel hsel' hkey => ?_⟩
  · obtain ⟨s, hs, hvisible⟩ := hcell dim column hget cells hsel
    refine ⟨.text s, hs, ?_⟩
    rintro _ ⟨⟩
    exact hvisible
  · obtain ⟨s, hs, -⟩ := hcell dim column hget cells hsel
    obtain ⟨s', hs', -⟩ := hcell dim column hget cells' hsel'
    rw [hs, hs'] at hkey ⊢
    obtain rfl : s = s' := (String.append_right_inj _).1 hkey
    have hproper : Cell.Proper (some (.text s)) := by
      rintro _ ⟨⟩
      trivial
    rw [Cell.order_eq_compare hproper hproper, compare_eq_iff_eq]

variable {α σ : Type} [Scalar α]

def unitSums : Settings where
  options := ["forest", "arable"]
  dimensions := [("UNIT", "unit")]
  equations := [("twice", "sum\x7bUNIT\x7d(sum\x7bUNIT\x7d(X[1]))"), ("once", "X[1]")]
  decisions := [⟨"X", ["OPTIONS"], 0, 1, true, .real⟩]

def unitRows (names : List String) : Except Failure Table :=
  Table.create "units" [⟨"unit", .text⟩] (names.map fun name => [some (.text name)])

def sumSegment : Segment Float := ⟨"sum", .constraint .le 0, []⟩

end LandUse
