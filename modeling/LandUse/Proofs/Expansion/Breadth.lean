import LandUse.Proofs.Expansion.Direct
import LandUse.Proofs.Expansion.Grouping
import LandUse.Proofs.Expansion.References
import LandUse.Proofs.Table.Ranking

namespace LandUse

open Outcome

namespace Table

lemma length_numberedRows (t : Table) : t.numberedRows.length = t.rows.length := by
  simp [numberedRows]

lemma length_selected {t : Table} {condition : String} {rows : List (List Cell)}
    (h : t.selected? condition = some rows) : rows.length ≤ t.rows.length := by
  unfold selected? at h
  split at h
  · cases h
    exact Nat.le_of_eq t.length_numberedRows
  · split at h
    · cases h
    · split at h
      · cases h
        exact Nat.le_trans (List.length_filter_le _ _) (Nat.le_of_eq t.length_numberedRows)
      · cases h

variable {t : Table} {columns orderBy : List String} {condition : String} {rows : List Row} {f : Failure}

lemma select_eq_ok (h : t.select columns condition orderBy = .ok rows) :
    ∃ selected, t.selected? condition = some selected ∧
      rows = (t.sortBy orderBy selected).map fun cells => readRow (t.cellsOf columns cells) := by
  unfold select at h
  split at h
  · cases h
  · dsimp only at h
    split at h
    · cases h
    · rename_i selected hs
      split at hs
      · cases hs
      · cases h
        exact ⟨selected, hs, rfl⟩

lemma select_eq_error (h : t.select columns condition orderBy = .error f) :
    (∃ column ∈ columns ++ orderBy, t.hasColumn column = false ∧
      f = .lookup "" (-1) ("table " ++ t.name ++ " has no column " ++ column)) ∨ ∃ message,
      f = .access message none := by
  unfold select at h
  split at h
  · rename_i column hfind
    cases h
    have hmissing := List.find?_some hfind
    exact .inl ⟨column, List.mem_of_find?_eq_some hfind, by simpa using hmissing, rfl⟩
  · dsimp only at h
    split at h <;> cases h
    exact .inr ⟨_, rfl⟩

lemma length_select (h : t.select columns condition orderBy = .ok rows) : rows.length ≤ t.rows.length := by
  obtain ⟨selected, hs, rfl⟩ := select_eq_ok h
  rw [List.length_map, sortBy, (sorted_perm _ _).length_eq]
  exact length_selected hs

end Table

namespace Program

lemma length_readRows {p : Program} {entry : IndexEntry} {rows : List Row} (h : p.readRows entry = .ok rows) :
    rows.length ≤ p.catalog.table.rows.length := by
  unfold readRows at h
  split at h
  · cases h
    exact Nat.zero_le _
  · rw [bind_eq_ok] at h
    obtain ⟨order, -, h⟩ := h
    exact Table.length_select h

lemma flatten_splitGroups (key : Row → List Value) (rows : List Row) : (splitGroups key rows).flatten = rows := by
  induction rows with
  | nil => rfl
  | cons row rows ih =>
    unfold splitGroups
    split <;> rename_i hs <;> rw [hs] at ih
    · simpa using ih
    · simpa using ih
    · split <;> simpa using ih

lemma flatten_groupRows (columns free : List String) (rows : List Row) :
    (groupRows columns free rows).flatten = rows := by
  unfold groupRows
  split
  · exact List.append_nil rows
  · exact flatten_splitGroups _ rows

lemma length_groupRows {columns free : List String} {rows group : List Row} (h : group ∈ groupRows columns free rows) :
    group.length ≤ rows.length := by
  have hs := (List.sublist_flatten_of_mem h).length_le
  rwa [flatten_groupRows] at hs

lemma groupsOf_eq_ok {α : Type} {p : Program} {name : String} {template : Segment α} {entry : IndexEntry}
    {code : Code} {groups : List (List Binding × List Row)} (h : p.groupsOf name template = .ok (entry, code, groups)) :
    p.index.entry name = .ok entry ∧ p.codes.get? name = some code ∧ ∃ rows columns, p.readRows entry = .ok rows ∧
      columnsOf p.catalog entry.free = .ok columns ∧ groups = (groupRows entry.columns columns rows).map fun rows =>
        (groupBindings entry.columns (entry.free.zip columns) rows, rows) := by
  unfold groupsOf at h
  rw [bind_eq_ok] at h
  obtain ⟨entry, he, h⟩ := h
  split at h
  case h_1 => cases h
  case h_2 code hc =>
    dsimp only at h
    split at h
    case h_1 =>
      split at h
      · cases h
      · simp only [bind_eq_ok, pure_eq_ok, Except.ok.injEq, Prod.mk.injEq] at h
        obtain ⟨rows, hr, columns, hf, rfl, rfl, rfl⟩ := h
        exact ⟨he, hc, rows, columns, hr, hf, rfl⟩
    case h_2 =>
      simp only [bind_eq_ok, pure_eq_ok, Except.ok.injEq, Prod.mk.injEq] at h
      obtain ⟨rows, hr, columns, hf, rfl, rfl, rfl⟩ := h
      exact ⟨he, hc, rows, columns, hr, hf, rfl⟩

lemma length_groupsOf {α : Type} {p : Program} {name : String} {template : Segment α} {entry : IndexEntry}
    {code : Code} {groups : List (List Binding × List Row)} (h : p.groupsOf name template = .ok (entry, code, groups))
    {bindings : List Binding} {group : List Row} (hg : (bindings, group) ∈ groups) :
    group.length ≤ p.catalog.table.rows.length := by
  obtain ⟨-, -, rows, columns, hr, -, rfl⟩ := groupsOf_eq_ok h
  simp only [List.mem_map, Prod.mk.injEq] at hg
  obtain ⟨group, hg, -, rfl⟩ := hg
  exact Nat.le_trans (length_groupRows hg) (length_readRows hr)

def Within (n : Nat) (its : List Iteration) : Prop := its.length ≤ n ∧ ∀ it ∈ its, it.rows.length ≤ n

lemma within_addRow {n : Nat} {its : List Iteration} (v : Value) (row : Row) (h : Within n its) :
    Within (n + 1) (addRow v row its) := by
  obtain ⟨hl, hr⟩ := h
  have hlength : (addRow v row its).length ≤ its.length + 1 := by
    clear hl hr
    fun_induction addRow v row its <;> simp_all
  have hrows : ∀ it ∈ addRow v row its, it.rows.length ≤ n + 1 := by
    clear hl hlength
    fun_induction addRow v row its with
    | case1 => simp
    | case2 it its hv =>
      obtain ⟨hit, hits⟩ := List.forall_mem_cons.mp hr
      refine List.forall_mem_cons.mpr ⟨by simpa using hit, fun i hi => Nat.le_succ_of_le (hits i hi)⟩
    | case3 it its hv ih =>
      obtain ⟨hit, hits⟩ := List.forall_mem_cons.mp hr
      exact List.forall_mem_cons.mpr ⟨Nat.le_succ_of_le hit, ih hits⟩
  exact ⟨Nat.le_trans hlength (Nat.succ_le_succ hl), hrows⟩

lemma within_groupBy (column : Nat) (rows : List Row) : Within rows.length (groupBy column rows) := by
  have hnil : Within 0 [] := ⟨Nat.le_refl 0, List.forall_mem_nil _⟩
  refine groupBy_induction (motive := fun rows its => Within rows.length its) hnil (fun rows its row _ h => ?_)
    (fun rows its row v _ h => ?_) rows
  · rw [List.length_append]
    exact ⟨Nat.le_succ_of_le h.1, fun it hit => Nat.le_succ_of_le (h.2 it hit)⟩
  · rw [List.length_append]
    exact within_addRow v row h

end Program

namespace Direct

def Place.Bounded (p : Program) (here : Place) : Prop := here.frame.rows.length ≤ p.catalog.table.rows.length

lemma within_iterations {p : Program} {columns : List String} {here : Place} {dim : String}
    {memo : Catalog.Memo} {its : List Iteration} (hb : here.Bounded p)
    (h : (iterations p columns here.frame dim memo).1 = .ok its) :
    its.length ≤ p.breadth ∧ ∀ it ∈ its, ∀ i, (here.inside dim it i).Bounded p := by
  rcases iterations_cases h with ⟨-, rfl⟩ | ⟨column, i, -, -, rfl⟩
  · refine ⟨?_, ?_⟩
    · simp only [List.length_map, Catalog.optionValues, List.length_range]
      exact Nat.le_max_left _ _
    · simp only [List.mem_map]
      rintro it ⟨v, -, rfl⟩ i
      exact hb
  · obtain ⟨hl, hr⟩ := Program.within_groupBy i here.frame.rows
    exact ⟨Nat.le_trans hl (Nat.le_trans hb (Nat.le_max_right _ _)), fun it hit _ => Nat.le_trans (hr it hit) hb⟩

end Direct

end LandUse
