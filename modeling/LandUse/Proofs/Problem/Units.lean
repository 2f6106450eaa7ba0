import LandUse.Proofs.Expansion.Integers
import LandUse.Proofs.Linear.Yield

namespace LandUse

open Outcome Number

structure Catalog.Units (c : Catalog) (dim column : String) (units : List (List Cell)) : Prop where
  proper : c.table.Proper
  dimension : c.resolve dim = .ok ⟨dim, some column⟩
  selected : ∃ rows, c.table.selected? c.condition = some rows ∧ units = c.table.sortBy [column] rows
  keys : (units.map fun r => (c.valueAt column r).key).Nodup

namespace Catalog.Units

variable {c : Catalog} {dim column : String} {units : List (List Cell)} (h : c.Units dim column units)

include h

lemma proper_cellOf {r : List Cell} (hr : r ∈ units) : (c.table.cellOf column r).Proper := by
  obtain ⟨rows, hrows, rfl⟩ := h.selected
  exact Table.proper_cellOf h.proper hrows (Table.mem_sorted.1 hr) column

lemma proper_valueAt {r : List Cell} (hr : r ∈ units) : (c.valueAt column r).Proper := by
  have hproper := h.proper_cellOf hr
  unfold valueAt
  cases hcell : c.table.cellOf column r with
  | none => trivial
  | some v => exact hproper v hcell

lemma pairwise_keys : units.Pairwise fun a b => (c.valueAt column a).key ≠ (c.valueAt column b).key :=
  List.pairwise_map.1 h.keys

lemma pairwise_cells : (units.map fun r => [c.table.cellOf column r]).Pairwise fun a b => Cell.orderRows a b ≠ .eq := by
  refine List.pairwise_map.2 (h.pairwise_keys.imp_of_mem fun {a b} ha hb hne horder => hne ?_)
  have hrow : ∀ {r}, r ∈ units → Cell.ProperRow [c.table.cellOf column r] := fun hr =>
    List.forall_mem_singleton.2 (h.proper_cellOf hr)
  rw [Cell.orderRows_eq_iff (hrow ha) (hrow hb)] at horder
  exact key_readCell (h.proper_cellOf ha) (h.proper_cellOf hb) (List.cons.inj horder).1

lemma valueList_eq : c.valueList {} dim = units.map (c.valueAt column) := by
  obtain ⟨rows, hrows, hunits⟩ := h.selected
  have htuples : Table.distinctTuples (rows.map fun r => [c.table.cellOf column r]) =
      units.map fun r => [c.table.cellOf column r] := by
    have hsort : Table.sorted (fun a b => Cell.orderRows a b != .gt) (rows.map fun r => [c.table.cellOf column r]) =
        units.map fun r => [c.table.cellOf column r] := by
      rw [hunits, Table.sortBy, Table.sorted_map]
      rfl
    rw [Table.distinctTuples, hsort, Table.dropRepeats_of_pairwise h.pairwise_cells]
  have hvalues : c.table.distinctValues column c.condition = .ok (units.map (c.valueAt column)) := by
    simp only [Table.distinctValues, Table.aggregate, hrows, ok_bind, htuples, List.flatMap_map]
    exact congrArg Except.ok (List.flatMap_pure_eq_map (c.valueAt column) units)
  rw [valueList, listed, result_values, h.dimension]
  simp only [hvalues]
  rfl

omit h in
lemma valueList_options (c : Catalog) : c.valueList {} optionsDimension = c.optionValues := rfl

omit h in
lemma splitGroups_of_pairwise {key : Row → List Value} {rows : List Row}
    (h : rows.Pairwise fun a b => Program.sameValues (key a) (key b) = false) :
    Program.splitGroups key rows = rows.map ([·]) := by
  induction rows with
  | nil => rfl
  | cons row rows ih =>
    rw [Program.splitGroups, ih h.of_cons]
    cases rows with
    | nil => rfl
    | cons next rows =>
      have hnext := List.rel_of_pairwise_cons h List.mem_cons_self
      simp [hnext]

omit h in
lemma bind_valueAt {columns : List String} (hcolumn : column ∈ columns) (r : List Cell) :
    (columns.findIdx? (· == column)).bind ((c.readColumns columns r)[·]?) = some (c.valueAt column r) := by
  obtain ⟨i, hi, hget⟩ := Program.readRow_findIdx? c.table r hcolumn
  rw [hi]
  exact hget

lemma splitGroups_units {columns : List String} (hcolumn : column ∈ columns) :
    Program.splitGroups (Program.project columns [column]) (units.map (c.readColumns columns)) =
      units.map fun r => [c.readColumns columns r] := by
  have hproject : ∀ r, Program.project columns [column] (c.readColumns columns r) = [c.valueAt column r] := by
    intro r
    simp only [Program.project, List.filterMap_cons, List.filterMap_nil, bind_valueAt hcolumn]
  rw [splitGroups_of_pairwise, List.map_map]
  · rfl
  · refine List.pairwise_map.2 (h.pairwise_keys.imp_of_mem fun {a b} ha hb hne => ?_)
    rw [hproject, hproject]
    by_contra hsame
    simp only [Program.sameValues, Bool.and_true, Bool.not_eq_false] at hsame
    exact hne (Value.key_eq_of_equal (h.proper_valueAt ha) (h.proper_valueAt hb) hsame)

end Catalog.Units

namespace Offsets

lemma make_offsets {s : Settings} {t : Table} {condition : String} {p : Program} {memo : Catalog.Memo}
    (h : Program.make s t condition = .ok (p, memo)) : p.offsets.declared = s.decisions ∧
      p.offsets.entries = (ordered { declared := s.decisions }).flatMap (instances (p.catalog.valueList {})) ∧
      p.offsets.keys = p.offsets.entries.map (·.key) := by
  simp only [Program.make, bind_eq_ok, pure_eq_ok, Except.ok.injEq, Prod.mk.injEq] at h
  obtain ⟨index, -, catalog, -, declared, hdeclared, ⟨⟩, hbuilt, trees, -, rfl, -⟩ := h
  rcases hbuild : declared.build catalog {} with ⟨r, o, m⟩
  rw [hbuild] at hbuilt
  obtain rfl : r = .ok () := hbuilt
  obtain ⟨rfl, -⟩ := build_eq hbuild
  have hdecisions := declareAll_eq hdeclared
  refine ⟨hdecisions, ?_, rfl⟩
  rw [← hdecisions]
  rfl

variable {c : Catalog} {dim column areal binary : String} {units : List (List Cell)} {kind : VariableKind}

def arealInstance (c : Catalog) (column name : String) (kind : VariableKind) (r : List Cell) (o : Nat) :
    VariableInstance :=
  ⟨name, [c.valueAt column r, .int (Int64.ofNat o)], kind⟩

def binaryInstance (c : Catalog) (column name : String) (r : List Cell) : VariableInstance :=
  ⟨name, [c.valueAt column r], .binary⟩

def unitInstances (c : Catalog) (column areal binary : String) (kind : VariableKind) (units : List (List Cell)) :
    List VariableInstance :=
  (units.flatMap fun r => (List.range c.options.length).map (arealInstance c column areal kind r)) ++
    units.map (binaryInstance c column binary)

lemma tuples_single (vs : List Value) : tuples [vs] = vs.map ([·]) := List.flatMap_pure_eq_map _ vs

lemma instances_units (h : c.Units dim column units) {v w : Variable} (hv : v.dimensions = [dim, optionsDimension])
    (hw : w.dimensions = [dim]) (hbinary : w.kind = .binary) :
    (ordered { declared := [v, w] }).flatMap (instances (c.valueList {})) =
      unitInstances c column v.name w.name v.kind units := by
  have hordered : ordered { declared := [v, w] } = [v, w] := by
    unfold ordered
    cases hkind : v.kind <;> simp [hkind, hbinary]
  have hareal : instances (c.valueList {}) v =
      units.flatMap fun r => (List.range c.options.length).map (arealInstance c column v.name v.kind r) := by
    rw [instances, hv, List.map_cons, List.map_cons, List.map_nil, h.valueList_eq,
      Catalog.Units.valueList_options, tuples,
      tuples_single, Catalog.optionValues, List.flatMap_map, List.map_flatMap]
    simp only [List.map_map]
    rfl
  have hbinaries : instances (c.valueList {}) w = units.map (binaryInstance c column w.name) := by
    rw [instances, hw, List.map_cons, List.map_nil, h.valueList_eq, tuples_single, hbinary, List.map_map, List.map_map]
    rfl
  rw [hordered, List.flatMap_cons, List.flatMap_cons, List.flatMap_nil, List.append_nil, hareal, hbinaries]
  rfl

lemma length_areas (f : List Cell → List VariableInstance) {n : Nat} (hf : ∀ r, (f r).length = n)
    (units : List (List Cell)) :
    (units.flatMap f).length = units.length * n := by
  simp [List.length_flatMap, hf, List.map_const', List.sum_replicate]

lemma getElem?_areas {f : List Cell → List VariableInstance} {n : Nat} (hf : ∀ r, (f r).length = n)
    {i o : Nat} (ho : o < n)
    {r : List Cell} (hi : units[i]? = some r) : (units.flatMap f)[i * n + o]? = (f r)[o]? := by
  induction units generalizing i with
  | nil => cases hi
  | cons u units ih =>
    rw [List.flatMap_cons]
    cases i with
    | zero =>
      cases hi
      rw [Nat.zero_mul, Nat.zero_add, List.getElem?_append_left (by rwa [hf])]
    | succ i =>
      have hsplit : (i + 1) * n + o = (f u).length + (i * n + o) := by rw [hf]; ring
      rw [hsplit, List.getElem?_append_right (Nat.le_add_right _ _), Nat.add_sub_cancel_left]
      exact ih hi

section Positions

variable {n i : Nat} {r : List Cell} (hn : c.options.length = n) (hi : units[i]? = some r)
include hn hi

lemma getElem?_areal {o : Nat} (ho : o < n) :
    (unitInstances c column areal binary kind units)[i * n + o]? = some (arealInstance c column areal kind r o) := by
  have hlength : ∀ r, ((List.range c.options.length).map (arealInstance c column areal kind r)).length = n := by
    simp [hn]
  have hlt := (List.getElem?_eq_some_iff.1 hi).1
  have hbound : i * n + o < units.length * n := by nlinarith
  rw [unitInstances, List.getElem?_append_left (by rwa [length_areas _ hlength]), getElem?_areas hlength ho hi,
    List.getElem?_map, List.getElem?_range (by rwa [hn])]
  rfl

lemma getElem?_binary :
    (unitInstances c column areal binary kind units)[units.length * n + i]? =
    some (binaryInstance c column binary r) := by
  have hlength : ∀ r, ((List.range c.options.length).map (arealInstance c column areal kind r)).length = n := by
    simp [hn]
  rw [unitInstances, List.getElem?_append_right (by rw [length_areas _ hlength]; exact Nat.le_add_right _ _),
    length_areas _ hlength, Nat.add_sub_cancel_left, List.getElem?_map, hi]
  rfl

end Positions

section Keys

open VariableInstance

lemma option_of_key {n k : Nat} (hn : n < 2 ^ 53) (hk : k < 2 ^ 53)
    (h : (Value.int (Int64.ofNat n)).key = (Value.int (Int64.ofNat k)).key) : n = k := by
  have hint : ∀ {n : Nat}, n < 2 ^ 53 → (Int64.ofNat n).toInt = n := fun hn => Int64.toInt_ofNat_of_lt (by omega)
  have heq := Value.eq_of_nearestInt (by rwa [hint hn, Int.natAbs_natCast]) (Value.key_int_iff.1 h)
  exact Int.ofNat_inj.1 ((hint hn).symm.trans ((congrArg Int64.toInt heq).trans (hint hk)))

lemma name_of_key {name name' : String} {t u : List Cell} (hname : Visible name) (hname' : Visible name')
    (h : keyOf name t = keyOf name' u) : name = name' := by
  have hhead : ∀ t : List Cell, ∀ x ∈ ((parts t).flatMap (zeroChar :: ·)).head?, x = zeroChar := by
    rintro (_ | ⟨cell, cells⟩) x hx <;> cases hx <;> rfl
  have hlists := congrArg String.toList h
  rw [toList_keyOf, toList_keyOf] at hlists
  exact String.toList_inj.1 (append_unique hname hname' (hhead t) (hhead u) hlists).1

lemma unit_of_binaryKey {name : String} {v w : Value} (h : keyOf name [some v] = keyOf name [some w]) :
    v.key = w.key := by
  have hlists := congrArg String.toList h
  rw [toList_keyOf, toList_keyOf] at hlists
  have hparts := List.append_cancel_left hlists
  simp only [List.map_nil, VariableInstance.parts, List.flatMap_cons, List.flatMap_nil,
    List.append_nil, List.cons.injEq,
    true_and] at hparts
  exact String.toList_inj.1 hparts

lemma unit_of_arealKey {name : String} {v w : Value} {o o' : Nat} (ho : o < 2 ^ 53) (ho' : o' < 2 ^ 53)
    (h : keyOf name [some v, some (.int (Int64.ofNat o))] = keyOf name [some w, some (.int (Int64.ofNat o'))]) :
    v.key = w.key ∧ o = o' := by
  have hlists := congrArg String.toList h
  rw [toList_keyOf, toList_keyOf] at hlists
  have hparts := List.append_cancel_left hlists
  simp only [List.map_cons, List.map_nil, VariableInstance.parts, List.flatMap_cons, List.flatMap_nil, List.append_nil,
    List.cons_append, List.cons.injEq, true_and] at hparts
  have hvisible : ∀ n : Nat, zeroChar ∉ (Value.int (Int64.ofNat n)).key.toList.reverse := fun n hmem =>
    Value.visible_key (v := .int (Int64.ofNat n)) (fun s hs => by cases hs) (List.mem_reverse.1 hmem)
  have hreverse := congrArg List.reverse hparts
  simp only [List.reverse_append, List.reverse_cons, List.append_assoc, List.singleton_append] at hreverse
  obtain ⟨hoption, hunit⟩ := append_unique (hvisible o) (hvisible o') (by simp) (by simp) hreverse
  refine ⟨String.toList_inj.1 (List.reverse_inj.1 (List.cons.inj hunit).2), ?_⟩
  exact option_of_key ho ho' (String.toList_inj.1 (List.reverse_inj.1 hoption))

lemma nodup_unitInstances (h : c.Units dim column units) (hoptions : c.options.length ≤ 2 ^ 53) (hareal : Visible areal)
    (hbinary : Visible binary) (hne : areal ≠ binary) :
    ((unitInstances c column areal binary kind units).map (·.key)).Nodup := by
  have hlt : ∀ {o}, o ∈ List.range c.options.length → o < 2 ^ 53 := fun ho =>
    Nat.lt_of_lt_of_le (List.mem_range.1 ho) hoptions
  refine List.pairwise_map.2 (List.pairwise_append.2 ⟨List.pairwise_flatMap.2 ⟨fun r _ => ?_, ?_⟩, ?_, ?_⟩)
  · exact List.pairwise_map.2 (List.nodup_range.imp_of_mem fun ho ho' hne hkey =>
      hne (unit_of_arealKey (hlt ho) (hlt ho') hkey).2)
  · refine h.pairwise_keys.imp fun hne e he f hf hkey => ?_
    obtain ⟨o, ho, rfl⟩ := List.mem_map.1 he
    obtain ⟨o', ho', rfl⟩ := List.mem_map.1 hf
    exact hne (unit_of_arealKey (hlt ho) (hlt ho') hkey).1
  · exact List.pairwise_map.2 (h.pairwise_keys.imp fun hne hkey => hne (unit_of_binaryKey hkey))
  · intro e he f hf hkey
    obtain ⟨r, -, he⟩ := List.mem_flatMap.1 he
    obtain ⟨o, -, rfl⟩ := List.mem_map.1 he
    obtain ⟨r', -, rfl⟩ := List.mem_map.1 hf
    exact hne (name_of_key hareal hbinary hkey)

end Keys

end Offsets

end LandUse
