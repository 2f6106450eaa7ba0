import LandUse.Proofs.Problem.Meanings
import LandUse.Proofs.Problem.Units

namespace LandUse

open Exact Outcome Direct Offsets

lemma sum_map_single {β κ M : Type} [AddCommMonoid M] {k : β → κ} {l : List β} (hkeys : (l.map k).Nodup) {a : β}
    (ha : a ∈ l) {f : β → M} (hf : ∀ b ∈ l, k b ≠ k a → f b = 0) : (l.map f).sum = f a := by
  classical
  have hother : ∀ b, b ≠ a → b ∈ l → f b = 0 := fun b hne hb =>
    hf b hb fun h => hne (List.inj_on_of_nodup_map hkeys hb ha h)
  rw [List.sum_map_eq_nsmul_single a f hother, List.count_eq_one_of_mem (hkeys.of_map _) ha, one_nsmul]

structure Program.Laid (p : Program) (dim column : String) (kind : VariableKind) (units : List (List Cell)) : Prop where
  catalog : p.catalog.Units dim column units
  options : p.catalog.options.length ≤ 2 ^ 53
  entries : p.offsets.entries = unitInstances p.catalog column "X" "b" kind units
  keys : p.offsets.keys = p.offsets.entries.map (·.key)

def Catalog.arealCells (c : Catalog) (column : String) (r : List Cell) (o : Nat) : List Cell :=
  [some (c.valueAt column r), some (.int (Int64.ofNat o))]

def Catalog.binaryCells (c : Catalog) (column : String) (r : List Cell) : List Cell := [some (c.valueAt column r)]

variable {K : Type} [Field K]

def Program.areaForm (p : Program) (column : String) (units : List (List Cell)) (a : List Cell → Nat → K)
    (b : List Cell → K)
    (x : List K) : K :=
  (units.map fun r =>
    ((List.range p.catalog.options.length).map fun o => a r o * p.offsets.read x "X"
      (p.catalog.arealCells column r o)).sum +
      b r * p.offsets.read x "b" (p.catalog.binaryCells column r)).sum

structure Coeffs.Weigh (cs : Coeffs K) (units : List (List Cell)) (n : Nat) (a : List Cell → Nat → K)
    (b : List Cell → K) :
    Prop where
  proper : cs.Proper (units.length * n + units.length)
  areal : ∀ i r o, units[i]? = some r → o < n → (cs.get? ((i * n + o : Nat) : Int)).getD 0 = a r o
  binary : ∀ i r, units[i]? = some r → (cs.get? ((units.length * n + i : Nat) : Int)).getD 0 = b r

lemma getD_zeros (n k : Nat) : (List.replicate n (0 : K)).getD k 0 = 0 := by
  rw [List.getD_eq_getElem?_getD, List.getElem?_replicate]
  split <;> rfl

lemma Offsets.read_zero (o : Offsets) (n : Nat) (name : String) (tuple : List Cell) :
    o.read (List.replicate n (0 : K)) name tuple = 0 := by
  unfold read
  split
  · exact getD_zeros n _
  · rfl

lemma Offsets.read_unit {o : Offsets} {name : String} {tuple : List Cell} {j k n : Nat}
    (h : o.offset name tuple = .ok j)
    (hk : k < n) : o.read ((List.replicate n (0 : K)).set k 1) name tuple = if j = k then 1 else 0 := by
  unfold read
  simp only [h]
  by_cases hjk : j = k
  · subst hjk
    simp [List.getD_eq_getElem?_getD, hk]
  · rw [List.getD_eq_getElem?_getD, List.getElem?_set_ne (Ne.symm hjk), if_neg hjk, ← List.getD_eq_getElem?_getD,
      getD_zeros]

section Single

variable {p : Program} {dim column : String} {units : List (List Cell)} (h : p.catalog.Units dim column units)
  {x : List K}
  {r : List Cell} (hr : r ∈ units) (a : List Cell → Nat → K) (b : List Cell → K)

include h hr

lemma areaForm_areal {o : Nat} (ho : o < p.catalog.options.length)
    (hareal : ∀ r' ∈ units, ∀ o' < p.catalog.options.length, p.offsets.read x "X" (p.catalog.arealCells column r' o') =
      if (p.catalog.valueAt column r').key = (p.catalog.valueAt column r).key ∧ o' = o then 1 else 0)
    (hbinary : ∀ r' ∈ units, p.offsets.read x "b" (p.catalog.binaryCells column r') = 0) :
    p.areaForm column units a b x = a r o := by
  unfold Program.areaForm
  rw [sum_map_single h.keys hr, hbinary r hr, mul_zero, add_zero,
    sum_map_single (k := id) (by simpa using List.nodup_range) (List.mem_range.2 ho), hareal r hr o ho,
    if_pos ⟨rfl, rfl⟩, mul_one]
  · intro o' ho' hne
    rw [hareal r hr o' (List.mem_range.1 ho'), if_neg fun hand => hne hand.2, mul_zero]
  · intro r' hr' hne
    rw [hbinary r' hr', mul_zero, add_zero]
    refine List.sum_eq_zero fun y hy => ?_
    obtain ⟨o', ho', rfl⟩ := List.mem_map.1 hy
    rw [hareal r' hr' o' (List.mem_range.1 ho'), if_neg fun hand => hne hand.1, mul_zero]

lemma areaForm_binary
    (hareal : ∀ r' ∈ units, ∀ o' < p.catalog.options.length,
      p.offsets.read x "X" (p.catalog.arealCells column r' o') = 0)
    (hbinary : ∀ r' ∈ units, p.offsets.read x "b" (p.catalog.binaryCells column r') =
      if (p.catalog.valueAt column r').key = (p.catalog.valueAt column r).key then 1 else 0) :
    p.areaForm column units a b x = b r := by
  have hareas : ∀ r' ∈ units, ((List.range p.catalog.options.length).map fun o =>
      a r' o * p.offsets.read x "X" (p.catalog.arealCells column r' o)).sum = 0 := by
    intro r' hr'
    refine List.sum_eq_zero fun y hy => ?_
    obtain ⟨o', ho', rfl⟩ := List.mem_map.1 hy
    rw [hareal r' hr' o' (List.mem_range.1 ho'), mul_zero]
  unfold Program.areaForm
  rw [sum_map_single h.keys hr, hareas r hr, hbinary r hr, if_pos rfl, mul_one, zero_add]
  intro r' hr' hne
  rw [hareas r' hr', hbinary r' hr', if_neg hne, mul_zero, zero_add]

end Single

namespace Program.Laid

variable {p : Program} {dim column : String} {kind : VariableKind} {units : List (List Cell)}
  (h : p.Laid dim column kind units)

include h

lemma nodup : p.offsets.keys.Nodup := by
  rw [h.keys, h.entries]
  exact nodup_unitInstances h.catalog h.options (by decide) (by decide) (by decide)

lemma length_keys : p.offsets.keys.length = units.length * p.catalog.options.length + units.length := by
  rw [h.keys, h.entries, unitInstances, List.length_map, List.length_append, List.length_map,
    length_areas _ (fun r => (List.length_map _).trans List.length_range)]

lemma offset_areal {i o : Nat} {r : List Cell} (hi : units[i]? = some r) (ho : o < p.catalog.options.length) :
    p.offsets.offset "X" (p.catalog.arealCells column r o) = .ok (i * p.catalog.options.length + o) := by
  rw [offset_eq_ok h.nodup, h.keys, h.entries, List.getElem?_map, getElem?_areal rfl hi ho]
  rfl

lemma offset_binary {i : Nat} {r : List Cell} (hi : units[i]? = some r) :
    p.offsets.offset "b" (p.catalog.binaryCells column r) = .ok (units.length * p.catalog.options.length + i) := by
  rw [offset_eq_ok h.nodup, h.keys, h.entries, List.getElem?_map, getElem?_binary rfl hi]
  rfl

lemma read_at {name name' : String} {t u : List Cell} {j k : Nat} (ht : p.offsets.offset name t = .ok j)
    (hu : p.offsets.offset name' u = .ok k) :
    p.offsets.read ((List.replicate p.offsets.keys.length (0 : K)).set k 1) name t =
      if VariableInstance.keyOf name t = VariableInstance.keyOf name' u then 1 else 0 := by
  have hget := (offset_eq_ok h.nodup).1 ht
  have hget' := (offset_eq_ok h.nodup).1 hu
  have hiff : j = k ↔ VariableInstance.keyOf name t = VariableInstance.keyOf name' u := by
    constructor
    · rintro rfl
      exact Option.some.inj (hget.symm.trans hget')
    · intro hkey
      rw [← hkey] at hget'
      exact (List.getElem?_inj (List.getElem?_eq_some_iff.1 hget).1 h.nodup).1 (hget.trans hget'.symm)
  rw [read_unit ht (List.getElem?_eq_some_iff.1 hget').1]
  simp only [hiff]

lemma arealKey_eq_iff {r r' : List Cell} {o o' : Nat} (ho : o < p.catalog.options.length)
    (ho' : o' < p.catalog.options.length) :
    VariableInstance.keyOf "X" (p.catalog.arealCells column r o) =
    VariableInstance.keyOf "X" (p.catalog.arealCells column r' o') ↔
      (p.catalog.valueAt column r).key = (p.catalog.valueAt column r').key ∧ o = o' := by
  have hlt : ∀ {o}, o < p.catalog.options.length → o < 2 ^ 53 := fun ho => Nat.lt_of_lt_of_le ho h.options
  refine ⟨fun hkey => unit_of_arealKey (hlt ho) (hlt ho') hkey, ?_⟩
  rintro ⟨hkey, rfl⟩
  simp only [VariableInstance.keyOf, Cell.tupleKey, Catalog.arealCells, List.map_cons, Cell.key, hkey]

omit h in
lemma binaryKey_eq_iff {r r' : List Cell} :
    VariableInstance.keyOf "b" (p.catalog.binaryCells column r) =
    VariableInstance.keyOf "b" (p.catalog.binaryCells column r') ↔
      (p.catalog.valueAt column r).key = (p.catalog.valueAt column r').key := by
  refine ⟨fun hkey => unit_of_binaryKey hkey, fun hkey => ?_⟩
  simp only [VariableInstance.keyOf, Cell.tupleKey, Catalog.binaryCells, List.map_cons, Cell.key, hkey]

omit h in
lemma arealKey_ne (t u : List Cell) : VariableInstance.keyOf "X" t ≠ VariableInstance.keyOf "b" u := fun hkey =>
  absurd (name_of_key (by decide) (by decide) hkey) (by decide)

section Coefficients

variable [LinearOrder K] [Functions K] {columns : List String} {frame : Frame} {e : Expr} {cs : Coeffs K} {d : K}
  {a : List Cell → Nat → K} {b : List Cell → K}

theorem coefficients (hmean : cs.Mean p columns frame e d)
    (hyields : Yields p columns frame e.formula (p.areaForm column units a b)) :
    d = 0 ∧ cs.Weigh units p.catalog.options.length a b := by
  have hvalue : ∀ x : List K, x.length = p.offsets.keys.length → d + cs.value (coordinate x) =
    p.areaForm column units a b x :=
    fun x hx => hyields x _ (hmean.evaluates x hx)
  have hconstant : d = 0 := by
    have hzero := hvalue _ (List.length_replicate (n := p.offsets.keys.length) (a := 0))
    rw [Coeffs.value_zero, add_zero] at hzero
    rw [hzero]
    unfold areaForm
    simp [read_zero]
  have hunit : ∀ k < p.offsets.keys.length, (cs.get? (k : Int)).getD 0 =
      p.areaForm column units a b ((List.replicate p.offsets.keys.length 0).set k 1) := by
    intro k hk
    have hone := hvalue ((List.replicate p.offsets.keys.length 0).set k 1) (List.length_set.trans List.length_replicate)
    rw [Coeffs.value_unit hmean.proper hk, hconstant, zero_add] at hone
    exact hone
  have hlt : ∀ {name t k}, p.offsets.offset name t = .ok k → k < p.offsets.keys.length := fun ht =>
    (List.getElem?_eq_some_iff.1 ((offset_eq_ok h.nodup).1 ht)).1
  refine ⟨hconstant, ?_, fun i r o hi ho => ?_, fun i r hi => ?_⟩
  · rw [← h.length_keys]
    exact hmean.proper
  · have hoffset := h.offset_areal hi ho
    rw [hunit _ (hlt hoffset)]
    refine areaForm_areal h.catalog (List.mem_of_getElem? hi) a b ho (fun r' hr' o' ho' => ?_) fun r' hr' => ?_
    · obtain ⟨j, hj⟩ := List.getElem?_of_mem hr'
      rw [h.read_at (h.offset_areal hj ho') hoffset]
      simp only [h.arealKey_eq_iff ho' ho]
    · obtain ⟨j, hj⟩ := List.getElem?_of_mem hr'
      rw [h.read_at (h.offset_binary hj) hoffset, if_neg (arealKey_ne _ _).symm]
  · have hoffset := h.offset_binary hi
    rw [hunit _ (hlt hoffset)]
    refine areaForm_binary h.catalog (List.mem_of_getElem? hi) a b (fun r' hr' o' ho' => ?_) fun r' hr' => ?_
    · obtain ⟨j, hj⟩ := List.getElem?_of_mem hr'
      rw [h.read_at (h.offset_areal hj ho') hoffset, if_neg (arealKey_ne _ _)]
    · obtain ⟨j, hj⟩ := List.getElem?_of_mem hr'
      rw [h.read_at (h.offset_binary hj) hoffset]
      simp only [binaryKey_eq_iff]

end Coefficients

end Program.Laid

end LandUse
