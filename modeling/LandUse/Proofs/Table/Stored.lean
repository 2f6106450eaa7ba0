import LandUse.Proofs.Outcome
import LandUse.Proofs.Table.Ranking

namespace LandUse

namespace Affinity

open Number

variable {x : Float}

lemma not_nan_of_isNaN (h : x.isNaN = false) : parts x ≠ .nan := by
  intro hx
  have hnan : parts Float.nan = .nan := by decide
  rw [eq_of_parts (hx.trans hnan.symm)] at h
  revert h
  decide

lemma not_nan_neg (h : parts x ≠ .nan) : parts (-x) ≠ .nan := by
  cases hx : parts x with
  | nan => exact absurd hx h
  | finite negative m q =>
    rw [parts_neg hx]
    exact Parts.noConfusion
  | infinite negative =>
    have hinf : ∀ negative, parts (if negative then -infinity else infinity) = .infinite negative := by decide
    rw [eq_of_parts (hx.trans (hinf negative).symm)]
    clear hx
    revert negative
    decide

lemma not_nan_value (n : Numeral) : parts n.value ≠ .nan := by
  have hinf : parts infinity ≠ .nan := by decide
  have hzero : parts 0 ≠ .nan := by decide
  have hsize : ∀ (m : Nat) (x : Float), parts (if m == 0 then 0 else if x.isNaN then infinity else x) ≠ .nan := by
    intro m x
    split_ifs with hm hx
    · exact hzero
    · exact hinf
    · exact not_nan_of_isNaN (Bool.eq_false_iff.2 hx)
  unfold Numeral.value
  dsimp only
  by_cases hn : n.negative = true
  · rw [if_pos hn]
    exact not_nan_neg (hsize _ _)
  · rw [if_neg hn]
    exact hsize _ _

lemma proper_wholeOrReal (hx : parts x ≠ .nan) : (wholeOrReal x).Proper := by
  unfold wholeOrReal
  dsimp only
  split_ifs with h
  · trivial
  · refine ⟨hx, ?_⟩
    rintro rfl
    exact h (by decide +kernel)

lemma proper_ofNumeral (n : Numeral) : (toWhole (ofNumeral n)).Proper := by
  have hreal : (toWhole (.double n.value)).Proper := proper_wholeOrReal (not_nan_value n)
  unfold ofNumeral
  split
  · rename_i i _
    unfold ofInt?
    split_ifs
    · trivial
    · exact hreal
  · exact hreal

lemma proper_toNumeric {v : Value} (hv : ∀ x, v = .double x → parts x ≠ .nan) : (toNumeric v).Proper := by
  cases v with
  | int i => trivial
  | double x => exact proper_wholeOrReal (hv x rfl)
  | text s =>
    show ((numeral? s).map toWhole |>.getD (.text s)).Proper
    unfold numeral?
    dsimp only
    split_ifs
    · trivial
    · exact proper_ofNumeral _

end Affinity

namespace ValueType

open Number Affinity

lemma proper_convert (t : ValueType) {v : Value} (hv : ∀ x, v = .double x → parts x ≠ .nan) : (t.convert v).Proper := by
  have htext : (Affinity.toText v).Proper := by cases v <;> trivial
  cases t with
  | undefined => exact htext
  | text => exact htext
  | int => exact proper_toNumeric hv
  | double =>
    have hn := proper_toNumeric hv
    have hreal : ∀ x, parts x ≠ .nan → (Value.double (if x == 0 then 0 else x)).Proper := by
      intro x hx
      split_ifs with h
      · exact Value.zero_proper
      · refine ⟨hx, ?_⟩
        rintro rfl
        exact h (by decide)
    rw [ValueType.convert]
    cases hw : toNumeric v with
    | text s => exact True.intro
    | int i => exact hreal _ (Value.number_proper (v := .int i) trivial).1
    | double x =>
      rw [hw] at hn
      exact hreal x hn.1

lemma proper_store (t : ValueType) (c : Cell) : (t.store c).Proper := by
  cases c with
  | none => exact fun _ h => nomatch h
  | some v =>
    cases v with
    | int i =>
      rintro _ ⟨⟩
      exact proper_convert t fun _ h => nomatch h
    | text s =>
      rintro _ ⟨⟩
      exact proper_convert t fun _ h => nomatch h
    | double x =>
      show Cell.Proper (if x.isNaN then none else some (t.convert (.double x)))
      split_ifs with hx
      · rintro _ ⟨⟩
      · rintro _ ⟨⟩
        refine proper_convert t ?_
        rintro _ ⟨⟩
        exact not_nan_of_isNaN (Bool.eq_false_iff.2 hx)

end ValueType

namespace Table

open Outcome

def Proper (t : Table) : Prop := ∀ row ∈ t.rows, Cell.ProperRow row

variable {t : Table} {rows : List (List Cell)} {row : List Cell}

lemma proper_create {name : String} {columns : List Column} (h : create name columns rows = .ok t) : t.Proper := by
  unfold create at h
  split at h
  case isTrue => cases h
  simp only [pure_eq_ok, bind_eq_ok, Except.ok.injEq] at h
  obtain ⟨stored, hstored, rfl⟩ := h
  intro row hrow
  obtain ⟨⟨cells, i⟩, -, hcells⟩ := exists_of_mem_mapM hstored hrow
  split_ifs at hcells
  cases hcells
  intro c hc
  obtain ⟨⟨column, cell⟩, -, rfl⟩ := List.mem_map.1 hc
  exact column.type.proper_store cell

lemma mem_numberedRows (h : row ∈ t.numberedRows) : ∃ cells ∈ t.rows, ∃ n, row = cells ++ [some (.int n)] := by
  obtain ⟨⟨cells, i⟩, hcells, rfl⟩ := List.mem_map.1 h
  exact ⟨cells, (List.mem_zipIdx hcells).2.2 ▸ List.getElem_mem _, _, rfl⟩

lemma mem_numberedRows_of_selected {condition : String} (h : t.selected? condition = some rows) (hrow : row ∈ rows) :
    row ∈ t.numberedRows := by
  unfold selected? at h
  split at h
  · cases h
    exact hrow
  · split at h
    · cases h
    · split at h <;> cases h
      exact List.mem_of_mem_filter hrow

lemma proper_cellOf (ht : t.Proper) {condition : String} (h : t.selected? condition = some rows) (hrow : row ∈ rows)
    (column : String) : (t.cellOf column row).Proper := by
  obtain ⟨cells, hcells, n, rfl⟩ := mem_numberedRows (mem_numberedRows_of_selected h hrow)
  have hproper : Cell.ProperRow (cells ++ [some (.int n)]) := by
    intro c hc
    rcases List.mem_append.1 hc with hc | hc
    · exact ht cells hcells c hc
    · rw [List.mem_singleton.1 hc]
      rintro _ ⟨⟩
      exact True.intro
  unfold cellOf
  split
  · rename_i i _
    cases hc : (cells ++ [some (Value.int n)])[i]? with
    | none => rintro _ ⟨⟩
    | some c => exact hproper c (List.mem_of_getElem? hc)
  · rintro _ ⟨⟩

end Table

end LandUse
