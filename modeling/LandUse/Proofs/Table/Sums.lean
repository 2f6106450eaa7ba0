import LandUse.Table.Sum
import LandUse.Proofs.Exact
import LandUse.Proofs.Table.Stored
import Mathlib.Tactic.Ring
import Mathlib.Tactic.Linarith
import Mathlib.Algebra.BigOperators.Group.List.Lemmas

namespace LandUse

open Exact Outcome

variable {K : Type} [Field K] [LinearOrder K] [Functions K]

def Value.amount (K : Type) [Field K] : Value → K
  | int i => (i.toInt : K)
  | double x => (rational x : K)
  | text _ => 0

def Cell.amount (K : Type) [Field K] : Cell → K
  | none => 0
  | some v => v.summand.amount K

namespace CarriedSum

def total (s : CarriedSum K) : K := s.sum + s.carry

lemma total_add (s : CarriedSum K) (x : K) : (s.add x).total = s.total + x := by
  unfold add total
  dsimp only
  split <;> ring

lemma splitInt_sum (n : Int) : (splitInt n).1 + (splitInt n).2 = n := by
  unfold splitInt
  split
  · exact Int.add_zero n
  · exact Int.sub_add_cancel n _

lemma total_ofInt (n : Int) : (ofInt n : CarriedSum K).total = n := by
  have hsplit : ((splitInt n).1 : K) + ((splitInt n).2 : K) = n := by
    rw [← Int.cast_add, splitInt_sum]
  exact hsplit

lemma total_addInt (s : CarriedSum K) (n : Int) : (s.addInt n).total = s.total + n := by
  unfold addInt
  split
  · exact total_add s _
  · rw [total_add, total_add, add_assoc]
    exact congrArg (s.total + ·) (total_ofInt n)

end CarriedSum

namespace RunningSum

def total : RunningSum K → K
  | whole sum => (sum : K)
  | overflowed s | mixed s => s.total

lemma ofFloat_number {v : Value} (hv : ∀ i, v ≠ .int i) : (Scalar.ofFloat v.number : K) = v.amount K := by
  cases v with
  | int i => exact absurd rfl (hv i)
  | double => rfl
  | text => exact zero_eq

lemma total_add (s : RunningSum K) (v : Value) : (s.add v).total = s.total + v.amount K := by
  by_cases hv : ∃ i, v = .int i
  · obtain ⟨i, rfl⟩ := hv
    cases s with
    | whole sum =>
      unfold add
      dsimp only
      split
      · exact Int.cast_add sum i.toInt
      · change ((CarriedSum.ofInt sum).addInt i.toInt).total = _
        rw [CarriedSum.total_addInt, CarriedSum.total_ofInt]
        rfl
    | overflowed s => exact CarriedSum.total_addInt s _
    | mixed s => exact CarriedSum.total_addInt s _
  · have hamount : (Scalar.ofFloat v.number : K) = v.amount K := ofFloat_number fun i hi => hv ⟨i, hi⟩
    cases v with
    | int i => exact absurd ⟨i, rfl⟩ hv
    | double | text =>
      cases s with
      | whole sum =>
        change ((CarriedSum.ofInt sum).add (Scalar.ofFloat _)).total = _
        rw [CarriedSum.total_add, CarriedSum.total_ofInt, hamount]
        rfl
      | overflowed s | mixed s =>
        change (s.add (Scalar.ofFloat _)).total = _
        rw [CarriedSum.total_add, hamount]
        rfl

lemma total_foldl (vs : List Value) (s : RunningSum K) :
    (vs.foldl add s).total = s.total + (vs.map (Value.amount K)).sum := by
  induction vs generalizing s with
  | nil => exact (add_zero _).symm
  | cons v vs ih => rw [List.foldl_cons, ih, total_add, List.map_cons, List.sum_cons, add_assoc]

lemma eq_total_of_value? {s : RunningSum K} {a : K} (h : s.value? = some a) : a = s.total := by
  cases s with
  | whole => exact (Option.some.inj h).symm
  | overflowed => cases h
  | mixed => exact (Option.some.inj h).symm

def size : Value → Nat
  | .int i => i.toInt.natAbs
  | _ => 0

def Bounded (n : Nat) : RunningSum K → Prop
  | whole sum => sum.natAbs ≤ n
  | overflowed _ => False
  | mixed _ => True

lemma Bounded.add {n : Nat} {s : RunningSum K} (h : s.Bounded n) (v : Value) (hn : n + size v < 2 ^ 63) :
    (s.add v).Bounded (n + size v) := by
  cases s with
  | overflowed => exact h.elim
  | mixed => cases v <;> trivial
  | whole sum =>
    cases v with
    | double | text => trivial
    | int i =>
      have hsum : (sum + i.toInt).natAbs ≤ n + i.toInt.natAbs :=
        Nat.le_trans (Int.natAbs_add_le _ _) (Nat.add_le_add_right h _)
      have hlt : (sum + i.toInt).natAbs < 2 ^ 63 := Nat.lt_of_le_of_lt hsum hn
      have hmin : Int64.minValue.toInt = -2 ^ 63 := by decide
      have hmax : Int64.maxValue.toInt = 2 ^ 63 - 1 := by decide
      have hfits : (Int64.minValue.toInt ≤ sum + i.toInt && sum + i.toInt ≤ Int64.maxValue.toInt) = true := by
        rw [hmin, hmax, Bool.and_eq_true, decide_eq_true_iff, decide_eq_true_iff]
        omega
      unfold RunningSum.add
      dsimp only
      rw [if_pos hfits]
      exact hsum

lemma Bounded.foldl {vs : List Value} {n : Nat} {s : RunningSum K} (h : s.Bounded n)
    (hn : n + (vs.map size).sum < 2 ^ 63) :
    (vs.foldl RunningSum.add s).Bounded (n + (vs.map size).sum) := by
  induction vs generalizing n s with
  | nil => exact h
  | cons v vs ih =>
    rw [List.map_cons, List.sum_cons, ← Nat.add_assoc] at hn ⊢
    exact ih (h.add v (by omega)) hn

lemma Bounded.value? {n : Nat} {s : RunningSum K} (h : s.Bounded n) : s.value? = some s.total := by
  cases s with
  | whole => rfl
  | overflowed => exact h.elim
  | mixed => rfl

end RunningSum

lemma length_eraseDups_le (l : List String) : l.eraseDups.length ≤ l.length := by
  induction hn : l.length using Nat.strong_induction_on generalizing l with
  | _ n ih =>
    cases l with
    | nil => simp
    | cons a l =>
      subst hn
      have hfilter : (l.filter fun b => !b == a).length ≤ l.length := List.length_filter_le _ _
      have hrest := ih _ (Nat.lt_of_le_of_lt hfilter (Nat.lt_succ_self _)) (l.filter fun b => !b == a) rfl
      rw [List.eraseDups_cons, List.length_cons, List.length_cons]
      omega

lemma nodup_of_length_eraseDups {l : List String} (h : l.eraseDups.length = l.length) : l.Nodup := by
  induction l with
  | nil => exact List.nodup_nil
  | cons a l ih =>
    rw [List.eraseDups_cons, List.length_cons, List.length_cons, Nat.add_right_cancel_iff] at h
    -- Whatever is filtered out is missing from the length for good.
    have hlength : (l.filter fun b => !b == a).length = l.length :=
      Nat.le_antisymm (List.length_filter_le _ _) (h ▸ length_eraseDups_le _)
    have hfilter : (l.filter fun b => !b == a) = l := List.filter_sublist.eq_of_length hlength
    rw [hfilter] at h
    refine List.nodup_cons.mpr ⟨fun ha => ?_, ih h⟩
    have hne := List.filter_eq_self.mp hfilter a ha
    simp at hne

namespace Table

variable {t : Table}

structure Stored (t : Table) : Prop where
  names : (t.columns.map fun c => asciiLower c.name).Nodup
  rows : ∀ row ∈ t.rows, List.Forall₂ (fun c cell => ∃ given, c.type.store given = cell) t.columns row

lemma forall₂_store {columns : List Column} {cells : List Cell} (h : cells.length = columns.length) :
    List.Forall₂ (fun c cell => ∃ given, c.type.store given = cell) columns ((columns.zip cells).map fun x =>
      x.1.type.store x.2) := by
  induction columns generalizing cells with
  | nil => exact .nil
  | cons c columns ih =>
    cases cells with
    | nil => cases h
    | cons cell cells => exact .cons ⟨cell, rfl⟩ (ih (Nat.succ.inj h))

lemma stored_create {name : String} {columns : List Column} {rows : List (List Cell)}
    (h : create name columns rows = .ok t) :
    t.Stored := by
  unfold create at h
  split at h
  case isTrue => cases h
  case isFalse hcreatable =>
    simp only [pure_eq_ok, bind_eq_ok, Except.ok.injEq] at h
    obtain ⟨stored, hstored, rfl⟩ := h
    constructor
    · simp only [isCreatable, Bool.not_eq_true', Bool.not_eq_false, Bool.and_eq_true, beq_iff_eq] at hcreatable
      exact nodup_of_length_eraseDups hcreatable.1.1.2
    · intro row hrow
      obtain ⟨⟨cells, i⟩, -, hcells⟩ := exists_of_mem_mapM hstored hrow
      split_ifs at hcells with hlength
      cases hcells
      exact forall₂_store (beq_iff_eq.mp hlength)

namespace Stored

variable {name : String} {i : Nat}

lemma filterColumns_eq (h : t.Stored) (hi : t.columnIndex? name = some i) :
    ∃ c, t.columns[i]? = some c ∧ t.filterColumns name = some (i, c.type) := by
  have hcolumns : t.columns.findIdx? (fun c => c.name == name) = some i := by
    rw [← hi, columnIndex?, columnNames, List.findIdx?_map]
    rfl
  obtain ⟨hlt, hname, -⟩ := List.findIdx?_eq_some_iff_getElem.mp hcolumns
  have hlower : t.columns.findIdx? (fun c => asciiLower c.name == asciiLower name) = some i := by
    refine List.findIdx?_eq_some_iff_getElem.mpr
      ⟨hlt, by rw [beq_iff_eq.mp hname, beq_self_eq_true], fun j hj hsame => ?_⟩
    have hne := List.pairwise_iff_getElem.mp (List.pairwise_map.mp h.names) j i (Nat.lt_trans hj hlt) hlt hj
    exact hne (beq_iff_eq.mp hname ▸ beq_iff_eq.mp hsame)
  have hget : t.columns[i]? = some t.columns[i] := List.getElem?_eq_getElem hlt
  refine ⟨_, hget, ?_⟩
  simp only [filterColumns, hlower, hget, Option.map_some]

lemma cellOf_eq (hi : t.columnIndex? name = some i) (row : List Cell) : t.cellOf name row = (row[i]?).join := by
  simp only [cellOf, hi]
  cases row[i]? <;> rfl

lemma text_or_empty (h : t.Stored) (hi : t.columnIndex? name = some i) {c : Column} (hc : t.columns[i]? = some c)
    (htext : c.type = .text) {condition : String} {rows : List (List Cell)} (hrows : t.selected? condition = some rows)
    {row : List Cell} (hrow : row ∈ rows) : t.cellOf name row = none ∨ ∃ s, t.cellOf name row = some (.text s) := by
  obtain ⟨cells, hcells, n, rfl⟩ := mem_numberedRows (mem_numberedRows_of_selected hrows hrow)
  have hall := h.rows cells hcells
  obtain ⟨hlt, hget⟩ := List.getElem?_eq_some_iff.mp hc
  have hlength : i < cells.length := hall.length_eq ▸ hlt
  obtain ⟨given, hgiven⟩ := (List.forall₂_iff_get.mp hall).2 i hlt hlength
  rw [cellOf_eq hi, List.getElem?_append_left hlength, List.getElem?_eq_getElem hlength, Option.join_some]
  rw [List.get_eq_getElem, List.get_eq_getElem, hget, htext] at hgiven
  rw [← hgiven]
  have hconvert : ∀ v : Value, ∃ s, ValueType.text.convert v = .text s := by
    rintro (i | x | s) <;> exact ⟨_, rfl⟩
  cases given with
  | none => exact .inl rfl
  | some v =>
    obtain ⟨s, hs⟩ := hconvert v
    cases v with
    | double x =>
      rw [ValueType.store]
      split
      · exact .inl rfl
      · exact .inr ⟨s, congrArg some hs⟩
    | int => exact .inr ⟨s, congrArg some hs⟩
    | text => exact .inr ⟨s, congrArg some hs⟩

end Stored

def cellSize : Cell → Nat
  | none => 0
  | some v => RunningSum.size v.summand

section Sum

variable {column condition : String} {i : Nat} {rows : List (List Cell)} {keep : List Cell → Bool}

omit [LinearOrder K] [Functions K] in
lemma sum_cells (f : List Cell → Cell) (rows : List (List Cell)) :
    (((rows.filterMap f).map Value.summand).map (Value.amount K)).sum = (rows.map fun r => (f r).amount K).sum := by
  induction rows with
  | nil => rfl
  | cons r rows ih =>
    rw [List.map_cons, List.sum_cons, ← ih]
    cases hf : f r with
    | none => rw [List.filterMap_cons_none hf, Cell.amount, zero_add]
    | some v => rw [List.filterMap_cons_some hf, List.map_cons, List.map_cons, List.sum_cons, Cell.amount]

lemma size_kept (f : List Cell → Cell) (rows : List (List Cell)) :
    ((((rows.filter keep).filterMap f).map Value.summand).map RunningSum.size).sum ≤ (rows.map fun r =>
      cellSize (f r)).sum := by
  induction rows with
  | nil => exact Nat.le_refl _
  | cons r rows ih =>
    rw [List.map_cons, List.sum_cons, List.filter_cons]
    split
    · cases hf : f r with
      | none =>
        rw [List.filterMap_cons_none hf]
        omega
      | some v =>
        rw [List.filterMap_cons_some hf, List.map_cons, List.map_cons, List.sum_cons, cellSize]
        omega
    · omega

variable (hrows : t.selected? condition = some rows)
include hrows

lemma sum?_eq (h : t.Stored) (hi : t.columnIndex? column = some i) : (t.sum? column condition keep : Option K) =
    ((((rows.filter keep).filterMap (t.cellOf column)).map Value.summand).foldl RunningSum.add (.whole 0)).value? := by
  obtain ⟨c, -, hcolumn⟩ := h.filterColumns_eq hi
  have hcells : (fun r : List Cell => (r[i]?).join) = t.cellOf column := funext fun r => (Stored.cellOf_eq hi r).symm
  simp only [sum?, hcolumn, hrows, Option.bind_eq_bind, Option.bind_some, hcells]

lemma eq_sum_of_sum? (h : t.Stored) (hi : t.columnIndex? column = some i) {a : K}
    (ha : t.sum? column condition keep = some a) :
    a = ((rows.filter keep).map fun r => (t.cellOf column r).amount K).sum := by
  rw [sum?_eq hrows h hi] at ha
  rw [RunningSum.eq_total_of_value? ha, RunningSum.total_foldl, sum_cells, RunningSum.total, Int.cast_zero, zero_add]

lemma sum?_eq_some (h : t.Stored) (hi : t.columnIndex? column = some i)
    (hsize : (rows.map fun r => cellSize (t.cellOf column r)).sum < 2 ^ 63) : t.sum? column condition keep =
      some ((rows.filter keep).map fun r => (t.cellOf column r).amount K).sum := by
  have hstart : (RunningSum.whole 0 : RunningSum K).Bounded 0 := Nat.le_refl 0
  have hkept : 0 + ((((rows.filter keep).filterMap
    (t.cellOf column)).map Value.summand).map RunningSum.size).sum < 2 ^ 63 := by
    rw [Nat.zero_add]
    exact Nat.lt_of_le_of_lt (size_kept _ rows) hsize
  have hvalue := (hstart.foldl hkept).value?
  rw [← sum?_eq hrows h hi] at hvalue
  rw [hvalue, ← eq_sum_of_sum? hrows h hi hvalue]

end Sum

end Table

end LandUse
