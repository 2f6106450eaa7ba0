import LandUse.Expansion.Make
import Mathlib.Data.List.Induction
import Mathlib.Data.List.Nodup
import Mathlib.Tactic.Common

namespace LandUse

namespace Iteration

def key (it : Iteration) : String := it.value.key

def take (it : Iteration) (key : String) (row : Row) : Iteration :=
  if it.key = key then { it with rows := it.rows ++ [row] } else it

lemma key_take (it : Iteration) (key : String) (row : Row) : (it.take key row).key = it.key := by
  unfold take
  split <;> rfl

end Iteration

namespace Program

lemma addRow_eq (v : Value) (row : Row) {its : List Iteration} (h : (its.map Iteration.key).Nodup) :
    addRow v row its = if v.key ∈ its.map Iteration.key then its.map (Iteration.take · v.key row)
      else its ++ [⟨v, [row]⟩] := by
  induction its with
  | nil => rfl
  | cons it its ih =>
    rw [List.map_cons, List.nodup_cons] at h
    by_cases hkey : it.key = v.key
    · have hrest : its.map (Iteration.take · v.key row) = its := by
        refine (List.map_congr_left fun it' hit' => ?_).trans (List.map_id its)
        have : it'.key ≠ v.key := fun hne => h.1 (hkey.trans hne.symm ▸ List.mem_map_of_mem hit')
        exact if_neg this
      have hbeq : (it.value.key == v.key) = true := beq_iff_eq.2 hkey
      rw [addRow, if_pos hbeq, if_pos (by simp [hkey]), List.map_cons, hrest, Iteration.take, if_pos hkey]
    · have hbeq : ¬ (it.value.key == v.key) = true := fun h => hkey (beq_iff_eq.1 h)
      rw [addRow, if_neg hbeq, ih h.2, List.map_cons, List.map_cons, Iteration.take, if_neg hkey]
      by_cases hmem : v.key ∈ its.map Iteration.key
      · rw [if_pos hmem, if_pos (List.mem_cons_of_mem _ hmem)]
      · have hmem' : v.key ∉ it.key :: its.map Iteration.key :=
          fun h => (List.mem_cons.1 h).elim (fun h => hkey h.symm) hmem
        rw [if_neg hmem, if_neg hmem', List.cons_append]

def hasKey (column : Nat) (key : String) (row : Row) : Bool := (row[column]?).any (·.key == key)

structure Groups (column : Nat) (rows : List Row) (its : List Iteration) : Prop where
  nodup : (its.map Iteration.key).Nodup
  filtered : ∀ it ∈ its, it.rows = rows.filter (hasKey column it.key)
  value : ∀ it ∈ its, ∃ row ∈ rows, row[column]? = some it.value
  all : ∀ row ∈ rows, ∀ v, row[column]? = some v → v.key ∈ its.map Iteration.key

lemma Groups.skip {column : Nat} {rows : List Row} {its : List Iteration} (h : Groups column rows its) {row : Row}
    (hrow : row[column]? = none) : Groups column (rows ++ [row]) its where
  nodup := h.nodup
  filtered it hit := by
    have : hasKey column it.key row = false := by simp [hasKey, hrow]
    rw [h.filtered it hit, List.filter_append, List.filter_cons_of_neg (by simp [this]),
      List.filter_nil, List.append_nil]
  value it hit := by
    obtain ⟨row', hrow', hv⟩ := h.value it hit
    exact ⟨row', List.mem_append_left _ hrow', hv⟩
  all row' hrow' v hv := by
    rcases List.mem_append.1 hrow' with hrow' | hrow'
    · exact h.all row' hrow' v hv
    · rw [List.mem_singleton.1 hrow', hrow] at hv
      cases hv

section Adding

variable {column : Nat} {rows : List Row} {its : List Iteration} (h : Groups column rows its) {row : Row} {v : Value}
  (hrow : row[column]? = some v)
include h hrow

omit h in
lemma hasKey_eq (key : String) : hasKey column key row = (v.key == key) := by simp [hasKey, hrow]

omit hrow in
lemma Groups.value_append {it : Iteration} (hit : it ∈ its) : ∃ r ∈ rows ++ [row], r[column]? = some it.value := by
  obtain ⟨r, hr, hv⟩ := h.value it hit
  exact ⟨r, List.mem_append_left _ hr, hv⟩

lemma Groups.join (hmem : v.key ∈ its.map Iteration.key) :
    Groups column (rows ++ [row]) (its.map (Iteration.take · v.key row)) := by
  have hkeys : (its.map (Iteration.take · v.key row)).map Iteration.key = its.map Iteration.key := by
    rw [List.map_map]
    exact List.map_congr_left fun it _ => it.key_take v.key row
  refine ⟨hkeys ▸ h.nodup, ?_, ?_, ?_⟩
  · intro it' hit'
    obtain ⟨it, hit, rfl⟩ := List.mem_map.1 hit'
    rw [Iteration.key_take, List.filter_append, ← h.filtered it hit]
    unfold Iteration.take
    split_ifs with heq
    · rw [List.filter_cons_of_pos (by simp [hasKey_eq hrow, heq]), List.filter_nil]
    · rw [List.filter_cons_of_neg (by simp [hasKey_eq hrow]; exact fun h => heq h.symm),
        List.filter_nil, List.append_nil]
  · intro it' hit'
    obtain ⟨it, hit, rfl⟩ := List.mem_map.1 hit'
    have hvalue : (it.take v.key row).value = it.value := by
      unfold Iteration.take
      split <;> rfl
    rw [hvalue]
    exact h.value_append hit
  · intro r hr w hw
    rw [hkeys]
    rcases List.mem_append.1 hr with hr | hr
    · exact h.all r hr w hw
    · rw [List.mem_singleton.1 hr, hrow] at hw
      cases hw
      exact hmem

lemma Groups.push (hmem : v.key ∉ its.map Iteration.key) : Groups column (rows ++ [row]) (its ++ [⟨v, [row]⟩]) := by
  have hnone : rows.filter (hasKey column v.key) = [] := by
    refine List.filter_eq_nil_iff.2 fun r hr hhas => hmem ?_
    obtain ⟨w, hw, hwv⟩ := (Option.any_eq_true _ _).1 hhas
    exact beq_iff_eq.1 hwv ▸ h.all r hr w hw
  refine ⟨?_, ?_, ?_, ?_⟩
  · rw [List.map_append]
    refine List.nodup_append.2 ⟨h.nodup, List.nodup_singleton _, fun k hk k' hk' heq => hmem ?_⟩
    have hk' : k' = v.key := List.mem_singleton.1 hk'
    exact hk' ▸ heq ▸ hk
  · intro it hit
    rcases List.mem_append.1 hit with hit | hit
    · have hne : ¬ (v.key == it.key) = true := fun heq => hmem (beq_iff_eq.1 heq ▸ List.mem_map_of_mem hit)
      rw [List.filter_append, ← h.filtered it hit, List.filter_cons_of_neg (by rwa [hasKey_eq hrow]), List.filter_nil,
        List.append_nil]
    · rw [List.mem_singleton.1 hit, List.filter_append]
      show [row] = rows.filter (hasKey column v.key) ++ _
      rw [hnone, List.filter_cons_of_pos (by rw [hasKey_eq hrow]; exact beq_self_eq_true v.key), List.filter_nil,
        List.nil_append]
  · intro it hit
    rcases List.mem_append.1 hit with hit | hit
    · exact h.value_append hit
    · rw [List.mem_singleton.1 hit]
      exact ⟨row, List.mem_append_right _ (List.mem_singleton_self row), hrow⟩
  · intro r hr w hw
    rw [List.map_append, List.mem_append]
    rcases List.mem_append.1 hr with hr | hr
    · exact .inl (h.all r hr w hw)
    · rw [List.mem_singleton.1 hr, hrow] at hw
      cases hw
      exact .inr (List.mem_singleton_self _)

lemma Groups.add : Groups column (rows ++ [row]) (addRow v row its) := by
  rw [addRow_eq v row h.nodup]
  split_ifs with hmem
  · exact h.join hrow hmem
  · exact h.push hrow hmem

end Adding

lemma groupBy_induction {column : Nat} {motive : List Row → List Iteration → Prop} (nil : motive [] [])
    (skip : ∀ rows its row, row[column]? = none → motive rows its → motive (rows ++ [row]) its)
    (add : ∀ rows its row v, row[column]? = some v → motive rows its → motive (rows ++ [row]) (addRow v row its))
    (rows : List Row) : motive rows (groupBy column rows) := by
  induction rows using List.reverseRecOn with
  | nil => exact nil
  | append_singleton rows row ih =>
    unfold groupBy
    rw [List.foldl_concat]
    split
    next v hrow => exact add rows _ row v hrow ih
    next hrow => exact skip rows _ row hrow ih

theorem groups_groupBy (column : Nat) (rows : List Row) : Groups column rows (groupBy column rows) := by
  refine groupBy_induction ?_ (fun _ _ _ hrow h => h.skip hrow) (fun _ _ _ _ hrow h => h.add hrow) rows
  exact ⟨List.nodup_nil, List.forall_mem_nil _, List.forall_mem_nil _, List.forall_mem_nil _⟩

end Program

end LandUse
