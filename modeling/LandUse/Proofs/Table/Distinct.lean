import LandUse.Proofs.Table.Ranking

namespace LandUse

namespace Table

open Cell

lemma pairwise_sorted {β : Type} {f : β → List Cell} {l : List β} (h : ∀ b ∈ l, ProperRow (f b)) :
    (sorted (fun a b => orderRows (f a) (f b) != .gt) l).Pairwise fun a b => (f a).map rank ≤ (f b).map rank := by
  have hmap : (sorted (fun a b => orderRows (f a) (f b) != .gt) l).map (fun b => (f b).map rank) =
      (l.map fun b => (f b).map rank).insertionSort (· ≤ ·) :=
    map_sorted fun a ha b hb => orderRows_ne_gt_iff (h a ha) (h b hb)
  exact List.pairwise_map.1 (hmap ▸ List.pairwise_insertionSort (· ≤ ·) _)

section Repeats

variable {a x y : List Cell} {l : List (List Cell)}

lemma mem_of_mem_dropRepeatsOf (h : y ∈ dropRepeatsOf a l) : y ∈ l := by
  induction l generalizing a with
  | nil => exact h
  | cons b l ih =>
    rw [dropRepeatsOf] at h
    split_ifs at h
    · exact List.mem_cons_of_mem _ (ih h)
    · rcases List.mem_cons.1 h with rfl | h
      · exact List.mem_cons_self
      · exact List.mem_cons_of_mem _ (ih h)

lemma mem_of_mem_dropRepeats (h : y ∈ dropRepeats l) : y ∈ l := by
  cases l with
  | nil => exact h
  | cons a l => exact List.cons_subset_cons a (fun _ => mem_of_mem_dropRepeatsOf) h

lemma exists_mem_dropRepeatsOf (ha : ProperRow a) (hl : ∀ x ∈ l, ProperRow x) (hx : x ∈ l) :
    ∃ y ∈ a :: dropRepeatsOf a l, y.map rank = x.map rank := by
  induction l generalizing a with
  | nil => cases hx
  | cons b l ih =>
    obtain ⟨hb, hl⟩ := List.forall_mem_cons.1 hl
    rw [dropRepeatsOf]
    split_ifs with hab
    · rcases List.mem_cons.1 hx with rfl | hx
      · exact ⟨a, List.mem_cons_self, (orderRows_eq_iff ha hb).1 (beq_iff_eq.1 hab)⟩
      · exact ih ha hl hx
    · rcases List.mem_cons.1 hx with rfl | hx
      · exact ⟨x, List.mem_cons_of_mem _ List.mem_cons_self, rfl⟩
      · obtain ⟨y, hy, hyx⟩ := ih hb hl hx
        exact ⟨y, List.mem_cons_of_mem _ hy, hyx⟩

lemma exists_mem_dropRepeats (hl : ∀ x ∈ l, ProperRow x) (hx : x ∈ l) : ∃ y ∈ dropRepeats l,
    y.map rank = x.map rank := by
  cases l with
  | nil => cases hx
  | cons a l =>
    obtain ⟨ha, hl⟩ := List.forall_mem_cons.1 hl
    rcases List.mem_cons.1 hx with rfl | hx
    · exact ⟨x, List.mem_cons_self, rfl⟩
    · exact exists_mem_dropRepeatsOf ha hl hx

lemma pairwise_dropRepeatsOf (ha : ProperRow a) (hl : ∀ x ∈ l, ProperRow x)
    (h : (a :: l).Pairwise fun a b => a.map rank ≤ b.map rank) :
    (a :: dropRepeatsOf a l).Pairwise fun a b => a.map rank < b.map rank := by
  induction l generalizing a with
  | nil => exact List.pairwise_singleton _ a
  | cons b l ih =>
    obtain ⟨hb, hl⟩ := List.forall_mem_cons.1 hl
    rw [dropRepeatsOf]
    split_ifs with hab
    · exact ih ha hl (h.sublist ((List.sublist_cons_self b l).cons_cons a))
    · obtain ⟨hle, h⟩ := List.pairwise_cons.1 h
      -- Everything that stays is at least the second row, which differs from the first.
      have hlt : a.map rank < b.map rank :=
        lt_of_le_of_ne (hle b List.mem_cons_self) fun heq => hab (beq_iff_eq.2 ((orderRows_eq_iff ha hb).2 heq))
      have hrest := ih hb hl h
      refine List.pairwise_cons.2 ⟨List.forall_mem_cons.2 ⟨hlt, fun c hc => ?_⟩, hrest⟩
      exact hlt.trans ((List.pairwise_cons.1 hrest).1 c hc)

lemma pairwise_dropRepeats (hl : ∀ x ∈ l, ProperRow x) (h : l.Pairwise fun a b => a.map rank ≤ b.map rank) :
    (dropRepeats l).Pairwise fun a b => a.map rank < b.map rank := by
  cases l with
  | nil => exact .nil
  | cons a l =>
    obtain ⟨ha, hl⟩ := List.forall_mem_cons.1 hl
    exact pairwise_dropRepeatsOf ha hl h

lemma dropRepeats_of_pairwise (h : l.Pairwise fun a b => orderRows a b ≠ .eq) : dropRepeats l = l := by
  cases l with
  | nil => rfl
  | cons a l =>
    rw [dropRepeats]
    congr 1
    induction l generalizing a with
    | nil => rfl
    | cons b l ih =>
      have hab := List.rel_of_pairwise_cons h List.mem_cons_self
      rw [dropRepeatsOf, if_neg fun heq => hab (beq_iff_eq.1 heq), ih b h.of_cons]

end Repeats

variable {l : List (List Cell)}

lemma mem_of_mem_distinctTuples {y : List Cell} (h : y ∈ distinctTuples l) : y ∈ l :=
  mem_sorted.1 (mem_of_mem_dropRepeats h)

lemma exists_mem_distinctTuples (hl : ∀ x ∈ l, ProperRow x) {x : List Cell} (hx : x ∈ l) :
    ∃ y ∈ distinctTuples l, y.map rank = x.map rank :=
  exists_mem_dropRepeats (fun x hx => hl x (mem_sorted.1 hx)) (mem_sorted.2 hx)

lemma nodup_ranks_distinctTuples (hl : ∀ x ∈ l, ProperRow x) :
    ((distinctTuples l).map fun y => y.map rank).Nodup := by
  have h := pairwise_dropRepeats (fun x hx => hl x (mem_sorted.1 hx)) (pairwise_sorted (f := id) hl)
  exact List.pairwise_map.2 (h.imp fun h => h.ne)

lemma length_distinctTuples {ranks : List (List Rank)} (hl : ∀ x ∈ l, ProperRow x) (hnodup : ranks.Nodup)
    (hmem : ∀ r, r ∈ ranks ↔ ∃ x ∈ l, x.map rank = r) : (distinctTuples l).length = ranks.length := by
  have hperm : ((distinctTuples l).map fun y => y.map rank).Perm ranks := by
    refine (List.perm_ext_iff_of_nodup (nodup_ranks_distinctTuples hl) hnodup).2 fun r => ?_
    rw [hmem, List.mem_map]
    constructor
    · rintro ⟨y, hy, rfl⟩
      exact ⟨y, mem_of_mem_distinctTuples hy, rfl⟩
    · rintro ⟨x, hx, rfl⟩
      exact exists_mem_distinctTuples hl hx
  rw [← hperm.length_eq, List.length_map]

end Table

end LandUse
