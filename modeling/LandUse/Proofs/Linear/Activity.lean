import LandUse.Linear.Matrix
import LandUse.Proofs.Linear.Value

namespace LandUse

open Exact

variable {K : Type}

namespace Coeffs

structure Proper (n : Nat) (cs : Coeffs K) : Prop where
  ordered : cs.Pairwise fun a b => a.1 < b.1
  range : ∀ a ∈ cs, 0 ≤ a.1 ∧ a.1 < n

variable {n : Nat} {cs : Coeffs K}

lemma proper_nil : Proper n ([] : Coeffs K) := ⟨.nil, fun _ h => nomatch h⟩

lemma proper_cons {a : Int × K} : Proper n (a :: cs) ↔ (0 ≤ a.1 ∧ a.1 < n) ∧ (∀ b ∈ cs, a.1 < b.1) ∧ Proper n cs := by
  constructor
  · rintro ⟨ho, hr⟩
    rw [List.pairwise_cons] at ho
    rw [List.forall_mem_cons] at hr
    exact ⟨hr.1, ho.1, ho.2, hr.2⟩
  · rintro ⟨ha, hb, ho, hr⟩
    exact ⟨List.pairwise_cons.mpr ⟨hb, ho⟩, List.forall_mem_cons.mpr ⟨ha, hr⟩⟩

lemma Proper.filter (h : Proper n cs) (keep : Int × K → Bool) : Proper n (cs.filter keep) :=
  ⟨h.ordered.filter keep, fun a ha => h.range a (List.mem_of_mem_filter ha)⟩

lemma Proper.map (h : Proper n cs) (f : K → K) : Proper n (cs.map fun (k, c) => (k, f c)) := by
  refine ⟨List.pairwise_map.mpr h.ordered, fun a ha => ?_⟩
  obtain ⟨b, hb, rfl⟩ := List.mem_map.mp ha
  exact h.range b hb

variable {k : Int}

lemma mem_modify {f : Option K → K} {a : Int × K} (h : a ∈ cs.modify k f) : a.1 = k ∨ a ∈ cs := by
  induction cs with
  | nil =>
    rw [Coeffs.modify, List.mem_singleton] at h
    exact .inl (by rw [h])
  | cons b cs ih =>
    obtain ⟨i, c⟩ := b
    unfold Coeffs.modify at h
    split at h
    · rename_i hk
      rcases List.mem_cons.mp h with rfl | h
      · exact .inl (beq_iff_eq.mp hk).symm
      · exact .inr (List.mem_cons_of_mem _ h)
    · split at h
      · rcases List.mem_cons.mp h with rfl | h
        · exact .inl rfl
        · exact .inr h
      · rcases List.mem_cons.mp h with rfl | h
        · exact .inr List.mem_cons_self
        · exact (ih h).imp_right (List.mem_cons_of_mem _)

lemma Proper.modify (h : Proper n cs) (hk : 0 ≤ k ∧ k < n) (f : Option K → K) : Proper n (cs.modify k f) := by
  induction cs with
  | nil => exact proper_cons.mpr ⟨hk, List.forall_mem_nil _, proper_nil⟩
  | cons b cs ih =>
    obtain ⟨i, c⟩ := b
    obtain ⟨hi, hb, hcs⟩ := proper_cons.mp h
    unfold Coeffs.modify
    split
    · exact proper_cons.mpr ⟨hi, hb, hcs⟩
    · rename_i hne
      rw [beq_iff_eq] at hne
      split
      · rename_i hlt
        refine proper_cons.mpr ⟨hk, List.forall_mem_cons.mpr ⟨hlt, fun b hb' => ?_⟩, h⟩
        exact Int.lt_trans hlt (hb b hb')
      · rename_i hlt
        refine proper_cons.mpr ⟨hi, fun b hb' => ?_, ih hcs⟩
        rcases mem_modify hb' with hbk | hb'
        · simp only [hbk]
          omega
        · exact hb b hb'

lemma get?_eq_none (h : ∀ b ∈ cs, k < b.1) : cs.get? k = none := by
  rw [get?, List.lookup_eq_none_iff]
  intro b hb
  exact bne_iff_ne.mpr (Int.ne_of_lt (h b hb))

lemma get?_cons (k i : Int) (c : K) (cs : Coeffs K) :
    get? ((k, c) :: cs) i = if i = k then some c else cs.get? i := by
  by_cases h : i = k
  · simp [get?, h]
  · simp [get?, List.lookup_cons, h, beq_false_of_ne h]

end Coeffs

namespace LinearForm

open Coeffs

variable [Scalar K] {n : Nat}

def Proper (n : Nat) (p : LinearForm K) : Prop := p.coeffs.Proper n

lemma proper_ofConstant (c : K) : (ofConstant c).Proper n := proper_nil

lemma proper_ofVariable {k : Int} (hk : 0 ≤ k ∧ k < n) : (ofVariable k : LinearForm K).Proper n := by
  unfold ofVariable
  split
  · exact proper_nil
  · exact proper_cons.mpr ⟨hk, List.forall_mem_nil _, proper_nil⟩

variable {p q r : LinearForm K}

lemma Proper.combine (hp : p.Proper n) (hq : q.Proper n) (op : K → K → K) : (p.combine op q).Proper n := by
  have h : ∀ cs : Coeffs K, cs.Proper n → (q.coeffs.foldl (fun cs (k, c) =>
      if Scalar.negligible c then cs else cs.modify k fun b => op (b.getD Scalar.zero) c) cs).Proper n := by
    have hr := hq.range
    generalize q.coeffs = qs at hr
    induction qs with
    | nil => exact fun _ h => h
    | cons x qs ih =>
      intro cs hcs
      obtain ⟨hx, hqs⟩ := List.forall_mem_cons.mp hr
      refine ih hqs _ ?_
      dsimp only
      split
      · exact hcs
      · exact hcs.modify hx _
  exact h p.coeffs hp

lemma Proper.scale (hp : p.Proper n) (c : K) : (p.scale c).Proper n :=
  (hp.map (· * c)).filter _

lemma Proper.foldl_add (hp : p.Proper n) {ps : List (LinearForm K)} (hps : ∀ q ∈ ps, q.Proper n) :
    (ps.foldl add p).Proper n := by
  induction ps generalizing p with
  | nil => exact hp
  | cons q ps ih =>
    obtain ⟨hq, hps⟩ := List.forall_mem_cons.mp hps
    exact ih (hp.combine hq _) hps

lemma Proper.multiply (hp : p.Proper n) (hq : q.Proper n) (h : multiply p q = .ok r) : r.Proper n := by
  unfold LinearForm.multiply at h
  split at h
  · cases h
    exact hp.scale _
  · cases h
    exact hq.scale _
  · cases h

lemma Proper.divide (hp : p.Proper n) (h : divide p q = .ok r) : r.Proper n := by
  unfold LinearForm.divide at h
  split at h
  · cases h
  · split at h
    · cases h
    · cases h
      exact hp.scale _

lemma Proper.power (hp : p.Proper n) (h : power p q = .ok r) : r.Proper n := by
  unfold LinearForm.power at h
  split at h
  · split at h
    · cases h
      exact hp
    · cases h
  · cases h

lemma proper_apply {op : Opcode} {args : List (LinearForm K)} (hargs : ∀ q ∈ args, q.Proper n)
    (h : apply op args = .ok p) : p.Proper n := by
  unfold apply at h
  split at h
  · split at h
    · cases h
      exact proper_ofConstant _
    · cases h
  · unfold applyUnknown at h
    split at h
    case h_1 | h_2 =>
      cases h
      obtain ⟨hp, hps⟩ := List.forall_mem_cons.mp hargs
      exact hp.foldl_add hps
    case h_3 =>
      cases h
      exact (hargs _ (by simp)).combine (hargs _ (by simp)) _
    case h_4 =>
      cases h
      exact (hargs _ (by simp)).scale _
    case h_5 => exact (hargs _ (by simp)).multiply (hargs _ (by simp)) h
    case h_6 => exact (hargs _ (by simp)).divide h
    case h_7 => exact (hargs _ (by simp)).power h
    case h_12 | h_13 =>
      cases h
      exact hargs _ (by simp)
    all_goals cases h

end LinearForm

def coordinate [Zero K] (x : List K) (k : Int) : K := x.getD k.toNat 0

variable [Field K]

lemma sum_unit (c : K) (x : List K) {k : Int} {start : Nat} (hk : start ≤ k ∧ k < start + x.length) :
    ((x.zipIdx start).map fun e => (if (e.2 : Int) = k then c else 0) * e.1).sum = c * x.getD (k.toNat - start) 0 := by
  induction x generalizing start with
  | nil =>
    simp only [List.length_nil] at hk
    omega
  | cons a x ih =>
    rw [List.zipIdx_cons, List.map_cons, List.sum_cons]
    by_cases hstart : (start : Int) = k
    · have hrest : ((x.zipIdx (start + 1)).map fun e => (if (e.2 : Int) = k then c else 0) * e.1).sum = 0 := by
        refine List.sum_eq_zero fun y hy => ?_
        obtain ⟨⟨b, i⟩, hb, rfl⟩ := List.mem_map.mp hy
        have hi := (List.mk_mem_zipIdx_iff_le_and_getElem?_sub.mp hb).1
        rw [if_neg (by omega), zero_mul]
      rw [hrest, add_zero, if_pos hstart, ← hstart]
      simp
    · simp only [List.length_cons] at hk
      rw [ih (by omega), if_neg hstart, zero_mul, zero_add]
      have hnat : k.toNat - start = k.toNat - (start + 1) + 1 := by omega
      rw [hnat, List.getD_cons_succ]

namespace Coeffs

lemma sum_columns {x : List K} {cs : Coeffs K} (h : Proper x.length cs) :
    (x.zipIdx.map fun (a, i) => (cs.get? i).getD 0 * a).sum = cs.value (coordinate x) := by
  induction cs with
  | nil => simp [get?]
  | cons b cs ih =>
    obtain ⟨k, c⟩ := b
    obtain ⟨hk, hb, hcs⟩ := proper_cons.mp h
    have hsplit : ∀ e : K × Nat, (get? ((k, c) :: cs) e.2).getD 0 * e.1 =
        (if (e.2 : Int) = k then c else 0) * e.1 + (get? cs e.2).getD 0 * e.1 := by
      intro e
      rw [get?_cons]
      split
      · rename_i hi
        rw [hi, get?_eq_none hb]
        simp
      · simp
    calc (x.zipIdx.map fun e => (get? ((k, c) :: cs) e.2).getD 0 * e.1).sum
        = (x.zipIdx.map fun e => (if (e.2 : Int) = k then c else 0) * e.1 + (get? cs e.2).getD 0 * e.1).sum := by
          simp only [hsplit]
      _ = (x.zipIdx.map fun e => (if (e.2 : Int) = k then c else 0) * e.1).sum +
          (x.zipIdx.map fun e => (get? cs e.2).getD 0 * e.1).sum := List.sum_map_add
      _ = c * coordinate x k + value (coordinate x) cs := by
          rw [ih hcs, sum_unit c x (by omega)]
          rfl
      _ = value (coordinate x) ((k, c) :: cs) := (value_cons k c cs).symm

variable {n : Nat} {cs : Coeffs K} {v : Int → K}

lemma value_set (h : Proper n cs) (k : Int) (d : K) :
    value v (cs.set k d) = value v cs + (d - (cs.get? k).getD 0) * v k := by
  unfold Coeffs.set
  induction cs with
  | nil => simp [Coeffs.modify, get?]
  | cons b cs ih =>
    obtain ⟨i, c⟩ := b
    obtain ⟨-, hb, hcs⟩ := proper_cons.mp h
    unfold Coeffs.modify
    rw [get?_cons]
    by_cases hk : k = i
    · simp only [hk, beq_self_eq_true, if_true, value_cons, Option.getD_some]
      ring
    · rw [if_neg (by simpa using hk), if_neg hk]
      split
      · rename_i hlt
        rw [get?_eq_none fun b hb' => Int.lt_trans hlt (hb b hb')]
        simp only [value_cons, Option.getD_none]
        ring
      · rw [value_cons, value_cons, ih hcs]
        ring

lemma value_erase (h : Proper n cs) (k : Int) :
    value v (cs.filter fun (i, _) => i != k) = value v cs - (cs.get? k).getD 0 * v k := by
  induction cs with
  | nil => simp [get?]
  | cons b cs ih =>
    obtain ⟨i, c⟩ := b
    obtain ⟨-, hb, hcs⟩ := proper_cons.mp h
    rw [get?_cons]
    by_cases hk : k = i
    · have hnone : get? cs k = none := get?_eq_none (by rw [hk]; exact hb)
      rw [List.filter_cons_of_neg (by simp [hk]), ih hcs, hnone, if_pos hk, value_cons, hk]
      simp
    · rw [List.filter_cons_of_pos (by simpa using Ne.symm hk), value_cons, value_cons, ih hcs, if_neg hk]
      ring

lemma coordinate_zero (n : Nat) (i : Int) : coordinate (List.replicate n (0 : K)) i = 0 := by
  rw [coordinate, List.getD_eq_getElem?_getD, List.getElem?_replicate]
  split <;> rfl

lemma value_zero (n : Nat) (cs : Coeffs K) : value (coordinate (List.replicate n 0)) cs = 0 := by
  induction cs with
  | nil => rfl
  | cons b cs ih => rw [value_cons, ih, coordinate_zero, mul_zero, add_zero]

lemma coordinate_unit {k : Nat} (hk : k < n) (i : Int) (hi : 0 ≤ i) :
    coordinate ((List.replicate n (0 : K)).set k 1) i = if k = i then 1 else 0 := by
  by_cases hki : (k : Int) = i
  · rw [if_pos hki, coordinate, ← hki, Int.toNat_natCast, List.getD_eq_getElem?_getD,
      List.getElem?_set_self (by rwa [List.length_replicate]), Option.getD_some]
  · rw [if_neg hki, coordinate, List.getD_eq_getElem?_getD, List.getElem?_set_ne (by omega),
      ← List.getD_eq_getElem?_getD]
    exact coordinate_zero n i

lemma value_unit (h : Proper n cs) {k : Nat} (hk : k < n) :
    value (coordinate ((List.replicate n 0).set k 1)) cs = (cs.get? k).getD 0 := by
  induction cs with
  | nil => rfl
  | cons b cs ih =>
    obtain ⟨i, c⟩ := b
    obtain ⟨hi, hb, hcs⟩ := proper_cons.mp h
    rw [value_cons, ih hcs, get?_cons, coordinate_unit hk i hi.1]
    by_cases hki : (k : Int) = i
    · rw [if_pos hki, if_pos hki, hki, get?_eq_none hb, mul_one]
      exact add_zero c
    · rw [if_neg hki, if_neg hki, mul_zero, zero_add]

end Coeffs

variable [LinearOrder K] [Functions K]

namespace Matrix

lemma dot_eq {m : Matrix K} {cs : Coeffs K} (h : cs.Proper m.columns.length) {x : List K}
    (hx : x.length = m.columns.length) : m.dot cs x = .ok (cs.value (coordinate x)) := by
  have hall : cs.all (fun (k, _) => m.hasColumn k) = true := by
    rw [List.all_eq_true]
    intro a ha
    obtain ⟨h0, hn⟩ := h.range a ha
    simp [hasColumn, h0, hn]
  rw [← hx] at h
  unfold dot
  rw [hall, if_pos (by simpa using hx), sum_eq]
  simp only [zero_eq]
  rw [Coeffs.sum_columns h]

lemma value_addObjective {m : Matrix K} {cs : Coeffs K} {n : Nat} (hm : m.objective.Proper n) (hcs : cs.Proper n)
    (v : Int → K) : (m.addObjective cs).objective.Proper n ∧
      (m.addObjective cs).objective.value v = m.objective.value v + cs.value v := by
  unfold addObjective
  generalize m.objective = obj at hm
  have hrange := hcs.range
  clear hcs
  induction cs generalizing obj with
  | nil => exact ⟨hm, by simp⟩
  | cons b cs ih =>
    obtain ⟨k, c⟩ := b
    obtain ⟨hk, hrange⟩ := List.forall_mem_cons.mp hrange
    rw [List.foldl_cons, Coeffs.value_cons, ← add_assoc]
    dsimp only
    split
    · rename_i hzero
      rw [isZero_iff, zero_eq] at hzero
      obtain ⟨hproper, hvalue⟩ := ih _ (hm.filter _) hrange
      refine ⟨hproper, hvalue.trans ?_⟩
      rw [Coeffs.value_erase hm, eq_neg_of_add_eq_zero_left hzero]
      ring
    · obtain ⟨hproper, hvalue⟩ := ih _ (hm.modify hk _) hrange
      refine ⟨hproper, hvalue.trans ?_⟩
      change Coeffs.value v (obj.set k _) + _ = _
      rw [Coeffs.value_set hm, zero_eq]
      ring

end Matrix

end LandUse
