import LandUse.Proofs.Linear.Activity
import LandUse.Proofs.Linear.Writing

/-! What a matrix holds after any calls, failing ones among them. -/

namespace LandUse

open Scalar Outcome

variable {α : Type}

namespace Coeffs

lemma mem_set {cs : Coeffs α} {k : Int} {c : α} {a : Int × α} (h : a ∈ cs.set k c) : a = (k, c) ∨ a ∈ cs := by
  induction cs with
  | nil => exact .inl (List.mem_singleton.1 h)
  | cons b cs ih =>
    rw [set, modify] at h
    split_ifs at h with hkey
    · rw [← eq_of_beq hkey] at h
      exact (List.mem_cons.1 h).imp_right (List.mem_cons_of_mem _)
    · exact List.mem_cons.1 h
    · rcases List.mem_cons.1 h with rfl | h
      · exact .inr List.mem_cons_self
      · exact (ih h).imp_right (List.mem_cons_of_mem _)

end Coeffs

namespace Matrix

variable {m : Matrix α}

lemma hasColumn_iff {k : Int} : m.hasColumn k = true ↔ 0 ≤ k ∧ k < m.columns.length := by
  rw [hasColumn, Bool.and_eq_true, decide_eq_true_iff, decide_eq_true_iff]

variable {m' : Matrix α} {name : String}

lemma hasColumn_of_le (h : m.columns.length ≤ m'.columns.length) {k : Int} (hk : m.hasColumn k = true) :
    m'.hasColumn k = true := by
  rw [hasColumn_iff] at hk ⊢
  omega

lemma column?_eq_some_iff (h : (m.columns.map (·.name)).Nodup) {i : Nat} :
    m.column? name = some i ↔ (m.columns[i]?).map (·.name) = some name := by
  rw [column?, List.findIdx?_eq_some_iff_getElem, ← List.getElem?_map, List.getElem?_eq_some_iff]
  simp only [List.getElem_map, List.length_map, beq_iff_eq]
  constructor
  · rintro ⟨hi, hname, -⟩
    exact ⟨hi, hname⟩
  · rintro ⟨hi, rfl⟩
    refine ⟨hi, rfl, fun j hj heq => ?_⟩
    have hlt : j < (m.columns.map (·.name)).length := by simpa using hj.trans hi
    have hle : i < (m.columns.map (·.name)).length := by simpa using hi
    have hsame : (m.columns.map (·.name))[j] = (m.columns.map (·.name))[i] := by simpa using heq
    exact absurd (h.getElem_inj_iff.1 hsame) (Nat.ne_of_lt hj)

lemma names_bound (i : Nat) (lower upper : Float) :
    (m.bound i lower upper).columns.map (·.name) = m.columns.map (·.name) := by
  apply List.ext_getElem?
  intro j
  rw [bound, List.getElem?_map, List.getElem?_map, List.getElem?_modify]
  split_ifs <;> simp [Function.comp_def]

lemma setBounds_eq_ok {column : Int} {lower upper : Float} (h : m.setBounds column lower upper = .ok m') :
    m' = m.bound column.toNat lower upper := by
  rw [setBounds] at h
  split_ifs at h
  cases h
  rfl

lemma name_not_mem_of_column? (h : m.column? name = none) : name ∉ m.columns.map (·.name) := by
  intro hmem
  obtain ⟨c, hc, hname⟩ := List.mem_map.1 hmem
  exact beq_iff_eq.not.1 (Bool.eq_false_iff.1 (List.findIdx?_eq_none_iff.1 h c hc)) hname

lemma addColumn_eq_ok {kind : VariableKind} {i : Nat} (h : m.addColumn name kind = .ok (i, m')) :
    m.column? name = none ∧
      ∃ c : MatrixColumn, c.name = name ∧ m' = { m with columns := m.columns ++ [c] } := by
  rw [addColumn] at h
  split at h
  · cases h
  · rename_i hnone
    cases h
    exact ⟨hnone, _, rfl, rfl⟩

end Matrix

variable [Scalar α]

inductive MatrixCall (α : Type) where
  | addColumn (name : String) (kind : VariableKind)
  | setBounds (column : Int) (lower upper : Float)
  | addRow (name : String) (coeffs : Coeffs α) (relation : RowRelation) (rhs : α)
  | setObjective (coeffs : Coeffs α) (sense : Sense)
  | addObjective (coeffs : Coeffs α)
  | setSense (sense : Sense)

namespace MatrixCall

def answer (m : Matrix α) : MatrixCall α → Except Fault (Matrix α)
  | addColumn name kind => orFault (m.addColumn name kind) >>= fun r => .ok r.2
  | setBounds column lower upper => m.setBounds column lower upper
  | addRow name coeffs relation rhs => orFault (m.addRow name coeffs relation rhs) >>= fun r => .ok r.2
  | setObjective coeffs sense => .ok (m.setObjective coeffs sense)
  | addObjective coeffs => .ok (m.addObjective coeffs)
  | setSense sense => .ok (m.setSense sense)

def perform (m : Matrix α) (call : MatrixCall α) : Matrix α :=
  match call.answer m with
  | .ok m' => m'
  | .error _ => m

def priced : MatrixCall α → List Int
  | setObjective coeffs _ => coeffs.map (·.1)
  | addObjective coeffs => coeffs.map (·.1)
  | _ => []

end MatrixCall

namespace Matrix

def replay (calls : List (MatrixCall α)) : Matrix α := calls.foldl MatrixCall.perform {}

variable {m : Matrix α}
variable {cs : Coeffs α}

lemma mem_dropZeros {a : Int × α} : a ∈ dropZeros cs ↔ a ∈ cs ∧ isZero a.2 = false := by
  rw [dropZeros, List.mem_filter, Bool.not_eq_true']

lemma mem_addObjective {a : Int × α} (h : a ∈ (m.addObjective cs).objective) :
    a ∈ m.objective ∨ a.1 ∈ cs.map (·.1) ∧ isZero a.2 = false := by
  induction cs generalizing m with
  | nil => exact .inl h
  | cons b cs ih =>
    -- The coefficients behind the first one are added to an objective of their own.
    rcases ih (m := m.addObjective [b]) h with h | ⟨hkey, hzero⟩
    · simp only [addObjective, List.foldl_cons, List.foldl_nil] at h
      split_ifs at h with hsum
      · exact .inl (List.mem_of_mem_filter h)
      · rcases Coeffs.mem_set h with rfl | h
        · exact .inr ⟨List.mem_cons_self, Bool.eq_false_of_not_eq_true hsum⟩
        · exact .inl h
    · exact .inr ⟨List.mem_cons_of_mem _ hkey, hzero⟩

lemma addRow_eq_ok {name : String} {relation : RowRelation} {rhs : α} {i : Nat} {m' : Matrix α}
    (h : m.addRow name cs relation rhs = .ok (i, m')) : (∀ a ∈ cs, m.hasColumn a.1 = true) ∧
      m' = { m with rows := m.rows ++ [⟨name, dropZeros cs, relation, rhs⟩] } := by
  rw [addRow] at h
  split at h
  · cases h
  · rename_i hnone
    cases h
    exact ⟨by simpa using hnone, rfl⟩

/-- Every column has a name of its own, and only coefficients other than zero are stored. -/
structure Sound (priced : Int → Prop) (m : Matrix α) : Prop where
  names : (m.columns.map (·.name)).Nodup
  rows : ∀ r ∈ m.rows, ∀ a ∈ r.coeffs, isZero a.2 = false ∧ m.hasColumn a.1 = true
  objective : ∀ a ∈ m.objective, isZero a.2 = false ∧ priced a.1

lemma sound_empty (P : Int → Prop) : Sound P ({} : Matrix α) where
  names := List.nodup_nil
  rows := fun _ h => nomatch h
  objective := fun _ h => nomatch h

namespace Sound

variable {P : Int → Prop}

lemma addColumn (hm : m.Sound P) {name : String} {kind : VariableKind} {i : Nat} {m' : Matrix α}
    (h : m.addColumn name kind = .ok (i, m')) : m'.Sound P := by
  obtain ⟨hnone, c, rfl, rfl⟩ := addColumn_eq_ok h
  refine ⟨?_, fun r hr a ha => (hm.rows r hr a ha).imp_right (hasColumn_of_le (by simp)), hm.objective⟩
  rw [List.map_append]
  exact hm.names.append (List.nodup_singleton _) (List.disjoint_singleton.2 (name_not_mem_of_column? hnone))

lemma bound (hm : m.Sound P) (i : Nat) (lower upper : Float) : (m.bound i lower upper).Sound P := by
  refine ⟨?_, fun r hr a ha => (hm.rows r hr a ha).imp_right (hasColumn_of_le (by simp [Matrix.bound])), hm.objective⟩
  rw [names_bound]
  exact hm.names

lemma addRow (hm : m.Sound P) {name : String} {cs : Coeffs α} {relation : RowRelation} {rhs : α}
    {i : Nat} {m' : Matrix α}
    (h : m.addRow name cs relation rhs = .ok (i, m')) : m'.Sound P := by
  obtain ⟨hcolumns, rfl⟩ := addRow_eq_ok h
  refine ⟨hm.names, fun r hr a ha => ?_, hm.objective⟩
  rcases List.mem_append.1 hr with hr | hr
  · exact hm.rows r hr a ha
  · cases List.mem_singleton.1 hr
    obtain ⟨ha, hzero⟩ := mem_dropZeros.1 ha
    exact ⟨hzero, hcolumns a ha⟩

lemma setSense (hm : m.Sound P) (sense : Sense) : (m.setSense sense).Sound P := ⟨hm.names, hm.rows, hm.objective⟩

lemma addObjective (hm : m.Sound P) {cs : Coeffs α} (hcs : ∀ k ∈ cs.map (·.1), P k) : (m.addObjective cs).Sound P := by
  refine ⟨hm.names, hm.rows, fun a ha => ?_⟩
  rcases mem_addObjective ha with ha | ⟨hkey, hzero⟩
  · exact hm.objective a ha
  · exact ⟨hzero, hcs _ hkey⟩

lemma answer (hm : m.Sound P) {call : MatrixCall α} (hcall : ∀ k ∈ call.priced, P k) {m' : Matrix α}
    (h : call.answer m = .ok m') : m'.Sound P := by
  cases call with
  | addColumn name kind =>
    obtain ⟨⟨i, m₁⟩, hadd, heq⟩ := bind_eq_ok.1 h
    cases heq
    exact hm.addColumn (orFault_eq_ok.1 hadd)
  | setBounds column lower upper =>
    obtain rfl := setBounds_eq_ok h
    exact hm.bound _ _ _
  | addRow name coeffs relation rhs =>
    obtain ⟨⟨i, m₁⟩, hadd, heq⟩ := bind_eq_ok.1 h
    cases heq
    exact hm.addRow (orFault_eq_ok.1 hadd)
  | setObjective coeffs sense =>
    cases h
    refine ⟨hm.names, hm.rows, fun a ha => ?_⟩
    obtain ⟨ha, hzero⟩ := mem_dropZeros.1 ha
    exact ⟨hzero, hcall _ (List.mem_map_of_mem ha)⟩
  | addObjective coeffs =>
    cases h
    exact hm.addObjective hcall
  | setSense sense =>
    cases h
    exact hm.setSense sense

lemma perform (hm : m.Sound P) {call : MatrixCall α} (hcall : ∀ k ∈ call.priced, P k) : (call.perform m).Sound P := by
  rw [MatrixCall.perform]
  cases h : call.answer m with
  | ok m' => exact hm.answer hcall h
  | error e => exact hm

lemma performed (hm : m.Sound P) {calls : List (MatrixCall α)} (hcalls : ∀ call ∈ calls, ∀ k ∈ call.priced, P k) :
    (calls.foldl MatrixCall.perform m).Sound P := by
  induction calls generalizing m with
  | nil => exact hm
  | cons call calls ih =>
    obtain ⟨hcall, hcalls⟩ := List.forall_mem_cons.1 hcalls
    exact ih (hm.perform hcall) hcalls

end Sound

lemma dot_ok_iff {x : List α} (hx : x.length = m.columns.length) : (∃ v, m.dot cs x = .ok v) ↔ m.InColumns cs := by
  rw [dot, hx, beq_self_eq_true, Bool.and_true, InColumns, ← List.all_eq_true]
  split_ifs with h <;> simp [h]

lemma activity_ok {P : Int → Prop} (hm : m.Sound P) {x : List α} (hx : x.length = m.columns.length) {i : Nat}
    (hi : i < m.rows.length) : ∃ v, m.activity i x = .ok v := by
  rw [activity, if_pos (Int.natCast_nonneg i), Int.toNat_natCast, List.getElem?_eq_getElem hi]
  exact (dot_ok_iff hx).2 fun a ha => (hm.rows _ (List.getElem_mem hi) a ha).2

lemma Sound.text_ok_iff {P : Int → Prop} {m : Matrix Float} (hm : m.Sound P) :
    (∃ s, m.text = .ok s) ↔ m.InColumns m.objective ∧ m.Writable := by
  have hrows : ∀ r ∈ m.rows, m.InColumns r.coeffs := fun r hr a ha => (hm.rows r hr a ha).2
  rw [Matrix.text_ok_iff]
  exact and_congr_right fun _ => and_iff_right hrows

/-- After any calls rows have activities, and an objective value is missing just if its column is. -/
theorem replay_sound (calls : List (MatrixCall Float)) :
    (∀ name i, (replay calls).column? name = some i ↔ ((replay calls).columns[i]?).map (·.name) = some name) ∧
    (∀ r ∈ (replay calls).rows, ∀ a ∈ r.coeffs, isZero a.2 = false ∧ (replay calls).hasColumn a.1 = true) ∧
    (∀ a ∈ (replay calls).objective, isZero a.2 = false ∧ ∃ call ∈ calls, a.1 ∈ call.priced) ∧
    (∀ call fault, call.answer (replay calls) = .error fault → replay (calls ++ [call]) = replay calls) ∧
    (∀ x : List Float, x.length = (replay calls).columns.length →
      (∀ i < (replay calls).rows.length, ∃ v, (replay calls).activity i x = .ok v) ∧
      ((∃ v, (replay calls).objectiveValue x = .ok v) ↔ (replay calls).InColumns (replay calls).objective)) ∧
    ((∃ s, (replay calls).text = .ok s) ↔
      (replay calls).InColumns (replay calls).objective ∧ (replay calls).Writable) := by
  have hs : (replay calls).Sound fun k => ∃ call ∈ calls, k ∈ call.priced :=
    (sound_empty _).performed fun call hcall k hk => ⟨call, hcall, hk⟩
  refine ⟨fun _ _ => column?_eq_some_iff hs.names, hs.rows, hs.objective, fun call fault h => ?_,
    fun x hx => ⟨fun i hi => activity_ok hs hx hi, dot_ok_iff hx⟩, hs.text_ok_iff⟩
  rw [replay, List.foldl_append]
  show call.perform (replay calls) = _
  rw [MatrixCall.perform, h]

def pricedAhead : List (MatrixCall Float) :=
  [.addColumn "x" .real, .addRow "r" [(1, 5)] .le 4, .addRow "r" [(0, 2)] .le 4, .addObjective [(1, 3)]]

theorem priced_ahead_unwritten : (replay pricedAhead).rows.length = 1 ∧
    (∃ v, (replay pricedAhead).activity 0 [1] = .ok v) ∧
    (¬ ∃ v, (replay pricedAhead).objectiveValue [1] = .ok v) ∧ ¬ ∃ s, (replay pricedAhead).text = .ok s := by
  obtain ⟨-, -, -, -, hvalues, htext⟩ := replay_sound pricedAhead
  obtain ⟨hactivity, hobjective⟩ := hvalues [1] (by decide +kernel)
  have hrows : (replay pricedAhead).rows.length = 1 := by decide +kernel
  have hmissing : ¬ (replay pricedAhead).InColumns (replay pricedAhead).objective := by
    unfold InColumns
    decide +kernel
  exact ⟨hrows, hactivity 0 (hrows ▸ Nat.one_pos), hobjective.not.2 hmissing, fun h => hmissing (htext.1 h).1⟩

end Matrix

end LandUse
