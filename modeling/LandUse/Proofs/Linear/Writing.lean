import LandUse.Linear.LpText
import LandUse.Proofs.Number.Signs
import LandUse.Proofs.Outcome

namespace LandUse

open Outcome

lemma Number.isFinite_of_eq_zero {x : Float} (h : (x == 0) = true) : x.isFinite = true := by
  rw [isFinite_iff]
  replace h : (x.toModel.unpack.compare (0 : Float).toModel.unpack == some .eq) = true := h
  rw [unpack_eq x, unpack_eq 0, parts_zero] at h
  cases hp : parts x with
  | finite negative m q => exact ⟨negative, m, q, rfl⟩
  | infinite negative =>
    rw [hp] at h
    cases negative <;> cases h
  | nan =>
    rw [hp] at h
    cases h

lemma Number.isFinite_zero : (0 : Float).isFinite = true := isFinite_iff.2 ⟨_, _, _, parts_zero⟩

lemma Outcome.mapM_ok_iff {ε α β : Type} {f : α → Except ε β} {xs : List α} :
    (∃ ys, xs.mapM f = .ok ys) ↔ ∀ x ∈ xs, ∃ y, f x = .ok y := by
  refine ⟨fun ⟨_, h⟩ _ hx => exists_of_mapM h hx, fun h => ?_⟩
  cases hr : xs.mapM f with
  | ok ys => exact ⟨ys, rfl⟩
  | error e =>
    obtain ⟨x, hx, he⟩ := exists_of_mapM_error hr
    obtain ⟨y, hy⟩ := h x hx
    rw [he] at hy
    cases hy

namespace LpText

variable {m : Matrix Float}

lemma number_ok_iff {x : Float} : (∃ s, number x = .ok s) ↔ x.isFinite = true := by
  rw [Number.isFinite_iff]
  unfold number Number.plain?
  cases Number.parts x <;> simp

lemma term_ok_iff {k : Int} {c : Float} :
    (∃ s, term m k c = .ok s) ↔ m.hasColumn k = true ∧ c.isFinite = true := by
  rw [← number_ok_iff, term]
  cases number c <;> cases m.hasColumn k <;> simp [throw, throwThe, MonadExceptOf.throw]

lemma terms_ok_iff {cs : Coeffs Float} :
    (∃ s, terms m cs = .ok s) ↔ ∀ a ∈ cs, m.hasColumn a.1 = true ∧ a.2.isFinite = true := by
  simp only [← term_ok_iff, ← mapM_ok_iff, terms]
  cases cs.mapM fun a => term m a.1 a.2 <;> simp

lemma row_ok_iff {r : MatrixRow Float} : (∃ s, row m r = .ok s) ↔
    (∀ a ∈ r.coeffs, m.hasColumn a.1 = true ∧ a.2.isFinite = true) ∧ r.rhs.isFinite = true := by
  rw [← terms_ok_iff, ← number_ok_iff, row]
  cases terms m r.coeffs <;> cases number r.rhs <;> simp

section Errors

variable {f : Fault}

lemma number_error {x : Float} (h : number x = .error f) : f = .violation := by
  rw [number] at h
  split at h <;> cases h
  rfl

lemma terms_error {cs : Coeffs Float} (h : terms m cs = .error f) : f = .violation := by
  obtain h | ⟨_, -, h⟩ := bind_eq_error.1 h
  · obtain ⟨a, -, h⟩ := exists_of_mapM_error h
    dsimp only [term] at h
    obtain h | ⟨_, -, h⟩ := bind_eq_error.1 h
    · exact number_error h
    · split at h <;> cases h
      rfl
  · cases h

lemma row_error {r : MatrixRow Float} (h : row m r = .error f) : f = .violation := by
  obtain h | ⟨_, -, h⟩ := bind_eq_error.1 h
  · exact terms_error h
  · obtain h | ⟨_, -, h⟩ := bind_eq_error.1 h
    · exact number_error h
    · cases h

lemma bounds_error {c : MatrixColumn} (h : bounds c = .error f) : f = .violation := by
  simp only [bounds, pure_bind] at h
  split at h
  · cases h
  split at h
  · split at h
    · cases h
    · obtain h | ⟨_, -, h⟩ := bind_eq_error.1 h
      · exact number_error h
      · cases h
  · obtain h | ⟨_, -, h⟩ := bind_eq_error.1 h
    · exact number_error h
    split at h
    · cases h
    · obtain h | ⟨_, -, h⟩ := bind_eq_error.1 h
      · exact number_error h
      · cases h

end Errors

end LpText

namespace MatrixColumn

def Writable (c : MatrixColumn) : Prop :=
  c.kind = .binary ∨
    (LpText.isInfinite c.lower true = true ∨ c.lower.isFinite = true) ∧
      (LpText.isInfinite c.upper false = true ∨ c.upper.isFinite = true)

lemma bounds_ok_iff {c : MatrixColumn} : (∃ s, LpText.bounds c = .ok s) ↔ c.Writable := by
  have hzero := @Number.isFinite_of_eq_zero c.lower
  simp only [Writable, ← LpText.number_ok_iff, LpText.bounds] at hzero ⊢
  by_cases hkind : c.kind = .binary
  · simp [hkind]
  have hkind' : (c.kind == .binary) = false := beq_eq_false_iff_ne.2 hkind
  simp only [hkind, hkind', Bool.false_or, false_or]
  cases hlow : c.lower == 0 <;> cases LpText.isInfinite c.lower true <;> cases LpText.isInfinite c.upper false <;>
    cases hl : LpText.number c.lower <;> cases LpText.number c.upper <;> simp_all

end MatrixColumn

namespace Matrix

structure Writable (m : Matrix Float) : Prop where
  columns : ∀ c ∈ m.columns, c.Writable
  rows : ∀ r ∈ m.rows, (∀ a ∈ r.coeffs, a.2.isFinite = true) ∧ r.rhs.isFinite = true
  objective : ∀ a ∈ m.objective, a.2.isFinite = true

def InColumns {α : Type} (m : Matrix α) (cs : Coeffs α) : Prop := ∀ a ∈ cs, m.hasColumn a.1 = true

lemma text_ok_iff {m : Matrix Float} : (∃ s, m.text = .ok s) ↔
    m.InColumns m.objective ∧ (∀ r ∈ m.rows, m.InColumns r.coeffs) ∧ m.Writable := by
  have h : (∃ s, m.text = .ok s) ↔ (∃ s, LpText.terms m m.objective = .ok s) ∧
      (∃ ss, m.rows.mapM (LpText.row m) = .ok ss) ∧ ∃ ss, m.columns.mapM LpText.bounds = .ok ss := by
    rw [text]
    cases LpText.terms m m.objective <;> cases m.rows.mapM (LpText.row m) <;>
      cases m.columns.mapM LpText.bounds <;> simp
  rw [h, mapM_ok_iff, mapM_ok_iff, LpText.terms_ok_iff]
  simp only [LpText.row_ok_iff, MatrixColumn.bounds_ok_iff, forall_and, InColumns]
  constructor
  · rintro ⟨⟨hobj, hfin⟩, ⟨⟨hrows, hcoeffs⟩, hrhs⟩, hcols⟩
    exact ⟨hobj, hrows, hcols, fun r hr => ⟨hcoeffs r hr, hrhs r hr⟩, hfin⟩
  · rintro ⟨hobj, hrows, hw⟩
    exact ⟨⟨hobj, hw.objective⟩, ⟨⟨hrows, fun r hr => (hw.rows r hr).1⟩, fun r hr => (hw.rows r hr).2⟩, hw.columns⟩

lemma text_error {m : Matrix Float} {f : Fault} (h : m.text = .error f) : f = .violation := by
  rw [text] at h
  obtain h | ⟨_, -, h⟩ := bind_eq_error.1 h
  · exact LpText.terms_error h
  obtain h | ⟨_, -, h⟩ := bind_eq_error.1 h
  · obtain ⟨r, -, h⟩ := exists_of_mapM_error h
    exact LpText.row_error h
  obtain h | ⟨_, -, h⟩ := bind_eq_error.1 h
  · obtain ⟨c, -, h⟩ := exists_of_mapM_error h
    exact LpText.bounds_error h
  · cases h

end Matrix

end LandUse
