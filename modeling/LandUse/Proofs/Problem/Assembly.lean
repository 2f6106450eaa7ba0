import LandUse.Proofs.Linear.Calls
import LandUse.Proofs.Linear.Prefix
import LandUse.Proofs.Problem.Columns
import LandUse.Proofs.Problem.Recording

namespace LandUse

open Outcome

variable {α : Type} [Scalar α]

def SegmentKind.rowLabels (kind : SegmentKind α) (segments : List (Segment α)) : List String :=
  match kind with
  | .constraint .. => segments.map (·.label)
  | .objective .. => []

def Program.labelsOf (p : Program) (j : Job α) : List String := j.segment.kind.rowLabels (p.segmentsOf j)

structure Matrix.Assembled (n : Nat) (columns : List MatrixColumn) (labels : List String) (m : Matrix α) : Prop where
  sound : m.Sound fun k => 0 ≤ k ∧ k < n
  columns : m.columns = columns
  labels : m.rows.map (·.name) = labels

namespace Matrix.Assembled

variable {n : Nat} {columns : List MatrixColumn} {labels : List String} {s s' : RowSink α}

lemma accept (hs : s.matrix.Assembled n columns labels) {r : Record α} {kind : SegmentKind α} (hr : r.Fits n kind)
    (h : RowSink.sink.accept s r = .ok s') : s'.matrix.Assembled n columns
      (labels ++ kind.rowLabels [r.1]) := by
  rw [accept_row, RowSink.add, bind_eq_ok] at h
  obtain ⟨p, hp, h⟩ := h
  rw [hr.kind] at h
  cases kind with
  | constraint op rhs =>
    simp only [bind_eq_ok, orFault_eq_ok] at h
    obtain ⟨relation, -, ⟨row, m⟩, hrow, h⟩ := h
    cases h
    have hsound := hs.sound.addRow hrow
    obtain ⟨-, rfl⟩ := addRow_eq_ok hrow
    exact ⟨hsound, hs.columns, by simp [hs.labels, SegmentKind.rowLabels]⟩
  | objective sense weight =>
    cases h
    have hproper := proper_form hp (by simpa using hr.plain)
    have hmatrix : (if s.objectives == 0 then s.matrix.setSense sense else s.matrix).Assembled n columns labels := by
      split_ifs
      · exact ⟨hs.sound.setSense sense, hs.columns, hs.labels⟩
      · exact hs
    refine ⟨hmatrix.sound.addObjective fun k hk => ?_, hmatrix.columns, ?_⟩
    · simp only [List.map_map, List.mem_map] at hk
      obtain ⟨a, ha, rfl⟩ := hk
      exact hproper.range a (List.mem_of_mem_filter ha)
    · rw [SegmentKind.rowLabels, List.append_nil]
      exact hmatrix.labels

lemma acceptAll (hs : s.matrix.Assembled n columns labels) {rs : List (Record α)} {kind : SegmentKind α}
    (hrs : ∀ r ∈ rs, r.Fits n kind) (h : rs.foldlM RowSink.sink.accept s = .ok s') :
    s'.matrix.Assembled n columns (labels ++ kind.rowLabels (rs.map (·.1))) := by
  induction rs generalizing s labels with
  | nil =>
    cases h
    cases kind <;> simpa [SegmentKind.rowLabels] using hs
  | cons r rs ih =>
    obtain ⟨hr, hrs⟩ := List.forall_mem_cons.mp hrs
    rw [List.foldlM_cons, bind_eq_ok] at h
    obtain ⟨s₁, hs₁, h⟩ := h
    have hall := ih (hs.accept hr hs₁) hrs h
    cases kind <;> simpa [SegmentKind.rowLabels] using hall

lemma acceptJobs (hs : s.matrix.Assembled n columns labels) {p : Program} {jobs : List (Job α)}
    {rss : List (List (Record α))} (hyields : List.Forall₂ (Job.Yields p n) jobs rss)
    (h : rss.flatten.foldlM RowSink.sink.accept s = .ok s') :
    s'.matrix.Assembled n columns (labels ++ jobs.flatMap p.labelsOf) := by
  induction hyields generalizing s labels with
  | nil =>
    cases h
    simpa using hs
  | cons hj _ ih =>
    rw [List.flatten_cons, List.foldlM_append, bind_eq_ok] at h
    obtain ⟨s₁, hs₁, h⟩ := h
    have hall := hs.acceptAll hj.fits hs₁
    rw [hj.segments] at hall
    rw [List.flatMap_cons, ← List.append_assoc]
    exact ih hall h

end Matrix.Assembled

namespace Build

variable {b : Build α} {m : Matrix α}

lemma columns_sound (h : b.columns = .ok m) (P : Int → Prop) : m.Sound P := by
  refine foldlM_invariant (fun m v m' hm h => ?_) (Matrix.sound_empty P) h
  obtain ⟨⟨i, m₁⟩, hadd, h⟩ := bind_eq_ok.1 h
  cases h
  exact (hm.addColumn hadd).bound _ _ _

lemma matrix_assembled (hindexed : b.program.Indexed) (hsorted : b.program.offsets.Sorted) (h : b.matrix = .ok m) :
    m.Assembled b.program.offsets.entries.length (b.program.offsets.entries.map b.column)
      (b.jobs.flatMap b.program.labelsOf) := by
  simp only [matrix, bind_eq_ok, pure_eq_ok, Except.ok.injEq] at h
  obtain ⟨m₀, hm₀, s, hs, rfl⟩ := h
  rw [orFault_eq_ok] at hm₀
  obtain ⟨rss, hyields, haccept, -⟩ := generateEach_records hindexed hs
  rw [hsorted.keys] at hyields
  have hstart : m₀.Assembled b.program.offsets.entries.length (b.program.offsets.entries.map b.column) [] := by
    refine ⟨columns_sound hm₀ _, ?_, ?_⟩ <;> rw [columns_eq hm₀]
    rfl
  exact hstart.acceptJobs hyields haccept

end Build

lemma Problem.matrix_eq_ok {p : Problem} {criteria : Dict (List String)} {m : Matrix α}
    (h : p.matrix criteria = .ok m) :
    ∃ b : Build α, p.prepare criteria = .ok b ∧ b.matrix = .ok m := bind_eq_ok.1 h

lemma Problem.matrix_assembled {p : Problem} {criteria : Dict (List String)} {b : Build α} {m : Matrix α}
    (hb : p.prepare criteria = .ok b) (hm : b.matrix = .ok m) :
    m.Assembled b.program.offsets.entries.length (b.program.offsets.entries.map b.column)
      (b.jobs.flatMap b.program.labelsOf) := by
  obtain ⟨t, -, ht⟩ := Problem.prepare_eq_ok hb
  obtain ⟨hindexed, hsorted, -⟩ := Build.prepare_eq_ok ht
  exact Build.matrix_assembled hindexed hsorted hm

end LandUse
