import LandUse.Proofs.Problem.Parts

namespace LandUse

variable {α : Type} [Scalar α]

def SegmentKind.IsConstraint (kind : SegmentKind α) : Prop := ∃ op rhs, kind = .constraint op rhs

def SegmentKind.IsUnweighted (kind : SegmentKind α) : Prop := ∃ sense, kind = .objective sense Scalar.one

namespace Model

def Composed (m : Model α) : Prop :=
  (∀ j ∈ m.jobs, j.segment.kind.IsConstraint) ∨
    ∃ first rest, m.jobs = first :: rest ∧ first.segment.kind.IsUnweighted ∧ ∀ j ∈ rest, j.segment.kind.IsConstraint

variable {m : Model α} {config : Config} {convert : AreaConverter α} {s : Settings} {criteria : Dict (List String)}

lemma isConstraint_of_mem {bounds : List α} {q : Part α} (hq : q ∈ constraintParts config s bounds) :
    ∀ j ∈ q.jobs, j.segment.kind.IsConstraint := by
  refine List.forall_mem_map.2 ?_
  rcases mem_constraintParts hq with ⟨c, -, i, rfl⟩ | ⟨c, -, i, rhs, rfl⟩ | ⟨c, -, i, rfl⟩ | rfl
  · exact List.forall_mem_singleton.2 ⟨_, _, rfl⟩
  · exact List.forall_mem_singleton.2 ⟨_, _, rfl⟩
  · exact List.forall_mem_singleton.2 ⟨_, _, rfl⟩
  · exact List.forall_mem_cons.2 ⟨⟨_, _, rfl⟩, List.forall_mem_singleton.2 ⟨_, _, rfl⟩⟩

lemma make_jobs (h : make config convert s criteria = .ok m) :
    ∃ rest, m.jobs = (heads (criterionTerms s ++ equationTerms s)).flatMap Part.jobs ++ rest ∧
      ∀ j ∈ rest, j.segment.kind.IsConstraint := by
  obtain ⟨bounds, -, hjobs, -⟩ := make_eq h
  have hgoals : (s.objectives.zipIdx.map fun x => goalPart config s x.2 x.1).flatMap (Part.jobs (α := α)) = [] := by
    rw [List.flatMap_map]
    exact List.flatMap_eq_nil_iff.2 fun _ _ => rfl
  refine ⟨(constraintParts config s bounds).flatMap Part.jobs ++ s.constraints.map constraintJob, ?_,
    List.forall_mem_append.2 ⟨fun j hj => ?_, List.forall_mem_map.2 fun c _ => ⟨_, _, rfl⟩⟩⟩
  · rw [hjobs, allParts, List.flatMap_append, List.flatMap_append, hgoals, List.nil_append, List.append_assoc]
  · obtain ⟨q, hq, hj⟩ := List.mem_flatMap.1 hj
    exact isConstraint_of_mem hq j hj

theorem make_composed (h : make config convert s criteria = .ok m) : m.Composed := by
  obtain ⟨rest, hjobs, hrest⟩ := make_jobs h
  cases hterms : criterionTerms s ++ equationTerms s with
  | nil =>
    rw [hterms, heads, List.flatMap_nil, List.nil_append] at hjobs
    exact .inl (hjobs ▸ hrest)
  | cons first others =>
    rw [hterms] at hjobs
    exact .inr ⟨_, rest, hjobs, ⟨first.sense, rfl⟩, hrest⟩

end Model

end LandUse
