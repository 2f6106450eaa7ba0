import LandUse.Settings.Check
import LandUse.Proofs.Outcome

namespace LandUse.Settings

open Outcome

variable {exists? : String → Bool} {s : Settings}

def MatchesOptions (s : Settings) (c : CriterionConstraint) : Prop :=
  if c.isTotal then c.fields.length = s.options.length
  else (s.optionIndex? c.option).isSome ∧ c.fields.length = 1

structure Accepted (exists? : String → Bool) (s : Settings) : Prop where
  options : s.options ≠ []
  criteria : ∀ c ∈ s.criteria, c.2.length = s.options.length ∧ ∀ field ∈ c.2, exists? field
  evaluations : ∀ c ∈ s.evalFields, c.2.length = s.options.length
  area : s.hasClassicModel ∨ s.arealConstraints ≠ [] → s.areaField ≠ "" ∧ exists? s.areaField
  objectives : ∀ o ∈ s.objectives, s.criteria.contains o.criterion
  objectiveConstraints : ∀ c ∈ s.objectiveConstraints, s.criteria.contains c.criterion
  arealConstraints : ∀ c ∈ s.arealConstraints,
    (s.optionIndex? c.option).isSome ∧ (c.zone ≠ "" → exists? c.zone)
  criteriaConstraints : ∀ c ∈ s.criteriaConstraints,
    s.MatchesOptions c ∧ (∀ field ∈ c.fields, exists? field) ∧ (c.zone ≠ "" → exists? c.zone)
  dimensions : ∀ d ∈ s.dimensions, exists? d.2
  parameters : ∀ q ∈ s.parameters,
    (q.2.literal.isSome ∨ q.2.columns.length = 1 ∨ q.2.columns.length = s.options.length) ∧
      ∀ column ∈ q.2.columns, exists? column
  decisions : ∀ v ∈ s.decisions, v.dimensions ≠ [] ∧
    (∀ d ∈ v.dimensions, s.dimensions.contains d ∨ d = optionsDimension) ∧ ¬ v.upper < v.lower
  constraints : ∀ c ∈ s.constraints, s.equations.contains c.equation
  equationObjectives : ∀ o ∈ s.equationObjectives, s.equations.contains o.equation

@[simp] lemma require_eq_ok {ok : Bool} {cause : CheckCause} : require ok cause = .ok () ↔ ok = true := by
  unfold require
  split <;> simp_all

@[simp] lemma checkColumn_eq_ok {place name : String} :
    checkColumn exists? place name = .ok () ↔ exists? name = true := require_eq_ok

@[simp] lemma then_eq_ok {x y : Except CheckCause Unit} : (do x; y) = .ok () ↔ x = .ok () ∧ y = .ok () := by
  cases x <;> simp

@[simp] lemma checkZone_eq_ok {place zone : String} :
    checkZone exists? place zone = .ok () ↔ (zone ≠ "" → exists? zone = true) := by
  unfold checkZone
  split <;> simp_all

lemma checkArea_eq_ok : checkArea exists? s = .ok () ↔
    (s.hasClassicModel ∨ s.arealConstraints ≠ [] → s.areaField ≠ "" ∧ exists? s.areaField) := by
  unfold checkArea
  split <;> simp_all

lemma checkCriteriaConstraints_eq_ok : checkCriteriaConstraints exists? s = .ok () ↔ ∀ c ∈ s.criteriaConstraints,
    s.MatchesOptions c ∧ (∀ field ∈ c.fields, exists? field) ∧ (c.zone ≠ "" → exists? c.zone) := by
  rw [checkCriteriaConstraints, forM_eq_ok]
  refine forall₂_congr fun c _ => ?_
  unfold MatchesOptions
  split <;> simp only [then_eq_ok, forM_eq_ok, require_eq_ok, checkColumn_eq_ok, checkZone_eq_ok, beq_iff_eq, and_assoc]

lemma checkVariables_eq_ok : checkVariables s = .ok () ↔ ∀ v ∈ s.decisions, v.dimensions ≠ [] ∧
    (∀ d ∈ v.dimensions, s.dimensions.contains d ∨ d = optionsDimension) ∧ ¬ v.upper < v.lower := by
  rw [checkVariables, forM_eq_ok]
  refine forall₂_congr fun v _ => ?_
  simp only [then_eq_ok, forM_eq_ok, require_eq_ok, Bool.or_eq_true, beq_iff_eq, Bool.not_eq_eq_eq_not, Bool.not_true,
    List.isEmpty_eq_false_iff, decide_eq_false_iff_not]

theorem check_eq_ok : s.check exists? = .ok () ↔ s.Accepted exists? := by
  simp only [check, checkCriteria, checkEvaluations, checkObjectives, checkArealConstraints, checkDimensions,
    checkParameters, checkEquations, then_eq_ok, forM_eq_ok, require_eq_ok, checkColumn_eq_ok, checkZone_eq_ok,
    checkArea_eq_ok, checkCriteriaConstraints_eq_ok, checkVariables_eq_ok, beq_iff_eq, Bool.or_eq_true, or_assoc,
    Bool.not_eq_eq_eq_not, Bool.not_true, List.isEmpty_eq_false_iff]
  constructor
  · rintro ⟨h₁, h₂, h₃, h₄, ⟨h₅, h₆⟩, h₇, h₈, h₉, h₁₀, h₁₁, h₁₂, h₁₃⟩
    exact ⟨h₁, h₂, h₃, h₄, h₅, h₆, h₇, h₈, h₉, h₁₀, h₁₁, h₁₂, h₁₃⟩
  · rintro ⟨h₁, h₂, h₃, h₄, h₅, h₆, h₇, h₈, h₉, h₁₀, h₁₁, h₁₂, h₁₃⟩
    exact ⟨h₁, h₂, h₃, h₄, ⟨h₅, h₆⟩, h₇, h₈, h₉, h₁₀, h₁₁, h₁₂, h₁₃⟩

end LandUse.Settings
