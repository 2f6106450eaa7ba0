import LandUse.Problem.Model
import LandUse.Proofs.Outcome

/-! The land-use model as a list of parts: equations with their parameters and their rows or objective. -/

namespace LandUse

open Outcome

namespace Model

inductive Role where
  | goal | head | limit | areal | criterion | feature
deriving DecidableEq

namespace Role

def equation (i : Nat) : Role → String
  | goal => "__obj_" ++ toString i
  | head => "__objective"
  | limit => "__objcons_" ++ toString i
  | areal => "__areal_" ++ toString i
  | criterion => "__cricons_" ++ toString i
  | feature => "__feature"

def stems : Role → List String
  | areal => ["__zone_areal_"]
  | criterion => ["__crifields_", "__zone_cricons_"]
  | _ => []

end Role

structure Part (α : Type) where
  role : Role
  index : Nat := 0
  parameters : List Parameter := []
  text : String
  segments : List (Segment α) := []

variable {α : Type} [Scalar α]

def Part.equation (q : Part α) : String := q.role.equation q.index

def Part.jobs (q : Part α) : List (Job α) := q.segments.map (⟨q.equation, ·⟩)

def extend (m : Model α) (q : Part α) : Model α where
  settings := { m.settings with
    parameters := q.parameters.foldl (fun d p => d.set p.name p) m.settings.parameters
    equations := m.settings.equations.set q.equation q.text }
  jobs := m.jobs ++ q.jobs

section Parts

variable (config : Config) (s : Settings)

def goalPart (i : Nat) (o : Objective) : Part α where
  role := .goal
  index := i
  text := criterionSum config s o.criterion

def combinedText (first : ObjectiveTerm) (rest : List ObjectiveTerm) : String :=
  " + ".intercalate ((first :: rest).map (termText first.sense))

def headPart (first : ObjectiveTerm) (rest : List ObjectiveTerm) : Part α where
  role := .head
  text := combinedText first rest
  segments := [{ label := "objective", kind := .objective first.sense Scalar.one }]

def heads : List ObjectiveTerm → List (Part α)
  | [] => []
  | first :: rest => [headPart first rest]

def limitPart (i : Nat) (c : ObjectiveConstraint) : Part α where
  role := .limit
  index := i
  text := criterionSum config s c.criterion
  segments := [{ label := c.label, kind := .constraint c.op (Scalar.ofFloat c.value) }]

def zoneParameter (name field : String) : Parameter := ⟨name, s.options.map fun _ => field, none, 1, s.options⟩

def zonedText (factor zone indicator option : String) : String :=
  if zone.isEmpty then factor else factor ++ " * " ++ indicator ++ "[" ++ option ++ "]"

def arealText (i : Nat) (c : ArealConstraint) : String :=
  let option := optionText s c.option
  let factor := if s.kind = .binary then areaParameter else "1"
  loopText s.unitDimension
    (zonedText factor c.zone ("__zone_areal_" ++ toString i) option ++ " * " ++ arealVariable config s option)

def arealPart (i : Nat) (c : ArealConstraint) (rhs : α) : Part α where
  role := .areal
  index := i
  parameters := if c.zone.isEmpty then [] else [zoneParameter s ("__zone_areal_" ++ toString i) c.zone]
  text := arealText config s i c
  segments := [{ label := if c.zone.isEmpty then c.label else c.label ++ "_in", kind := .constraint c.op rhs }]

def criterionText (i : Nat) (c : CriterionConstraint) : String :=
  let option := if c.isTotal then optionsDimension else optionText s c.option
  let fields := "__crifields_" ++ toString i
  let factor := if c.isTotal then fields ++ "[OPTIONS]" else fields
  let factor := if s.kind = .binary then areaParameter ++ " * " ++ factor else factor
  let product := zonedText factor c.zone ("__zone_cricons_" ++ toString i) option ++ " * " ++
    arealVariable config s option
  loopText s.unitDimension (if c.isTotal then loopText optionsDimension product else product)

def criterionPart (i : Nat) (c : CriterionConstraint) : Part α where
  role := .criterion
  index := i
  parameters := columnParameter ("__crifields_" ++ toString i) c.fields ::
    if c.zone.isEmpty then [] else [zoneParameter s ("__zone_cricons_" ++ toString i) c.zone]
  text := criterionText config s i c
  segments := [{ label := c.label, kind := .constraint c.op (Scalar.ofFloat c.rhs) }]

def featureText : String :=
  let area := if s.kind = .int then "floor(" ++ areaParameter ++ ")" else areaParameter
  let x := arealVariable config s optionsDimension
  loopText optionsDimension (if s.kind = .binary then area ++ " * " ++ x else x) ++ " - " ++ area ++ " * " ++
    config.binaryVariable ++ "[" ++ s.unitDimension ++ "]"

def featurePart : Part α where
  role := .feature
  text := featureText config s
  segments := [{ label := "Feature_%sa", kind := .constraint .ge Scalar.zero },
    { label := "Feature_%sb", kind := .constraint .le Scalar.zero }]

def constraintParts (bounds : List α) : List (Part α) :=
  (if s.interactive then s.objectiveConstraints.zipIdx.map fun (c, i) => limitPart config s i c else []) ++
    (s.arealConstraints.zip bounds).zipIdx.map (fun ((c, rhs), i) => arealPart config s i c rhs) ++
    s.criteriaConstraints.zipIdx.map (fun (c, i) => criterionPart config s i c) ++
    if isClassic s then [featurePart config s] else []

def allParts (bounds : List α) : List (Part α) :=
  s.objectives.zipIdx.map (fun (o, i) => goalPart config s i o) ++ heads (criterionTerms s ++ equationTerms s) ++
    constraintParts config s bounds

def declaredParameters (criteria : Dict (List String) := s.criteria) : List Parameter :=
  columnParameter areaParameter [s.areaField] ::
    criteria.map fun (criterion, fields) => columnParameter (criterionParameter criterion) fields

def start (criteria : Dict (List String) := s.criteria) : Model α where
  settings := { s with
    decisions := s.decisions ++ if isClassic s then decisions config s else []
    parameters :=
      (if isClassic s then declaredParameters s criteria else []).foldl (fun d q => d.set q.name q) s.parameters }

def constraintJob (c : Constraint) : Job α :=
  ⟨c.equation, { label := c.name, kind := .constraint c.op (Scalar.ofFloat c.rhs) }⟩

variable {config s}

lemma mem_heads {ts : List ObjectiveTerm} {q : Part α} (h : q ∈ heads ts) : ∃ first rest, q = headPart first rest := by
  cases ts with
  | nil => cases h
  | cons first rest => exact ⟨first, rest, List.mem_singleton.1 h⟩

lemma mem_constraintParts {bounds : List α} {q : Part α} (h : q ∈ constraintParts config s bounds) :
    (∃ c ∈ s.objectiveConstraints, ∃ i, q = limitPart config s i c) ∨
      (∃ c ∈ s.arealConstraints, ∃ i rhs, q = arealPart config s i c rhs) ∨
      (∃ c ∈ s.criteriaConstraints, ∃ i, q = criterionPart config s i c) ∨ q = featurePart config s := by
  rcases List.mem_append.1 h with h | h
  · rcases List.mem_append.1 h with h | h
    · rcases List.mem_append.1 h with h | h
      · rw [List.mem_ite_nil_right] at h
        obtain ⟨⟨c, i⟩, hc, rfl⟩ := List.mem_map.1 h.2
        exact .inl ⟨c, List.fst_mem_of_mem_zipIdx hc, i, rfl⟩
      · obtain ⟨⟨⟨c, rhs⟩, i⟩, hc, rfl⟩ := List.mem_map.1 h
        exact .inr (.inl ⟨c, (List.of_mem_zip (List.fst_mem_of_mem_zipIdx hc)).1, i, rhs, rfl⟩)
    · obtain ⟨⟨c, i⟩, hc, rfl⟩ := List.mem_map.1 h
      exact .inr (.inr (.inl ⟨c, List.fst_mem_of_mem_zipIdx hc, i, rfl⟩))
  · rw [List.mem_ite_nil_right] at h
    exact .inr (.inr (.inr (List.mem_singleton.1 h.2)))

end Parts

def Over (s : Settings) (m : Model α) : Prop :=
  ∃ decisions equations parameters,
    m.settings = { s with decisions := decisions, equations := equations, parameters := parameters }

section Extending

variable {config : Config} {convert : AreaConverter α} {s : Settings} {criteria : Dict (List String)} {m m' : Model α}

omit [Scalar α] in
lemma Over.extend (h : m.Over s) (q : Part α) : (m.extend q).Over s := by
  obtain ⟨_, _, _, h⟩ := h
  exact ⟨_, _, _, by rw [Model.extend, h]⟩

omit [Scalar α] in
lemma Over.foldl_extend (h : m.Over s) (qs : List (Part α)) : (qs.foldl Model.extend m).Over s :=
  List.foldlRecOn qs Model.extend h fun _ h q _ => h.extend q

omit [Scalar α] in
lemma Over.foldl_eq {β : Type} {f : Model α → β → Model α} {part : β → Part α}
    (hf : ∀ m b, m.Over s → f m b = m.extend (part b)) (h : m.Over s) (bs : List β) :
    bs.foldl f m = (bs.map part).foldl Model.extend m := by
  induction bs generalizing m with
  | nil => rfl
  | cons b bs ih => rw [List.map_cons, List.foldl_cons, List.foldl_cons, hf m b h, ih (h.extend _)]

lemma addObjectiveConstraint_eq (h : m.Over s) (i : Nat) (c : ObjectiveConstraint) :
    m.addObjectiveConstraint config i c = m.extend (limitPart config s i c) := by
  obtain ⟨settings, jobs⟩ := m
  obtain ⟨_, _, _, rfl⟩ := h
  rfl

lemma addLimits_eq (h : m.Over s) :
    (if s.interactive then s.objectiveConstraints.zipIdx.foldl (fun m (c, i) => m.addObjectiveConstraint config i c) m
      else m) =
      (if s.interactive then s.objectiveConstraints.zipIdx.map fun (c, i) => limitPart config s i c else []).foldl
      extend m := by
  split
  · exact h.foldl_eq (fun m b hm => addObjectiveConstraint_eq hm b.2 b.1) _
  · rfl

omit [Scalar α] in
lemma addArealConstraint_eq (h : m.Over s) {i : Nat} {c : ArealConstraint}
    (hadd : m.addArealConstraint config convert i c = .ok m') :
    ∃ rhs, convert c.value c.unit c.option c.zone = .ok rhs ∧ m' = m.extend (arealPart config s i c rhs) := by
  obtain ⟨settings, jobs⟩ := m
  obtain ⟨_, _, _, rfl⟩ := h
  unfold addArealConstraint at hadd
  dsimp only at hadd
  split at hadd
  case isTrue hzone =>
    rw [bind_eq_ok] at hadd
    obtain ⟨rhs, hrhs, hadd⟩ := hadd
    cases hadd
    refine ⟨rhs, hrhs, ?_⟩
    simp only [arealPart, arealText, zonedText, if_pos hzone]
    rfl
  case isFalse hzone =>
    rw [bind_eq_ok] at hadd
    obtain ⟨rhs, hrhs, hadd⟩ := hadd
    cases hadd
    refine ⟨rhs, hrhs, ?_⟩
    simp only [arealPart, arealText, zonedText, if_neg hzone]
    rfl

lemma addCriterionConstraint_eq (h : m.Over s) (i : Nat) (c : CriterionConstraint) :
    m.addCriterionConstraint config i c = m.extend (criterionPart config s i c) := by
  obtain ⟨settings, jobs⟩ := m
  obtain ⟨_, _, _, rfl⟩ := h
  unfold addCriterionConstraint
  dsimp only
  split
  case isTrue hzone =>
    simp only [criterionPart, criterionText, zonedText, if_pos hzone]
    rfl
  case isFalse hzone =>
    simp only [criterionPart, criterionText, zonedText, if_neg hzone]
    rfl

lemma addFeatures_eq (h : m.Over s) : m.addFeatures config = m.extend (featurePart config s) := by
  obtain ⟨settings, jobs⟩ := m
  obtain ⟨_, _, _, rfl⟩ := h
  unfold addFeatures extend
  simp only [addConstraint, addJob, List.append_assoc]
  rfl

omit [Scalar α] in
lemma foldlM_areal (h : m.Over s) {cs : List ArealConstraint} {n : Nat}
    (hadd : (cs.zipIdx n).foldlM (fun m (c, i) => m.addArealConstraint config convert i c) m = .ok m') :
    ∃ bounds, List.Forall₂ (fun c rhs => convert c.value c.unit c.option c.zone = .ok rhs) cs bounds ∧
      m' = (((cs.zip bounds).zipIdx n).map fun ((c, rhs), i) => arealPart config s i c rhs).foldl extend m := by
  induction cs generalizing m n with
  | nil =>
    cases hadd
    exact ⟨[], .nil, rfl⟩
  | cons c cs ih =>
    rw [List.zipIdx_cons, List.foldlM_cons, bind_eq_ok] at hadd
    obtain ⟨m₁, hfirst, hadd⟩ := hadd
    obtain ⟨rhs, hrhs, rfl⟩ := addArealConstraint_eq h hfirst
    obtain ⟨bounds, hbounds, rfl⟩ := ih (h.extend _) hadd
    exact ⟨rhs :: bounds, .cons hrhs hbounds, rfl⟩

omit [Scalar α] in
lemma setParameters_eq (qs : List Parameter) (m : Model α) : qs.foldl setParameter m =
    { m with settings := { m.settings with
      parameters := qs.foldl (fun d q => d.set q.name q) m.settings.parameters } } := by
  induction qs generalizing m with
  | nil => rfl
  | cons q qs ih =>
    rw [List.foldl_cons, ih]
    rfl

omit [Scalar α] in
lemma declare_eq (h : m.declare config criteria = .ok m') : m' = { m with settings := { m.settings with
    decisions := m.settings.decisions ++ decisions config m.settings
    parameters :=
      (declaredParameters m.settings criteria).foldl (fun d q => d.set q.name q) m.settings.parameters } } := by
  unfold declare at h
  dsimp only at h
  split at h
  · cases h
  · split at h
    · cases h
    · cases h
      rw [← List.foldl_map (f := fun c : String × List String => columnParameter (criterionParameter c.1) c.2)
        (g := setParameter), setParameters_eq]
      rfl

lemma addObjective_eq (hover : m.Over s) (h : m.addObjective config = .ok m') :
    m' = (s.objectives.zipIdx.map (fun (o, i) => goalPart config s i o) ++
      heads (criterionTerms s ++ equationTerms s)).foldl extend m := by
  have hgoal : ∀ (m : Model α) (b : Objective × Nat), m.Over s →
      m.setEquation ("__obj_" ++ toString b.2) (criterionSum config m.settings b.1.criterion) =
        m.extend (goalPart config s b.2 b.1) := by
    rintro ⟨settings, jobs⟩ b ⟨_, _, _, rfl⟩
    unfold setEquation extend Part.jobs
    simp only [goalPart, List.map_nil, List.append_nil]
    rfl
  have hobjectives : m.settings.objectives = s.objectives := by
    obtain ⟨_, _, _, hsettings⟩ := hover
    rw [hsettings]
  unfold addObjective at h
  dsimp only at h
  rw [hobjectives, hover.foldl_eq hgoal] at h
  rw [List.foldl_append]
  generalize hgoals : List.foldl extend m _ = m₁ at h ⊢
  obtain ⟨_, _, _, hsettings⟩ : m₁.Over s := hgoals ▸ hover.foldl_extend _
  have hterms : criterionTerms m₁.settings ++ equationTerms m₁.settings = criterionTerms s ++ equationTerms s := by
    rw [hsettings]
    rfl
  rw [hterms] at h
  split at h
  · cases h
  · cases hlist : criterionTerms s ++ equationTerms s with
    | nil =>
      rw [hlist] at h
      cases h
      rfl
    | cons first rest =>
      rw [hlist] at h
      cases h
      rfl

omit [Scalar α] in
lemma foldl_extend (qs : List (Part α)) (m : Model α) :
    qs.foldl extend m =
      { settings := { m.settings with
          equations := (qs.map fun q => (q.equation, q.text)).foldl (fun d (n, a) => d.set n a) m.settings.equations
          parameters := (qs.flatMap (·.parameters)).foldl (fun d q => d.set q.name q) m.settings.parameters }
        jobs := m.jobs ++ qs.flatMap Part.jobs } := by
  induction qs generalizing m with
  | nil =>
    rw [List.flatMap_nil, List.flatMap_nil, List.append_nil]
    rfl
  | cons q qs ih =>
    rw [List.foldl_cons, ih, List.flatMap_cons, List.flatMap_cons, List.foldl_append, ← List.append_assoc]
    rfl

omit [Scalar α] in
lemma declare_start (hclassic : isClassic s) (h : declare config criteria ⟨s, []⟩ = .ok m) :
    m = start config s criteria := by
  rw [declare_eq h, start, if_pos hclassic, if_pos hclassic]

lemma make_steps (h : make config convert s criteria = .ok m) :
    ∃ m₁ m₂, (start config s criteria).addObjective config = .ok m₁ ∧
    s.arealConstraints.zipIdx.foldlM (fun m (c, i) => m.addArealConstraint config convert i c)
      (if s.interactive then s.objectiveConstraints.zipIdx.foldl
        (fun m (c, i) => m.addObjectiveConstraint config i c) m₁
        else m₁) = .ok m₂ ∧
    m = s.constraints.foldl (fun m c => m.addConstraint c.equation c.name c.op (Scalar.ofFloat c.rhs))
      (let m := s.criteriaConstraints.zipIdx.foldl (fun m (c, i) => m.addCriterionConstraint config i c) m₂
        if isClassic s then m.addFeatures config else m) := by
  unfold make at h
  dsimp only at h
  split at h
  case isTrue hclassic =>
    simp only [bind_eq_ok, pure_eq_ok, Except.ok.injEq] at h
    obtain ⟨m₀, hdeclare, m₁, hobjective, m₂, hareal, rfl⟩ := h
    cases declare_start hclassic hdeclare
    exact ⟨m₁, m₂, hobjective, hareal, by rw [if_pos hclassic]⟩
  case isFalse hclassic =>
    simp only [bind_eq_ok, pure_eq_ok, Except.ok.injEq] at h
    obtain ⟨_, rfl, m₁, hobjective, m₂, hareal, rfl⟩ := h
    refine ⟨m₁, m₂, ?_, hareal, by rw [if_neg hclassic]⟩
    rw [start, if_neg hclassic, if_neg hclassic, List.append_nil, List.foldl_nil]
    exact hobjective

lemma addConstraints_eq (cs : List Constraint) (m : Model α) :
    cs.foldl (fun m c => m.addConstraint c.equation c.name c.op (Scalar.ofFloat c.rhs)) m =
      { m with jobs := m.jobs ++ cs.map constraintJob } := by
  induction cs generalizing m with
  | nil => rw [List.map_nil, List.append_nil, List.foldl_nil]
  | cons c cs ih =>
    rw [List.foldl_cons, ih, List.map_cons, List.append_cons]
    rfl

/-- All that is said about models follows from this. -/
theorem make_eq (h : make config convert s criteria = .ok m) :
    ∃ bounds, List.Forall₂ (fun c rhs => convert c.value c.unit c.option c.zone = .ok rhs) s.arealConstraints bounds ∧
      m.jobs = (allParts config s bounds).flatMap Part.jobs ++ s.constraints.map constraintJob ∧
      m.settings = { s with
        decisions := s.decisions ++ if isClassic s then decisions config s else []
        equations := ((allParts config s bounds).map fun q => (q.equation, q.text)).foldl
          (fun d (n, a) => d.set n a) s.equations
        parameters := ((if isClassic s then declaredParameters s criteria else []) ++
          (allParts config s bounds).flatMap (·.parameters)).foldl (fun d q => d.set q.name q) s.parameters } := by
  obtain ⟨m₁, m₂, hobjective, hareal, rfl⟩ := make_steps h
  have hover : (start config s criteria : Model α).Over s := ⟨_, _, _, rfl⟩
  have hobjective := addObjective_eq hover hobjective
  have hover₁ : m₁.Over s := hobjective ▸ hover.foldl_extend _
  rw [addLimits_eq hover₁] at hareal
  obtain ⟨bounds, hbounds, hareal⟩ := foldlM_areal (hover₁.foldl_extend _) hareal
  have hover₂ : m₂.Over s := hareal ▸ (hover₁.foldl_extend _).foldl_extend _
  have hall : (let m := s.criteriaConstraints.zipIdx.foldl (fun m (c, i) => m.addCriterionConstraint config i c) m₂
      if isClassic s then m.addFeatures config else m) = (allParts config s bounds).foldl extend
        (start config s criteria) := by
    rw [hover₂.foldl_eq fun m b hm => addCriterionConstraint_eq hm b.2 b.1]
    simp only [addFeatures_eq (hover₂.foldl_extend _), allParts, constraintParts, List.foldl_append,
      ← hareal, ← hobjective]
    split <;> rfl
  refine ⟨bounds, hbounds, ?_⟩
  rw [hall, addConstraints_eq, foldl_extend]
  exact ⟨rfl, by rw [List.foldl_append]; rfl⟩

end Extending

end Model

end LandUse
