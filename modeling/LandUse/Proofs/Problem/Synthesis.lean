import LandUse.Proofs.Equation.Sources
import LandUse.Proofs.Problem.Weights

namespace LandUse

namespace Model

variable {α : Type} [Scalar α]

section Classic

variable (config : Config) (s : Settings)

def headParts : List (Part α) :=
  match criterionTerms s with
  | [] => []
  | first :: rest => [headPart first rest]

def parts (bounds : List α) : List (Part α) :=
  s.objectives.zipIdx.map (fun (o, i) => goalPart config s i o) ++ headParts s ++
    (if s.interactive then s.objectiveConstraints.zipIdx.map fun (c, i) => limitPart config s i c else []) ++
    (s.arealConstraints.zip bounds).zipIdx.map (fun ((c, rhs), i) => arealPart config s i c rhs) ++
    s.criteriaConstraints.zipIdx.map (fun (c, i) => criterionPart config s i c) ++ [featurePart config s]

def allParameters (bounds : List α) : List Parameter :=
  declaredParameters s ++ (parts config s bounds).flatMap (·.parameters)

variable {config s} {convert : AreaConverter α} {m : Model α}

lemma allParts_eq (hclassic : isClassic s = true) (hobjectives : s.equationObjectives = []) (bounds : List α) :
    allParts config s bounds = parts config s bounds := by
  have hheads : heads (criterionTerms s ++ equationTerms s) = (headParts s : List (Part α)) := by
    rw [equationTerms, hobjectives, List.map_nil, List.append_nil, headParts]
    cases criterionTerms s <;> rfl
  rw [allParts, constraintParts, if_pos hclassic, hheads, parts]
  simp only [List.append_assoc]

theorem make_parts (h : make config convert s = .ok m) (hclassic : isClassic s = true) (hequations : s.equations = [])
    (hparameters : s.parameters = []) (hdecisions : s.decisions = []) (hobjectives : s.equationObjectives = [])
    (hconstraints : s.constraints = []) :
    ∃ bounds, List.Forall₂ (fun c rhs => convert c.value c.unit c.option c.zone = .ok rhs) s.arealConstraints bounds ∧
      m.jobs = (parts config s bounds).flatMap Part.jobs ∧
      m.settings = { s with
        decisions := decisions config s
        equations := Dict.ofList ((parts config s bounds).map fun q => (q.equation, q.text))
        parameters := Dict.ofList ((allParameters config s bounds).map fun q => (q.name, q)) } := by
  obtain ⟨bounds, hbounds, hjobs, hsettings⟩ := make_eq h
  rw [allParts_eq hclassic hobjectives] at hjobs hsettings
  refine ⟨bounds, hbounds, ?_, ?_⟩
  · rw [hjobs, hconstraints, List.map_nil, List.append_nil]
  · rw [hsettings, if_pos hclassic, if_pos hclassic, hequations, hparameters, hdecisions, List.nil_append]
    simp only [Dict.ofList, List.foldl_map, allParameters]

end Classic

section Names

lemma append_ne_append {a b : String} (h : ¬ a.toList <+: b.toList) (h' : ¬ b.toList <+: a.toList) (s t : String) :
    a ++ s ≠ b ++ t := by
  intro heq
  have hlist : a.toList ++ s.toList = b.toList ++ t.toList := by
    rw [← String.toList_append, heq, String.toList_append]
  rcases List.prefix_or_prefix_of_prefix (List.prefix_append a.toList s.toList)
    (hlist ▸ List.prefix_append b.toList t.toList) with
    hab | hba
  · exact h hab
  · exact h' hba

lemma toString_injective {i j : Nat} (h : toString i = toString j) : i = j := Nat.repr_injective h

def Part.Differ (q q' : Part α) : Prop := q.role ≠ q'.role ∨ q.index ≠ q'.index

def Role.rank : Role → Nat
  | goal => 0
  | head => 1
  | limit => 2
  | areal => 3
  | criterion => 4
  | feature => 5

structure Apart (k : Nat) (qs : List (Part α)) : Prop where
  differ : qs.Pairwise Part.Differ
  below : ∀ q ∈ qs, q.role.rank < k

omit [Scalar α] in
lemma Apart.append {k : Nat} {qs block : List (Part α)} (h : Apart k qs) (hblock : block.Pairwise Part.Differ)
    (hrank : ∀ q ∈ block, q.role.rank = k) : Apart (k + 1) (qs ++ block) := by
  refine ⟨List.pairwise_append.2 ⟨h.differ, hblock, fun a ha b hb => .inl fun hrole => ?_⟩,
    List.forall_mem_append.2 ⟨fun q hq => Nat.lt_succ_of_lt (h.below q hq),
      fun q hq => Nat.lt_succ_of_le (hrank q hq).le⟩⟩
  have hlt := h.below a ha
  rw [hrole, hrank b hb] at hlt
  exact Nat.lt_irrefl k hlt

omit [Scalar α] in
lemma pairwise_family {β : Type} (l : List β) {f : β × Nat → Part α} (hf : ∀ b, (f b).index = b.2) :
    (l.zipIdx.map f).Pairwise Part.Differ := by
  have hindices : (l.zipIdx.map Prod.snd).Nodup := by
    rw [List.zipIdx_map_snd]
    exact List.nodup_range'
  refine List.pairwise_map.2 ((List.pairwise_map.1 hindices).imp fun {a b} hne => .inr ?_)
  rwa [hf, hf]

variable (config : Config) (s : Settings) (bounds : List α)

lemma pairwise_parts : (parts config s bounds).Pairwise Part.Differ := by
  have hrank : ∀ {β : Type} {l : List β} {f : β → Part α} {k : Nat}, (∀ b, (f b).role.rank = k) → ∀ q ∈ l.map f,
    q.role.rank = k :=
    fun hf => List.forall_mem_map.2 fun b _ => hf b
  have hgoals : Apart 1 (s.objectives.zipIdx.map fun (o, i) => (goalPart config s i o : Part α)) :=
    ⟨pairwise_family _ fun _ => rfl, List.forall_mem_map.2 fun _ _ => Nat.one_pos⟩
  have hheads : (headParts s : List (Part α)).Pairwise Part.Differ ∧ ∀ q ∈ (headParts s : List (Part α)),
    q.role.rank = 1 := by
    unfold headParts
    split
    · exact ⟨.nil, List.forall_mem_nil _⟩
    · exact ⟨List.pairwise_singleton _ _, List.forall_mem_singleton.2 rfl⟩
  have hlimits : (if s.interactive then s.objectiveConstraints.zipIdx.map fun (c, i) =>
    (limitPart config s i c : Part α) else []).Pairwise
      Part.Differ ∧ ∀ q ∈ (if s.interactive then s.objectiveConstraints.zipIdx.map fun (c, i) =>
        (limitPart config s i c : Part α) else []),
        q.role.rank = 2 := by
    split
    · exact ⟨pairwise_family _ fun _ => rfl, hrank fun _ => rfl⟩
    · exact ⟨.nil, List.forall_mem_nil _⟩
  have hall := ((((hgoals.append hheads.1 hheads.2).append hlimits.1 hlimits.2).append
    (pairwise_family (s.arealConstraints.zip bounds) (f := fun ((c, rhs), i) => arealPart config s i c rhs)
      fun _ => rfl) (hrank fun _ => rfl)).append
    (pairwise_family s.criteriaConstraints (f := fun (c, i) => criterionPart config s i c) fun _ => rfl)
    (hrank fun _ => rfl)).append
    (List.pairwise_singleton Part.Differ (featurePart config s)) (List.forall_mem_singleton.2 rfl)
  exact hall.differ

def Role.stem : Role → String
  | goal => "__obj_"
  | head => "__objective"
  | limit => "__objcons_"
  | areal => "__areal_"
  | criterion => "__cricons_"
  | feature => "__feature"

def Role.isNumbered : Role → Bool
  | head | feature => false
  | _ => true

lemma Role.equation_eq (r : Role) (i : Nat) : r.equation i = r.stem ++ if r.isNumbered then toString i else "" := by
  cases r <;> simp [equation, stem, isNumbered]

lemma Role.stem_ne {r r' : Role} (h : r ≠ r') : ¬ r.stem.toList <+: r'.stem.toList := by
  revert h
  cases r <;> cases r' <;> decide

lemma Role.stems_ne {r r' : Role} {a b : String} (ha : a ∈ r.stems) (hb : b ∈ r'.stems) :
    (a ≠ b → ¬ a.toList <+: b.toList) ∧ (a = b → r = r') := by
  have hall : ∀ a ∈ r.stems, ∀ b ∈ r'.stems, (a ≠ b → ¬ a.toList <+: b.toList) ∧ (a = b → r = r') := by
    cases r <;> cases r' <;> decide
  exact hall a ha b hb

structure Part.Named (q : Part α) : Prop where
  index : q.role.isNumbered = false → q.index = 0
  names : ∀ p ∈ q.parameters, ∃ stem ∈ q.role.stems, p.name = stem ++ toString q.index
  nodup : (q.parameters.map (·.name)).Nodup

omit [Scalar α] in
lemma Part.Named.equation_ne {q q' : Part α} (h : q.Named) (h' : q'.Named) (hd : q.Differ q') :
    q.equation ≠ q'.equation := by
  unfold equation
  rw [Role.equation_eq, Role.equation_eq]
  by_cases hrole : q.role = q'.role
  · have hindex : q.index ≠ q'.index := hd.resolve_left fun hne => hne hrole
    rw [hrole]
    by_cases hn : q'.role.isNumbered = true
    · rw [if_pos hn, if_pos hn]
      exact fun heq => hindex (toString_injective ((String.append_right_inj _).1 heq))
    · rw [Bool.not_eq_true] at hn
      exact absurd ((h.index (hrole ▸ hn)).trans (h'.index hn).symm) hindex
  · exact append_ne_append (Role.stem_ne hrole) (Role.stem_ne (Ne.symm hrole)) _ _

omit [Scalar α] in
lemma Part.Named.parameter_ne {q q' : Part α} (h : q.Named) (h' : q'.Named) (hd : q.Differ q') {p p' : Parameter}
    (hp : p ∈ q.parameters) (hp' : p' ∈ q'.parameters) : p.name ≠ p'.name := by
  obtain ⟨stem, hstem, hname⟩ := h.names p hp
  obtain ⟨stem', hstem', hname'⟩ := h'.names p' hp'
  rw [hname, hname']
  by_cases heq : stem = stem'
  · subst heq
    have hindex := hd.resolve_left fun hne => hne ((Role.stems_ne hstem hstem').2 rfl)
    exact fun heq => hindex (toString_injective ((String.append_right_inj _).1 heq))
  · exact append_ne_append ((Role.stems_ne hstem hstem').1 heq) ((Role.stems_ne hstem' hstem).1 (Ne.symm heq)) _ _

lemma named_parts : ∀ q ∈ parts config s bounds, q.Named := by
  have hgoal : ∀ i o, (goalPart config s i o : Part α).Named :=
    fun i o => ⟨nofun, List.forall_mem_nil _, List.nodup_nil⟩
  have hhead : ∀ q ∈ (headParts s : List (Part α)), q.Named := by
    unfold headParts
    split
    · exact List.forall_mem_nil _
    · exact List.forall_mem_singleton.2 ⟨fun _ => rfl, List.forall_mem_nil _, List.nodup_nil⟩
  have hlimit : ∀ i c, (limitPart config s i c : Part α).Named :=
    fun i c => ⟨nofun, List.forall_mem_nil _, List.nodup_nil⟩
  have hareal : ∀ i c rhs, (arealPart config s i c rhs : Part α).Named := by
    intro i c rhs
    unfold arealPart
    refine ⟨nofun, ?_, ?_⟩ <;> dsimp only <;> split
    · exact List.forall_mem_nil _
    · exact List.forall_mem_singleton.2 ⟨_, List.mem_singleton_self _, rfl⟩
    · exact List.nodup_nil
    · exact List.nodup_singleton _
  have hcriterion : ∀ i c, (criterionPart config s i c : Part α).Named := by
    intro i c
    unfold criterionPart
    refine ⟨nofun, ?_, ?_⟩ <;> dsimp only <;> split
    · exact List.forall_mem_singleton.2 ⟨_, List.mem_cons_self, rfl⟩
    · exact List.forall_mem_cons.2 ⟨⟨_, List.mem_cons_self, rfl⟩,
        List.forall_mem_singleton.2 ⟨"__zone_cricons_", List.mem_cons_of_mem _ (List.mem_singleton_self _), rfl⟩⟩
    · exact List.nodup_singleton _
    · refine List.nodup_cons.2 ⟨fun hmem => ?_, List.nodup_singleton _⟩
      exact append_ne_append (by decide) (by decide) _ _ (List.mem_singleton.1 hmem)
  have hfeature : (featurePart config s : Part α).Named := ⟨fun _ => rfl, List.forall_mem_nil _, List.nodup_nil⟩
  unfold parts
  simp only [List.forall_mem_append, List.forall_mem_map, List.forall_mem_singleton]
  refine ⟨⟨⟨⟨⟨fun b _ => hgoal _ _, hhead⟩, ?_⟩, fun b _ => hareal _ _ _⟩, fun b _ => hcriterion _ _⟩, hfeature⟩
  split
  · exact List.forall_mem_map.2 fun b _ => hlimit _ _
  · exact List.forall_mem_nil _

lemma nodup_equations : ((parts config s bounds).map Part.equation).Nodup :=
  List.pairwise_map.2 ((pairwise_parts config s bounds).imp_of_mem fun ha hb hd =>
    (named_parts config s bounds _ ha).equation_ne (named_parts config s bounds _ hb) hd)

def parameterStems : List String := ["AREA", "__cri_", "__zone_areal_", "__crifields_", "__zone_cricons_"]

lemma Role.stems_subset (r : Role) : r.stems ⊆ parameterStems := by cases r <;> decide

lemma stem_of_parameter {q : Parameter} (hq : q ∈ allParameters config s bounds) :
    ∃ stem ∈ parameterStems, ∃ rest, q.name = stem ++ rest := by
  rcases List.mem_append.1 hq with hq | hq
  · rcases List.mem_cons.1 hq with rfl | hq
    · exact ⟨"AREA", by decide, "", show areaParameter = "AREA" ++ "" by decide⟩
    · obtain ⟨c, -, rfl⟩ := List.mem_map.1 hq
      exact ⟨"__cri_", by decide, _, rfl⟩
  · obtain ⟨part, hpart, hq⟩ := List.mem_flatMap.1 hq
    obtain ⟨stem, hstem, hname⟩ := (named_parts config s bounds part hpart).names q hq
    exact ⟨stem, part.role.stems_subset hstem, _, hname⟩

lemma nodup_parameters (hcriteria : (s.criteria.map fun c => criterionParameter c.1).Nodup) :
    ((allParameters config s bounds).map (·.name)).Nodup := by
  have hstems : ∀ (r : Role), ∀ stem ∈ r.stems, ¬ stem.toList <+: areaParameter.toList ∧
    ¬ stem.toList <+: "__cri_".toList ∧
      ¬ "__cri_".toList <+: stem.toList := by
    intro r
    cases r <;> decide
  unfold allParameters
  rw [List.map_append, List.nodup_append]
  refine ⟨List.nodup_cons.2 ⟨fun hmem => ?_, ?_⟩,
    List.pairwise_map.2 (List.pairwise_flatMap.2 ⟨fun q hq => ?_, ?_⟩), ?_⟩
  · obtain ⟨q, hq, hname⟩ := List.mem_map.1 hmem
    obtain ⟨c, -, rfl⟩ := List.mem_map.1 hq
    exact append_ne (b := areaParameter) (by decide) _ hname
  · rw [List.map_map]
    exact hcriteria
  · exact List.pairwise_map.1 (named_parts config s bounds q hq).nodup
  · exact (pairwise_parts config s bounds).imp_of_mem fun ha hb hd p hp p' hp' =>
      (named_parts config s bounds _ ha).parameter_ne (named_parts config s bounds _ hb) hd hp hp'
  · intro name hname name' hname'
    obtain ⟨q', hq', rfl⟩ := List.mem_map.1 hname'
    obtain ⟨part, hpart, hq'⟩ := List.mem_flatMap.1 hq'
    obtain ⟨stem, hstem, hq'⟩ := (named_parts config s bounds part hpart).names q' hq'
    obtain ⟨harea, hcri, hcri'⟩ := hstems part.role stem hstem
    rw [hq']
    rcases List.mem_cons.1 hname with rfl | hname
    · exact (append_ne harea _).symm
    · obtain ⟨q, hq, rfl⟩ := List.mem_map.1 hname
      obtain ⟨c, -, rfl⟩ := List.mem_map.1 hq
      exact append_ne_append hcri' hcri _ _

end Names

end Model

end LandUse
