import LandUse.Proofs.Expansion.Supply
import LandUse.Proofs.Problem.Parts
import LandUse.Proofs.Settings.Accepted

namespace LandUse

open Outcome

namespace Model

variable {α : Type} {exists? : String → Bool} {s : Settings}

def Grants (exists? : String → Bool) (s : Settings) (column : String) : Prop :=
  exists? column ∨ isClassic s ∧ column = s.areaField

structure Stocked (exists? : String → Bool) (s : Settings) (m : Model α) : Prop where
  settings : m.Over s
  parameters : ∀ name q, m.settings.parameters.get? name = some q → ∀ c ∈ q.columns, Grants exists? s c

lemma mem_of_get?_sets {qs : List Parameter} {d : Dict Parameter} {name : String} {q : Parameter}
    (h : (qs.foldl (fun d q => d.set q.name q) d).get? name = some q) : q ∈ qs ∨ d.get? name = some q := by
  induction qs generalizing d with
  | nil => exact .inr h
  | cons r qs ih =>
    rcases ih h with h | h
    · exact .inl (List.mem_cons_of_mem _ h)
    · rw [Dict.get?_set] at h
      split at h
      · cases h
        exact .inl List.mem_cons_self
      · exact .inr h

variable {m : Model α} {config : Config} {criteria : Dict (List String)}

lemma grants_declared (hs : s.Accepted exists?) (hcs : criteria.Perm s.criteria) (hclassic : isClassic s)
    {q : Parameter} (hq : q ∈ declaredParameters s criteria) : ∀ c ∈ q.columns, Grants exists? s c := by
  intro c hc
  rcases List.mem_cons.mp hq with rfl | hq
  · exact .inr ⟨hclassic, List.mem_singleton.mp hc⟩
  · obtain ⟨⟨criterion, fields⟩, hmem, rfl⟩ := List.mem_map.mp hq
    exact .inl ((hs.criteria _ (hcs.mem_iff.1 hmem)).2 c hc)

variable [Scalar α]

lemma grants_zone (s : Settings) {zone : String} (hzone : zone ≠ "" → exists? zone) {name : String} :
    ∀ q ∈ (if zone.isEmpty then [] else [zoneParameter s name zone]), ∀ c ∈ q.columns, Grants exists? s c := by
  intro q hq c hc
  split at hq
  · cases hq
  · rename_i hne
    cases List.mem_singleton.mp hq
    obtain ⟨_, -, rfl⟩ := List.mem_map.mp hc
    exact .inl (hzone (by simpa using hne))

omit [Scalar α] in
lemma grants_areal (hs : s.Accepted exists?) (config : Config) {c : ArealConstraint} (hc : c ∈ s.arealConstraints)
    (i : Nat)
    (rhs : α) : ∀ q ∈ (arealPart config s i c rhs).parameters, ∀ column ∈ q.columns, Grants exists? s column :=
  grants_zone s (hs.arealConstraints c hc).2

lemma grants_criterion (hs : s.Accepted exists?) (config : Config) {c : CriterionConstraint}
    (hc : c ∈ s.criteriaConstraints)
    (i : Nat) : ∀ q ∈ (criterionPart (α := α) config s i c).parameters, ∀ column ∈ q.columns,
    Grants exists? s column := by
  intro q hq
  obtain ⟨-, hfields, hzone⟩ := hs.criteriaConstraints c hc
  rcases List.mem_cons.mp hq with rfl | hq
  · exact fun column hcolumn => .inl (hfields column hcolumn)
  · exact grants_zone s hzone q hq

lemma grants_part (hs : s.Accepted exists?) {bounds : List α} {part : Part α}
    (hpart : part ∈ allParts config s bounds) :
    ∀ q ∈ part.parameters, ∀ c ∈ q.columns, Grants exists? s c := by
  rcases List.mem_append.mp hpart with hpart | hpart
  · have hnone : part.parameters = [] := by
      rcases List.mem_append.mp hpart with hpart | hpart
      · obtain ⟨_, -, rfl⟩ := List.mem_map.mp hpart
        rfl
      · obtain ⟨first, rest, rfl⟩ := mem_heads hpart
        rfl
    rw [hnone]
    exact List.forall_mem_nil _
  · rcases mem_constraintParts hpart with ⟨c, -, i, rfl⟩ | ⟨c, hc, i, rhs, rfl⟩ | ⟨c, hc, i, rfl⟩ | rfl
    · exact List.forall_mem_nil _
    · exact grants_areal hs config hc i rhs
    · exact grants_criterion hs config hc i
    · exact List.forall_mem_nil _

theorem make_stocked {convert : AreaConverter α} (hs : s.Accepted exists?) (hcs : criteria.Perm s.criteria)
    (h : make config convert s criteria = .ok m) : m.Stocked exists? s := by
  obtain ⟨bounds, -, -, hsettings⟩ := make_eq h
  refine ⟨⟨_, _, _, hsettings⟩, fun name q hq c hc => ?_⟩
  rw [hsettings] at hq
  rcases mem_of_get?_sets hq with hq | hq
  · rcases List.mem_append.mp hq with hq | hq
    · rw [List.mem_ite_nil_right] at hq
      exact grants_declared hs hcs hq.1 hq.2 c hc
    · obtain ⟨part, hpart, hq⟩ := List.mem_flatMap.mp hq
      exact grants_part hs hpart q hq c hc
  · exact .inl ((hs.parameters _ (Dict.mem_of_get? hq)).2 c hc)

lemma convert_kind {t : Table} {value : Float} {unit : AreaUnit} {option zone : String} {f : Failure}
    (h : Area.convert (α := α) config s t value unit option zone = .error f) : f.kind = .access := by
  have hrequire : ∀ (query : String) (x : Option α), (Area.require query x).map some = .error f → f.kind = .access := by
    intro query x hx
    cases x <;> cases hx
    rfl
  rcases bind_eq_error.mp h with h | ⟨_, -, h⟩
  · cases unit with
    | mapUnits => cases h
    | percentOfTotal => exact hrequire _ _ h
    | percentOfSelected => exact hrequire _ _ h
    | percentOfZone =>
      unfold Area.base at h
      dsimp only at h
      split at h <;> exact hrequire _ _ h
  · cases h

lemma make_kind {t : Table} {f : Failure} (h : make (α := α) config (Area.convert config s t) s criteria = .error f) :
    f.kind = .settings ∨ f.kind = .access := by
  have hdeclare : ∀ {m : Model α}, m.declare config criteria = .error f → f.kind = .settings := by
    intro m h
    unfold declare at h
    dsimp only at h
    split at h
    · cases h
      rfl
    · split at h <;> cases h
      rfl
  have hobjective : ∀ {m : Model α}, m.addObjective config = .error f → f.kind = .settings := by
    intro m h
    unfold addObjective at h
    dsimp only at h
    split at h
    · cases h
      rfl
    · split at h <;> cases h
  have hareal : ∀ {m : Model α}, s.arealConstraints.zipIdx.foldlM
      (fun m x => m.addArealConstraint config (Area.convert config s t) x.2 x.1) m = .error f → f.kind = .access := by
    intro m h
    obtain ⟨m', ⟨c, i⟩, -, h⟩ := exists_of_foldlM_error h
    unfold addArealConstraint at h
    dsimp only at h
    split at h <;> rcases bind_eq_error.mp h with h | ⟨_, -, h⟩
    · exact convert_kind h
    · cases h
    · exact convert_kind h
    · cases h
  have hrest : ∀ {m : Model α} {F G : Model α → Model α}, (do
      let m ← m.addObjective config
      let m ← s.arealConstraints.zipIdx.foldlM
        (fun (m : Model α) (x : ArealConstraint × Nat) => m.addArealConstraint config
          (Area.convert config s t) x.2 x.1) (F m)
      return G m) = .error f → f.kind = .settings ∨ f.kind = .access := by
    intro m F G h
    rcases bind_eq_error.mp h with h | ⟨m₁, -, h⟩
    · exact .inl (hobjective h)
    rcases bind_eq_error.mp h with h | ⟨m₂, -, h⟩
    · exact .inr (hareal h)
    · cases h
  unfold make at h
  dsimp only at h
  split at h
  · rcases bind_eq_error.mp h with h | ⟨m₁, -, h⟩
    · exact .inl (hdeclare h)
    · exact hrest h
  · exact hrest h

end Model

variable {α : Type} [Scalar α]

lemma RowSink.not_onTable_receive (s : RowSink α) (segment : Segment α) (code : List (Emission α)) (complete : Bool)
    (e : Fault) (h : (sink.receive s segment code complete).1 = .error e) : ¬ e.OnTable := by
  have hform : ∀ label is, form (α := α) label is = .error e → ¬ e.OnTable := by
    intro label is h
    unfold form at h
    split at h
    · cases h
      exact not_false
    · cases h
      exact not_onTable_of_kind nofun
    · cases h
    · cases h
      exact not_onTable_of_kind nofun
  have hadd : ∀ is, s.add segment is = .error e → ¬ e.OnTable := by
    intro is h
    unfold add at h
    rcases bind_eq_error.mp h with h | ⟨form, -, h⟩
    · exact hform _ _ h
    dsimp only at h
    split at h
    · refine Program.not_onTable_orFault (fun f hf => ?_) (fun relation h => ?_) h
      · unfold Comparison.rowRelation at hf
        split at hf <;> cases hf
        exact not_onTable_of_kind nofun
      · refine Program.not_onTable_orFault (fun f hf => ?_) (fun _ h => ?_) h
        · unfold Matrix.addRow at hf
          split at hf <;> cases hf
          rw [String.append_assoc, String.append_assoc]
          exact not_onTable_start (by decide) (by decide) _ _ _
        · cases h
    · cases h
  unfold sink at h
  dsimp only at h
  split at h
  · split at h <;> cases h
    exact hadd _ ‹_›
  · cases h

namespace Build

omit [Scalar α] in
lemma not_onTable_columns {b : Build α} {f : Failure} (h : b.columns = .error f) : ¬ f.OnTable := by
  obtain ⟨m, v, -, h⟩ := exists_of_foldlM_error h
  rcases bind_eq_error.mp h with h | ⟨_, -, h⟩
  · unfold Matrix.addColumn at h
    split at h <;> cases h
    exact not_onTable_start (by decide) (by decide) _ _ _
  · cases h

lemma noColumn_of_generateEach {σ : Type} {p : Program} (hp : p.Supplied) (hi : p.Indexed) {sink : Sink α σ}
    (hsink : ∀ state segment code complete e, (sink.receive state segment code complete).1 = .error e → ¬ e.OnTable)
    {jobs : List (Job α)} {g : Generation σ} {e : Fault} (h : generateEach p sink jobs g = .error e) (he : e.OnTable) :
    ∃ column, p.settings.Reads column ∧ p.catalog.table.hasColumn column = false ∧
      e = .failure (.noColumn p.catalog.table column) := by
  induction jobs generalizing g with
  | nil => cases h
  | cons j js ih =>
    unfold generateEach at h
    split at h
    · exact ih h
    · rename_i e' g' hgenerate
      cases h
      exact Program.noColumn_of_generate hsink hp hi (congrArg Prod.fst hgenerate) he

lemma not_onTable_prepare {config : Config} {s : Settings} {t : Table} {criteria : Dict (List String)} {f : Failure}
    (h : prepare (α := α) config s t criteria = .error f) : ¬ f.OnTable := by
  unfold prepare at h
  split at h
  · cases h
    exact not_onTable_of_kind nofun
  rcases bind_eq_error.mp h with h | ⟨m, -, h⟩
  · rcases Model.make_kind h with hkind | hkind <;> exact not_onTable_of_kind (hkind ▸ nofun)
  rcases bind_eq_error.mp h with h | ⟨_, -, h⟩
  · obtain ⟨name, -, h⟩ := exists_of_forM_error h
    rcases bind_eq_error.mp h with h | ⟨_, -, h⟩
    · exact not_onTable_of_parse h
    · cases h
  rcases bind_eq_error.mp h with h | ⟨_, -, h⟩
  · exact Program.not_onTable_make h
  · cases h

lemma noColumn_of_output {config : Config} {s : Settings} {t : Table} {criteria : Dict (List String)} {b : Build α}
    (hb : prepare config s t criteria = .ok b) {e : Fault} (h : b.matrix = .error e ∨ b.document = .error e)
    (he : e.OnTable) : ∃ column,
      b.program.settings.Reads column ∧ t.hasColumn column = false ∧ e = .failure (.noColumn t column) := by
  obtain ⟨model, -, -, hprogram⟩ := prepare_model hb
  obtain ⟨-, hcatalog⟩ := Program.make_catalog hprogram
  have hp := Program.make_supplied hprogram
  have hi := Program.make_indexed hprogram
  have htable : b.program.catalog.table = t := by rw [hcatalog]
  rw [← htable]
  rcases h with h | h
  · rcases bind_eq_error.mp h with h | ⟨m, -, h⟩
    · obtain ⟨f, hf, rfl⟩ := orFault_eq_error.mp h
      exact absurd he (not_onTable_columns hf)
    rcases bind_eq_error.mp h with h | ⟨_, -, h⟩
    · exact noColumn_of_generateEach hp hi RowSink.not_onTable_receive h he
    · cases h
  · have hsink : ∀ (state : Nl.BodySink α) segment code complete e,
        (Nl.BodySink.sink.receive state segment code complete).1 = .error e → ¬ e.OnTable :=
        fun _ _ _ _ _ h => nomatch h
    rcases bind_eq_error.mp h with h | ⟨_, -, h⟩
    · exact noColumn_of_generateEach hp hi hsink h he
    · cases h

end Build

/-- How a problem tells that a column is missing. -/
inductive Failure.Lacks (s : Settings) (t : Table) (column : String) : Failure → Prop
  | rows : Lacks s t column (.noColumn t column)
  | dimension {name : String} : (name, column) ∈ s.dimensions → Lacks s t column
      (.dimension "" ("dimension " ++ name ++ ": table " ++ t.name ++ " has no column " ++ column))
  | area {c : ArealConstraint} {condition : String} : c ∈ s.arealConstraints →
      column = s.areaField ∨ c.zone ≠ "" ∧ column = c.zone → Lacks s t column
      (.access ("query failed: " ++ Area.queryText s t condition) none)

lemma Failure.noColumn_injective {t : Table} {a b : String} (h : noColumn t a = noColumn t b) : a = b := by
  have hmessage : "table " ++ t.name ++ " has no column " ++ a = "table " ++ t.name ++ " has no column " ++ b :=
    congrArg Failure.message h
  exact String.append_right_inj _ |>.mp hmessage

namespace Problem

variable {p : Problem} {criteria : Dict (List String)} {t : Table}

lemma noColumn_of_output (htable : p.table = some t) {f : Failure}
    (hfail : (p.matrix criteria : Except Fault (Matrix α)) = .error (.failure f) ∨
      (p.document criteria : Except Fault (Nl.Document α)) = .error (.failure f)) (hf : f.OnTable) :
    ∃ (m : Model α) (column : String),
      Model.make p.config (Area.convert p.config p.settings t) p.settings criteria = .ok m ∧
      m.settings.Reads column ∧ t.hasColumn column = false ∧ f = .noColumn t column := by
  have hprepare : (p.prepare criteria : Except Fault (Build α)) =
      orFault (Build.prepare p.config p.settings t criteria) := by
    rw [prepare, htable]
  cases hb : Build.prepare (α := α) p.config p.settings t criteria with
  | error f' =>
    rw [hb] at hprepare
    rw [matrix, document, hprepare] at hfail
    rcases hfail with hfail | hfail <;> cases hfail <;> exact absurd hf (Build.not_onTable_prepare hb)
  | ok b =>
    rw [hb] at hprepare
    rw [matrix, document, hprepare] at hfail
    obtain ⟨model, hmodel, -, hprogram⟩ := Build.prepare_model hb
    obtain ⟨column, hreads, hmissing, hf⟩ := Build.noColumn_of_output hb hfail hf
    rw [(Program.make_catalog hprogram).1] at hreads
    exact ⟨model, column, hmodel, hreads, hmissing, Fault.failure.inj hf⟩

/-- Accepted settings lack no column but that of the areas. -/
theorem only_area_missing (hcs : criteria.Perm p.settings.criteria) (htable : p.table = some t)
    (hcheck : p.settings.check t.hasColumn = .ok ()) {f : Failure}
    (hfail : (p.matrix criteria : Except Fault (Matrix α)) = .error (.failure f) ∨
      (p.document criteria : Except Fault (Nl.Document α)) = .error (.failure f))
    {column : String} (hmissing : t.hasColumn column = false) (hlacks : f.Lacks p.settings t column) :
    column = p.settings.areaField ∧ p.settings.objectives = [] ∧ p.settings.arealConstraints = [] ∧
      (p.settings.criteriaConstraints ≠ [] ∨ p.settings.objectiveConstraints ≠ []) := by
  have hs := Settings.check_eq_ok.mp hcheck
  have hthere : ∀ {c : String}, t.hasColumn c = true → column ≠ c := by
    rintro c hc rfl
    rw [hc] at hmissing
    cases hmissing
  cases hlacks with
  | dimension hmem => exact absurd rfl (hthere (hs.dimensions _ hmem))
  | area hc hcolumn =>
    rcases hcolumn with h | ⟨hzone, h⟩
    · exact absurd h (hthere (hs.area (.inr (List.ne_nil_of_mem hc))).2)
    · exact absurd h (hthere ((hs.arealConstraints _ hc).2 hzone))
  | rows =>
    obtain ⟨m, column', hmodel, hreads, -, hf⟩ := noColumn_of_output htable hfail ⟨rfl, _, by
      rw [Failure.noColumn, Failure.lookup, String.append_assoc, String.append_assoc]⟩
    obtain rfl := Failure.noColumn_injective hf
    have hm := Model.make_stocked hs hcs hmodel
    rcases hreads with ⟨name, q, hq, hmem⟩ | ⟨dim, hdim⟩
    · rcases hm.parameters name q hq column hmem with h | ⟨hclassic, rfl⟩
      · exact absurd rfl (hthere h)
      · have hnone : ¬ (p.settings.hasClassicModel ∨ p.settings.arealConstraints ≠ []) := fun h =>
          absurd rfl (hthere (hs.area h).2)
        simp only [Model.isClassic, Settings.hasClassicModel, Bool.or_eq_true, Bool.not_eq_true',
          not_or, ne_eq, not_not,
          List.isEmpty_eq_false_iff] at hclassic hnone
        obtain ⟨hobjectives, hareal⟩ := hnone
        refine ⟨rfl, hobjectives, hareal, ?_⟩
        tauto
    · obtain ⟨_, _, _, hover⟩ := hm.settings
      rw [hover] at hdim
      exact absurd rfl (hthere (hs.dimensions _ (Dict.mem_of_get? hdim)))

def revenueBound : Settings where
  options := ["A", "B"]
  areaField := "area"
  unitDimension := "SDU"
  dimensions := [("SDU", "nm_id")]
  criteriaConstraints := [⟨"CRI_CONS_1", "REVENUE", "total", "", ["rev_A", "rev_B"], .le, 5⟩]

def revenueTable : Except Failure Table := Table.create "land" [⟨"nm_id", .int⟩, ⟨"rev_A", .double⟩, ⟨"rev_B", .double⟩]
  [[some (.int 1), some (.double 2), some (.double 3)]]

/-- The check asks for no areas, but the model does. -/
theorem area_of_revenue_missing : ∃ t, revenueTable = .ok t ∧ revenueBound.check t.hasColumn = .ok () ∧
    (matrix ⟨{}, revenueBound, some t⟩ : Except Fault (Matrix Float)) = .error (.failure (.noColumn t "area")) ∧
    t.hasColumn "area" = false ∧ revenueBound.objectives = [] ∧ revenueBound.arealConstraints = [] := by
  have hrun : revenueTable.toOption.any (fun t => (revenueBound.check t.hasColumn).toOption.any fun _ =>
      (failure? (matrix ⟨{}, revenueBound, some t⟩ : Except Fault (Matrix Float))).any fun f =>
        !t.hasColumn "area" && decide (f.kind = .lookup) && f.equation == "" && f.offset == -1 &&
          f.message == "table " ++ t.name ++ " has no column " ++ "area" && f.inner == none) = true := by decide +kernel
  obtain ⟨t, ht, hrun⟩ := exists_of_any hrun
  obtain ⟨_, hcheck, hrun⟩ := exists_of_any hrun
  obtain ⟨f, hf, hrun⟩ := (Option.any_eq_true _ _).1 hrun
  simp only [Bool.and_eq_true, Bool.not_eq_true', decide_eq_true_eq, beq_iff_eq] at hrun
  obtain ⟨⟨⟨⟨⟨hmissing, hkind⟩, hequation⟩, hoffset⟩, hmessage⟩, hinner⟩ := hrun
  obtain rfl : f = .noColumn t "area" := by
    obtain ⟨kind, equation, offset, message, inner⟩ := f
    subst hkind hequation hoffset hmessage hinner
    rfl
  have hfail := failure?_eq_some.1 hf
  obtain ⟨-, hobjectives, hareal, -⟩ := only_area_missing (p := ⟨{}, revenueBound, some t⟩) (.refl _) rfl hcheck
    (.inl hfail) hmissing .rows
  exact ⟨t, ht, hcheck, hfail, hmissing, hobjectives, hareal⟩

end Problem

end LandUse
