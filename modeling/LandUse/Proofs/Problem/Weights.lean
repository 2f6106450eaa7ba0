import LandUse.Proofs.Linear.Independence
import LandUse.Proofs.Number.Signs
import LandUse.Proofs.Problem.Meanings

namespace LandUse

open Exact Outcome Direct Grammar

namespace Model

variable {α : Type} [Scalar α]

def writtenTerms (s : Settings) : List ObjectiveTerm :=
  s.objectives.zipIdx.map (fun (o, i) => ⟨"__obj_" ++ toString i, o.sense, o.weight⟩) ++
    s.equationObjectives.map fun o => ⟨o.equation, o.sense, o.weight⟩

def ObjectiveTerm.factor (o : ObjectiveTerm) : Float := if o.weight == 0 then 1 else o.weight

def ObjectiveTerm.effective (o : ObjectiveTerm) : ObjectiveTerm := { o with weight := o.factor }

lemma terms_eq {s : Settings} (h : s.interactive = false) :
    criterionTerms s ++ equationTerms s = (writtenTerms s).map ObjectiveTerm.effective := by
  have hweight : ∀ w : Float, (if !s.interactive && w != 0 then w else 1) = if w == 0 then 1 else w := by
    intro w
    rw [h]
    cases hw : w == 0 <;> simp [bne, hw]
  rw [writtenTerms, criterionTerms, equationTerms, List.map_append, List.map_map, List.map_map]
  simp only [hweight]
  rfl

structure Headed (m : Model α) (text : String) (sense : Sense) : Prop where
  text : m.settings.equations.get? "__objective" = some text
  jobs : ∃ rest, m.jobs = ⟨"__objective", { label := "objective", kind := .objective sense Scalar.one }⟩ :: rest ∧
    ∀ j ∈ rest, j.segment.kind.IsConstraint

lemma append_ne {a b : String} (h : ¬ a.toList <+: b.toList) (s : String) : a ++ s ≠ b := by
  rintro rfl
  rw [String.toList_append] at h
  exact h (List.prefix_append _ _)

variable {m : Model α} {config : Config} {convert : AreaConverter α} {s : Settings} {criteria : Dict (List String)}

lemma equation_ne_of_mem {bounds : List α} {q : Part α} (hq : q ∈ constraintParts config s bounds) :
    q.equation ≠ "__objective" := by
  rcases mem_constraintParts hq with ⟨c, -, i, rfl⟩ | ⟨c, -, i, rhs, rfl⟩ | ⟨c, -, i, rfl⟩ | rfl
  · exact append_ne (by decide) _
  · exact append_ne (by decide) _
  · exact append_ne (by decide) _
  · exact show "__feature" ≠ "__objective" by decide

theorem make_headed (h : make config convert s criteria = .ok m) {first : ObjectiveTerm} {rest : List ObjectiveTerm}
    (hterms : criterionTerms s ++ equationTerms s = first :: rest) :
    m.Headed (combinedText first rest) first.sense := by
  obtain ⟨others, hjobs, hothers⟩ := make_jobs h
  obtain ⟨bounds, -, -, hsettings⟩ := make_eq h
  rw [hterms] at hjobs
  refine ⟨?_, others, hjobs, hothers⟩
  have hname : "__objective" ∉ ((constraintParts config s bounds).map fun q => (q.equation, q.text)).map (·.1) := by
    rw [List.map_map]
    exact fun hmem => (List.mem_map.1 hmem).elim fun q hq => equation_ne_of_mem hq.1 hq.2
  rw [hsettings, allParts, hterms, List.map_append, List.foldl_append, Dict.get?_foldl_set hname, List.map_append,
    List.foldl_append]
  exact (Dict.get?_set _ _ _ _).trans (if_pos rfl)

def constantFormula (w : Float) : Formula :=
  if w < 0 then .binary .minus (.number (Number.ofDecimal false 0 0)) (.number w.abs) else .number w.abs

def ObjectiveTerm.aligned (t : ObjectiveTerm) (sense : Sense) : Float :=
  if t.sense == sense then t.weight else -t.weight

def termFormula (sense : Sense) (t : ObjectiveTerm) : Formula :=
  if t.aligned sense == 1 then .equation t.equation
  else .binary .times (constantFormula (t.aligned sense)) (.equation t.equation)

def combinedFormula (first : ObjectiveTerm) (rest : List ObjectiveTerm) : Formula :=
  (rest.map (termFormula first.sense)).foldl (.binary .plus) (termFormula first.sense first)

section Reading

variable {c : Parser.Context}

lemma expresses_constant {w : Float} (hw : w.isFinite = true) : Expresses c .prim (constantText w)
    (constantFormula w) := by
  obtain ⟨negative, m, q, hparts⟩ := Number.isFinite_iff.1 hw
  have hdigits : Expresses c .prim (Number.general w.abs) (.number w.abs) :=
    expresses_number (Number.spelled_general (Number.parts_abs hparts))
  unfold constantText constantFormula
  dsimp only
  split
  · have hzero : Expresses c .prim "0" (.number (Number.ofDecimal false 0 0)) := expresses_number (spelled_index 0)
    have htext : "(0 - " ++ Number.general w.abs ++ ")" = "(" ++ ("0" ++ " - " ++ Number.general w.abs) ++ ")" := by
      rw [show "(0 - " = "(" ++ ("0" ++ " - ") by decide]
      simp only [String.append_assoc]
    rw [htext]
    exact (((hzero.loosen (by decide)).minus (hdigits.loosen (by decide))).loosen (by decide)).group
  · exact hdigits

lemma isFinite_aligned {t : ObjectiveTerm} (h : t.weight.isFinite = true) (sense : Sense) :
    (t.aligned sense).isFinite = true := by
  unfold ObjectiveTerm.aligned
  split
  · exact h
  · exact isFinite_neg h

lemma expresses_term {t : ObjectiveTerm} (hw : t.weight.isFinite = true) (sense : Sense)
    (ht : Expresses c .prim t.equation (.equation t.equation)) : Expresses c .mul (termText sense t)
    (termFormula sense t) := by
  unfold termText termFormula
  change Expresses c .mul (if t.aligned sense == 1 then _ else constantText (t.aligned sense) ++ " * " ++ t.equation) _
  split
  · exact ht.loosen (by decide)
  · exact ((expresses_constant (isFinite_aligned hw sense)).loosen (by decide)).times (ht.loosen (by decide))

lemma intercalate_append (sep s t : String) (ts : List String) :
    sep.intercalate ((s ++ sep ++ t) :: ts) = s ++ sep ++ sep.intercalate (t :: ts) := by
  cases ts with
  | nil => rw [String.intercalate_singleton, String.intercalate_singleton]
  | cons u us => simp only [String.intercalate_cons_cons, String.append_assoc]

lemma expresses_sum {s : String} {f : Formula} (h : Expresses c .add s f) {ts : List String} {gs : List Formula}
    (hts : List.Forall₂ (Expresses c .mul) ts gs) :
    Expresses c .add (" + ".intercalate (s :: ts)) (gs.foldl (.binary .plus) f) := by
  induction hts generalizing s f with
  | nil =>
    rw [String.intercalate_singleton]
    exact h
  | @cons t g ts gs ht _ ih =>
    rw [String.intercalate_cons_cons, ← intercalate_append]
    exact ih (h.plus ht)

lemma expresses_combined {first : ObjectiveTerm} {rest : List ObjectiveTerm}
    (h : ∀ t ∈ first :: rest, t.weight.isFinite = true ∧ Expresses c .prim t.equation (.equation t.equation)) :
    Expresses c .rel (combinedText first rest) (combinedFormula first rest) := by
  obtain ⟨hfirst, hrest⟩ := List.forall_mem_cons.1 h
  refine (expresses_sum ((expresses_term hfirst.1 first.sense hfirst.2).loosen (by decide)) ?_).loosen (by decide)
  rw [List.forall₂_map_left_iff, List.forall₂_map_right_iff, List.forall₂_same]
  exact fun t ht => expresses_term (hrest t ht).1 first.sense (hrest t ht).2

end Reading

section Evaluating

variable {K : Type} [Field K] [LinearOrder K] [Functions K] {p : Program} {columns : List String}
  {x : List K} {frame : Frame}

lemma evaluates_constant {w : Float} (hw : w.isFinite = true) {v : K}
    (h : Evaluates p columns x frame (constantFormula w) v) : v = (rational w : K) := by
  have hzero : rational (Number.ofDecimal false 0 0) = 0 := by decide +kernel
  have hlt : w < 0 ↔ rational w < 0 := by
    rw [lt_iff_rational hw (by decide), rational_zero]
  unfold constantFormula at h
  split at h
  · rename_i hneg
    cases h with
    | binary hu hv happly =>
      cases hu
      cases hv
      cases happly
      change (rational _ : K) - (rational _ : K) = _
      rw [hzero, rational_abs hw, abs_of_neg (hlt.1 hneg), Rat.cast_neg, Rat.cast_zero, zero_sub, neg_neg]
  · rename_i hneg
    cases h
    change (rational _ : K) = _
    rw [rational_abs hw, abs_of_nonneg (not_lt.1 fun h => hneg (hlt.2 h))]

def ObjectiveTerm.share (K : Type) [Field K] (t : ObjectiveTerm) (sense : Sense) : K :=
  (if t.sense = sense then 1 else -1) * (rational t.weight : K)

omit [LinearOrder K] [Functions K] in
lemma rational_aligned {t : ObjectiveTerm} (hw : t.weight.isFinite = true) (sense : Sense) :
    (rational (t.aligned sense) : K) = t.share K sense := by
  unfold ObjectiveTerm.aligned ObjectiveTerm.share
  by_cases hs : t.sense = sense
  · rw [if_pos (beq_iff_eq.2 hs), if_pos hs, one_mul]
  · rw [if_neg (by simpa using hs), if_neg hs, rational_neg hw, Rat.cast_neg, neg_one_mul]

lemma evaluates_term {t : ObjectiveTerm} (hw : t.weight.isFinite = true) {v : K}
    (h : Evaluates p columns x frame (termFormula sense t) v) :
    ∃ u, Evaluates p columns x frame (.equation t.equation) u ∧ v = t.share K sense * u := by
  have haligned := isFinite_aligned hw sense
  rw [← rational_aligned hw]
  unfold termFormula at h
  split at h
  · rename_i hone
    rw [beq_iff_rational haligned (by decide), rational_one] at hone
    exact ⟨v, h, by rw [hone, Rat.cast_one, one_mul]⟩
  · cases h with
    | @binary _ _ _ _ u v' _ hu hv happly =>
      obtain rfl := evaluates_constant haligned hu
      cases happly
      exact ⟨v', hv, rfl⟩

lemma evaluates_sum {f : Formula} {gs : List Formula} {v : K}
    (h : Evaluates p columns x frame (gs.foldl (.binary .plus) f) v) :
    ∃ u us, Evaluates p columns x frame f u ∧ List.Forall₂ (Evaluates p columns x frame) gs us ∧ v = u + us.sum := by
  induction gs generalizing f with
  | nil => exact ⟨v, [], h, .nil, by rw [List.sum_nil, add_zero]⟩
  | cons g gs ih =>
    obtain ⟨u, us, hu, hus, rfl⟩ := ih h
    cases hu with
    | @binary _ _ _ _ a b _ ha hb happly =>
      cases happly
      refine ⟨a, b :: us, ha, .cons hb hus, ?_⟩
      rw [List.sum_cons, ← add_assoc]

abbrev Valued (p : Program) (columns : List String) (x : List K) (frame : Frame) : List ObjectiveTerm → List K → Prop :=
  List.Forall₂ fun t u => Evaluates p columns x frame (.equation t.equation) u

lemma evaluates_terms {ts : List ObjectiveTerm} (hw : ∀ t ∈ ts, t.weight.isFinite = true) {vs : List K}
    (h : List.Forall₂ (Evaluates p columns x frame) (ts.map (termFormula sense)) vs) :
    ∃ us, Valued p columns x frame ts us ∧ vs = List.zipWith (fun t u => t.share K sense * u) ts us := by
  induction ts generalizing vs with
  | nil =>
    cases h
    exact ⟨[], .nil, rfl⟩
  | cons t ts ih =>
    obtain ⟨ht, hts⟩ := List.forall_mem_cons.1 hw
    cases h with
    | cons hv hvs =>
      obtain ⟨u, hu, rfl⟩ := evaluates_term ht hv
      obtain ⟨us, hus, rfl⟩ := ih hts hvs
      exact ⟨u :: us, .cons hu hus, rfl⟩

lemma evaluates_combined {first : ObjectiveTerm} {rest : List ObjectiveTerm}
    (hw : ∀ t ∈ first :: rest, t.weight.isFinite = true) {v : K}
    (h : Evaluates p columns x frame (combinedFormula first rest) v) :
    ∃ us, Valued p columns x frame (first :: rest) us ∧
      v = (List.zipWith (fun t u => t.share K first.sense * u) (first :: rest) us).sum := by
  obtain ⟨u, us, hu, hus, rfl⟩ := evaluates_sum h
  obtain ⟨ws, hws, hvalues⟩ := evaluates_terms hw (List.Forall₂.cons hu hus)
  exact ⟨ws, hws, by rw [← hvalues, List.sum_cons]⟩

end Evaluating

lemma isFinite_factor {o : ObjectiveTerm} (h : o.weight.isFinite = true) : o.factor.isFinite = true := by
  unfold ObjectiveTerm.factor
  split
  · decide
  · exact h

end Model

open Model

lemma Program.readRows_selected {p : Program} {entry : IndexEntry} {rows : List Row} (h : p.readRows entry = .ok rows)
    (hcolumns : entry.columns ≠ []) :
    ∃ selected cs : List (List Cell), p.catalog.table.selected? p.catalog.condition = some selected ∧
      cs.Perm selected ∧ rows = cs.map (p.catalog.readColumns entry.columns) := by
  rw [readRows, if_neg (by simpa using hcolumns), bind_eq_ok] at h
  obtain ⟨order, -, h⟩ := h
  obtain ⟨selected, hselected, rfl⟩ := Table.select_eq_ok h
  exact ⟨selected, _, hselected, Table.sorted_perm _ _, rfl⟩

lemma contains_of_parseNamed {symbols : Symbols} {sources : Dict String} {name : String} {e : Expr}
    (h : parseNamed symbols sources name = .ok e) : sources.contains name = true := by
  obtain ⟨src, ts, p, hsrc, -⟩ := Grammar.parseNamed_eq_ok h
  rw [Dict.contains, hsrc]
  rfl

namespace Build

variable {K : Type} [Field K] [LinearOrder K] [Functions K] {b : Build K}

def objectiveJob (o : ObjectiveTerm) : Job K :=
  ⟨o.equation, { label := "objective", kind := .objective o.sense Scalar.one }⟩

def alone (b : Build K) (o : ObjectiveTerm) : Except Fault (Matrix K) := { b with jobs := [objectiveJob o] }.matrix

def selectedRows (b : Build K) : List (List Cell) :=
  (b.program.catalog.table.selected? b.program.catalog.condition).getD []

structure Refers (b : Build K) (name : String) : Prop where
  word : IsWord name = true
  notVariable : b.program.settings.findVariable name = none
  notParameter : b.program.settings.parameters.contains name = false
  notObjective : name ≠ "__objective"

omit [Field K] [LinearOrder K] [Functions K] in
lemma refers_iff {name : String} : b.Refers name ↔ IsWord name = true ∧
    (b.program.settings.findVariable name).isNone = true ∧
    b.program.settings.parameters.contains name = false ∧ name ≠ "__objective" := by
  rw [Option.isNone_iff_eq_none]
  exact ⟨fun ⟨h₁, h₂, h₃, h₄⟩ => ⟨h₁, h₂, h₃, h₄⟩, fun ⟨h₁, h₂, h₃, h₄⟩ => ⟨h₁, h₂, h₃, h₄⟩⟩

omit [Field K] [LinearOrder K] [Functions K] in
instance (name : String) : Decidable (b.Refers name) := decidable_of_iff' _ refers_iff

omit [Field K] [LinearOrder K] [Functions K] in
lemma similar_rows {entry entry' : IndexEntry} {rows rows' : List Row} (h : b.program.readRows entry = .ok rows)
    (h' : b.program.readRows entry' = .ok rows') (name : String) :
    Similar b.program entry.columns entry'.columns b.selectedRows [] ⟨name, [], rows⟩ ⟨name, [], rows'⟩ := by
  have hread : ∃ cs cs' : List (List Cell), cs.Perm cs' ∧ cs ⊆ b.selectedRows ∧
      (entry.columns ≠ [] → rows = cs.map (b.program.catalog.readColumns entry.columns)) ∧
      (entry'.columns ≠ [] → rows' = cs'.map (b.program.catalog.readColumns entry'.columns)) := by
    unfold selectedRows
    by_cases hc : entry.columns = [] <;> by_cases hc' : entry'.columns = []
    · exact ⟨[], [], .refl _, List.nil_subset _, fun hne => absurd hc hne, fun hne => absurd hc' hne⟩
    · obtain ⟨selected, cs, hs, hperm, hrows⟩ := Program.readRows_selected h' hc'
      rw [hs]
      exact ⟨cs, cs, .refl _, hperm.subset, fun hne => absurd hc hne, fun _ => hrows⟩
    · obtain ⟨selected, cs, hs, hperm, hrows⟩ := Program.readRows_selected h hc
      rw [hs]
      exact ⟨cs, cs, .refl _, hperm.subset, fun _ => hrows, fun hne => absurd hc' hne⟩
    · obtain ⟨selected, cs, hs, hperm, hrows⟩ := Program.readRows_selected h hc
      obtain ⟨selected', cs', hs', hperm', hrows'⟩ := Program.readRows_selected h' hc'
      obtain rfl := Option.some.inj (hs.symm.trans hs')
      rw [hs]
      exact ⟨cs, cs', hperm.trans hperm'.symm, hperm.subset, fun _ => hrows, fun _ => hrows'⟩
  obtain ⟨cs, cs', hperm, hsub, hrows, hrows'⟩ := hread
  exact ⟨.nil, cs, cs', hperm, hsub, List.forall_mem_nil _, hrows, hrows'⟩

lemma objectiveFrom_alone (hp : b.program.Indexed) {o : ObjectiveTerm} {m : Matrix K} (h : b.alone o = .ok m) :
    m.ObjectiveFrom b.program o.equation := by
  have hjobs : ({ b with jobs := [objectiveJob o] } : Build K).jobs = (some (objectiveJob o)).toList ++ [] := rfl
  have hunweighted : ∀ j ∈ some (objectiveJob o), (j : Job K).segment.kind.IsUnweighted := by
    rintro j ⟨⟩
    exact ⟨o.sense, rfl⟩
  obtain ⟨-, hobjective, -⟩ := matrix_means (b := { b with jobs := [objectiveJob o] }) hp h hjobs hunweighted
    (List.forall_mem_nil _)
  exact (hobjective _ rfl).1

lemma increase_alone (hp : b.program.Indexed) {o : ObjectiveTerm} {m : Matrix K} (h : b.alone o = .ok m)
    {entry : IndexEntry}
    {rows : List Row} (hrows : b.program.readRows entry = .ok rows) {name : String}
    (hsettled : b.program.Settled b.selectedRows [] (.equation o.equation)) {k : Nat}
    (hk : k < b.program.offsets.keys.length)
    {u v : K} (hu : Evaluates b.program entry.columns (List.replicate b.program.offsets.keys.length 0) ⟨name, [], rows⟩
      (.equation o.equation) u)
    (hv : Evaluates b.program entry.columns ((List.replicate b.program.offsets.keys.length 0).set k 1) ⟨name, [], rows⟩
      (.equation o.equation) v) : v - u = (m.objective.get? k).getD 0 := by
  obtain ⟨entry', rows', e, c, -, hrows', he, hmean⟩ := objectiveFrom_alone hp h
  have hvalue : ∀ (x : List K) (w : K), x.length = b.program.offsets.keys.length →
      Evaluates b.program entry.columns x ⟨name, [], rows⟩ (.equation o.equation) w →
      w = c + m.objective.value (coordinate x) := fun x w hx hw =>
    Similar.evaluates hw (similar_rows hrows hrows' name) hsettled (.equation he (hmean.evaluates x hx))
  rw [hvalue _ u List.length_replicate hu, hvalue _ v (by rw [List.length_set, List.length_replicate]) hv,
    Coeffs.value_zero, Coeffs.value_unit hmean.proper hk]
  ring

lemma increase_combined {n k : Nat} {columns : List String} {frame : Frame} {os : List ObjectiveTerm}
    {ms : List (Matrix K)}
    {us vs : List K} {sense : Sense}
    (hms : List.Forall₂ (fun (o : ObjectiveTerm) (m : Matrix K) => ∀ u v,
      Evaluates b.program columns (List.replicate n 0) frame (.equation o.equation) u →
      Evaluates b.program columns ((List.replicate n 0).set k 1) frame (.equation o.equation) v →
      v - u = (m.objective.get? k).getD 0) os ms)
    (hus : Valued b.program columns (List.replicate n 0) frame os us)
    (hvs : Valued b.program columns ((List.replicate n 0).set k 1) frame os vs) :
    (List.zipWith (fun o v => o.share K sense * v) os vs).sum -
      (List.zipWith (fun o u => o.share K sense * u) os us).sum =
      (List.zipWith (fun o m => o.share K sense * (m.objective.get? k).getD 0) os ms).sum := by
  induction hms generalizing us vs with
  | nil =>
    cases hus
    cases hvs
    exact sub_self _
  | cons hm _ ih =>
    cases hus with
    | cons hu hus =>
      cases hvs with
      | cons hv hvs =>
        simp only [List.zipWith_cons_cons, List.sum_cons]
        rw [← ih hus hvs, ← hm _ _ hu hv]
        ring

section Combining

variable {model : Model K} {first : ObjectiveTerm} {rest : List ObjectiveTerm}
  (hmodel : model.Headed (combinedText first rest) first.sense) (hp : b.program.Indexed)
  (hsettings : b.program.settings = model.settings) (hjobs : b.jobs = model.jobs) {m : Matrix K} (hm : b.matrix = .ok m)
  (hfinite : ∀ o ∈ first :: rest, o.weight.isFinite = true) (hnames : ∀ o ∈ first :: rest, b.Refers o.equation)
  (hsettled : ∀ o ∈ first :: rest, b.program.Settled b.selectedRows [] (.equation o.equation))

omit [Field K] [LinearOrder K] [Functions K] in
include hp hnames hsettled in
lemma expresses_objective {o : ObjectiveTerm} (ho : o ∈ first :: rest) :
    Expresses ⟨b.program.settings.symbols, "__objective", []⟩ .prim o.equation (.equation o.equation) := by
  obtain ⟨hword, hvariable, hparameter, hother⟩ := hnames o ho
  refine expresses_equation hword (congrArg (Option.map _) hvariable) hparameter ?_ hother
  cases hsettled o ho with
  | equation he _ => exact contains_of_parseNamed (hp.get?_trees.1 he).2

include hmodel hp hsettings hjobs hm hfinite hnames hsettled in
lemma objective_combined : m.columns = b.program.offsets.entries.map b.column ∧ m.sense = first.sense ∧
    ∃ entry rows e c, b.program.readRows entry = .ok rows ∧ e.formula = combinedFormula first rest ∧
      m.objective.Mean b.program entry.columns ⟨"__objective", [], rows⟩ e c := by
  obtain ⟨jobs, hmodelJobs, hconstraints⟩ := hmodel.jobs
  rw [hmodelJobs] at hjobs
  have hunweighted : ∀ j ∈ some (objectiveJob ⟨"__objective", first.sense, 1⟩),
    (j : Job K).segment.kind.IsUnweighted := by
    rintro j ⟨⟩
    exact ⟨first.sense, rfl⟩
  obtain ⟨hcolumns, hobjective, -⟩ := matrix_means hp hm hjobs hunweighted hconstraints
  obtain ⟨⟨entry, rows, e, c, -, hrows, he, hmean⟩, hkind⟩ := hobjective _ rfl
  refine ⟨hcolumns, (SegmentKind.objective.inj hkind).1.symm, entry, rows, e, c, hrows, ?_, hmean⟩
  obtain ⟨e', hparse', hformula⟩ := parse_of_expresses (expresses_combined fun o ho =>
    ⟨hfinite o ho, expresses_objective hp hnames hsettled ho⟩)
  have hparse : parseNamed b.program.settings.symbols b.program.settings.equations "__objective" = .ok e :=
    (hp.get?_trees.1 he).2
  rw [parseNamed, hsettings, hmodel.text] at hparse
  rw [hsettings] at hparse'
  simp only [hparse'] at hparse
  cases hparse
  exact hformula

include hmodel hp hsettings hjobs hm hfinite hnames hsettled in
lemma coefficient_combined (hsorted : b.program.offsets.Sorted) {ms : List (Matrix K)}
    (hms : List.Forall₂ (fun o m' => b.alone o = .ok m') (first :: rest) ms) {k : Nat} (hk : k < m.columns.length) :
    (m.objective.get? k).getD 0 =
      (List.zipWith (fun o m' => o.share K first.sense * (m'.objective.get? k).getD 0) (first :: rest) ms).sum := by
  obtain ⟨hcolumns, -, entry, rows, e, c, hrows, hformula, hmean⟩ :=
    objective_combined hmodel hp hsettings hjobs hm hfinite hnames hsettled
  rw [hcolumns, List.length_map, ← hsorted.keys] at hk
  have hvalue : ∀ x : List K, x.length = b.program.offsets.keys.length → ∃ us,
      Valued b.program entry.columns x ⟨"__objective", [], rows⟩ (first :: rest) us ∧
      c + m.objective.value (coordinate x) = (List.zipWith (fun o u => o.share K first.sense * u)
        (first :: rest) us).sum := by
    intro x hx
    have h := hmean.evaluates x hx
    rw [hformula] at h
    exact evaluates_combined hfinite h
  obtain ⟨us, hus, hu⟩ := hvalue (List.replicate b.program.offsets.keys.length 0) List.length_replicate
  obtain ⟨vs, hvs, hv⟩ := hvalue ((List.replicate b.program.offsets.keys.length 0).set k 1)
    (List.length_set.trans List.length_replicate)
  have halone := (List.forall₂_and_left _ _).2 ⟨hsettled, hms⟩
  rw [← increase_combined (halone.imp fun o m' h u v => increase_alone hp h.2 hrows h.1 hk) hus hvs, ← hu, ← hv,
    Coeffs.value_zero, Coeffs.value_unit hmean.proper hk]
  ring

end Combining

end Build

/-- Coefficients of the objective are sums of those of the single objectives, with the sign and the weight of each. -/
theorem Problem.objectives_weighted {K : Type} [Field K] [LinearOrder K] [Functions K] (p : Problem)
    {criteria : Dict (List String)} {b : Build K} (hb : p.prepare criteria = .ok b) {m : Matrix K}
    (hm : b.matrix = .ok m) (hsum : p.settings.interactive = false)
    {first : ObjectiveTerm} {rest : List ObjectiveTerm} (hterms : writtenTerms p.settings = first :: rest)
    (hfinite : ∀ o ∈ first :: rest, o.weight.isFinite = true) (hnames : ∀ o ∈ first :: rest, b.Refers o.equation)
    (hsettled : ∀ o ∈ first :: rest, b.program.Settled b.selectedRows [] (.equation o.equation))
    {ms : List (Matrix K)} (hms : List.Forall₂ (fun o m' => b.alone o = .ok m') (first :: rest) ms) :
    m.sense = first.sense ∧ ∀ k < m.columns.length, (m.objective.get? k).getD 0 =
      (List.zipWith (fun o m' => (if o.sense = first.sense then 1 else -1) * (rational o.factor : K) *
        (m'.objective.get? k).getD 0) (first :: rest) ms).sum := by
  obtain ⟨t, -, hprepare⟩ := Problem.prepare_eq_ok hb
  obtain ⟨model, hmodel, hjobs, hprogram⟩ := Build.prepare_model hprepare
  obtain ⟨hsettings, -⟩ := Program.make_catalog hprogram
  have hp := Program.make_indexed hprogram
  have heffective : criterionTerms p.settings ++ equationTerms p.settings =
      first.effective :: rest.map ObjectiveTerm.effective := by
    rw [terms_eq hsum, hterms, List.map_cons]
  have hall : ∀ {P : ObjectiveTerm → Prop}, (∀ o ∈ first :: rest, P o.effective) →
      ∀ o ∈ first.effective :: rest.map ObjectiveTerm.effective, P o := by
    intro P h
    rw [← List.map_cons]
    exact List.forall_mem_map.2 h
  have hheaded := make_headed hmodel heffective
  have hweights : ∀ o ∈ first.effective :: rest.map ObjectiveTerm.effective, o.weight.isFinite = true :=
    hall fun o ho => isFinite_factor (hfinite o ho)
  obtain ⟨-, hsense, -⟩ := Build.objective_combined hheaded hp hsettings hjobs hm hweights (hall hnames) (hall hsettled)
  refine ⟨hsense, fun k hk => ?_⟩
  have hms' : List.Forall₂ (fun o m' => b.alone o = .ok m') ((first :: rest).map ObjectiveTerm.effective) ms :=
    List.forall₂_map_left_iff.2 hms
  rw [Build.coefficient_combined hheaded hp hsettings hjobs hm hweights (hall hnames) (hall hsettled)
    (Program.make_sorted hprogram) hms' hk, ← List.map_cons, List.zipWith_map_left]
  rfl

def mixedGoals (weight : Float) : Problem where
  config := {}
  settings := {
    areaField := "area"
    unitDimension := "SDU"
    options := ["forest", "arable"]
    criteria := [("cost", ["c1", "c2"])]
    objectives := [⟨"cost", "cost", .minimize, 2⟩]
    dimensions := [("SDU", "nm_id")]
    parameters := [("price", ⟨"price", ["price"], none, 1, []⟩)]
    equations := [("gain", "sum\x7bSDU\x7d(price * X[SDU][arable]) + 4")]
    equationObjectives := [⟨"gain", "gain", .maximize, weight⟩] }
  table := some ⟨"units", [⟨"nm_id", .int⟩, ⟨"area", .double⟩, ⟨"c1", .double⟩, ⟨"c2", .double⟩, ⟨"price", .double⟩],
    [[some (.int 2), some (.double 20), some (.double 1), some (.double 4), some (.double 3)],
      [some (.int 1), some (.double 10), some (.double 5), some (.double 7), some (.double 2)]]⟩

theorem negative_weight_aligned : ∃ (b : Build ℚ) (m : Matrix ℚ) (ms : List (Matrix ℚ)),
    (mixedGoals (-3)).prepare = .ok b ∧ b.selectedRows.length = 2 ∧ b.matrix = .ok m ∧
    List.Forall₂ (fun o m' => b.alone o = .ok m') (writtenTerms (mixedGoals (-3)).settings) ms ∧
    (∀ o ∈ writtenTerms (mixedGoals (-3)).settings, b.Refers o.equation ∧
      b.program.Settled b.selectedRows [] (.equation o.equation)) ∧
    m.sense = .minimize ∧ m.objective = [(0, 10), (1, 20), (2, 2), (3, 17)] ∧
    ∀ k < m.columns.length, (m.objective.get? k).getD 0 =
      (List.zipWith (fun o m' => (if o.sense = .minimize then 1 else -1) * (rational o.factor : ℚ) *
        (m'.objective.get? k).getD 0) (writtenTerms (mixedGoals (-3)).settings) ms).sum := by
  have hrun : ((mixedGoals (-3)).prepare : Except Fault (Build ℚ)).toOption.any (fun b =>
      b.matrix.toOption.any fun m => ((writtenTerms (mixedGoals (-3)).settings).mapM b.alone).toOption.any fun _ =>
      (b.program.catalog.resolve "SDU").toOption.any fun d =>
        (writtenTerms (mixedGoals (-3)).settings).all (fun o => decide (o.weight.isFinite = true ∧
          b.Refers o.equation) && (b.program.trees.get? o.equation).any fun e => e.formula.isWithin "SDU" []) &&
        decide (d.name = "SDU" ∧ d.column? = some "nm_id" ∧ b.selectedRows.length = 2 ∧
          (b.selectedRows.map fun r => (b.program.catalog.valueAt "nm_id" r).key).Nodup ∧
          m.objective = [(0, 10), (1, 20), (2, 2), (3, 17)])) = true := by decide +kernel
  obtain ⟨b, hb, hrun⟩ := exists_of_any hrun
  obtain ⟨m, hm, hrun⟩ := exists_of_any hrun
  obtain ⟨ms, hms, hrun⟩ := exists_of_any hrun
  obtain ⟨⟨name, column?⟩, hresolve, hrun⟩ := exists_of_any hrun
  simp only [Bool.and_eq_true, List.all_eq_true, decide_eq_true_eq, Option.any_eq_true] at hrun
  obtain ⟨hall, rfl, rfl, hlength, hkeys, hobjective⟩ := hrun
  -- No two rows are of the same unit, so that the loops over units determine the costs and the price.
  have hapart : ∀ r ∈ b.selectedRows, ∀ r' ∈ b.selectedRows, b.program.Agree "SDU" r r' → r = r' :=
    fun r hr r' hr' h => List.inj_on_of_nodup_map hkeys hr hr' (h _ hresolve)
  have hsettled : ∀ o ∈ writtenTerms (mixedGoals (-3)).settings,
      b.program.Settled b.selectedRows [] (.equation o.equation) := by
    intro o ho
    obtain ⟨e, he, hwithin⟩ := (hall o ho).2
    exact .equation he (settled_of_isWithin hapart [] e.formula hwithin)
  have hms := forall₂_of_mapM hms
  obtain ⟨hsense, hsum⟩ := (mixedGoals (-3)).objectives_weighted hb hm rfl rfl (fun o ho => (hall o ho).1.1)
    (fun o ho => (hall o ho).1.2) hsettled hms
  exact ⟨b, m, ms, hb, hlength, hm, hms, fun o ho => ⟨(hall o ho).1.2, hsettled o ho⟩, hsense, hobjective, hsum⟩

/-- With a weight of zero the equation still counts. -/
theorem zero_weight_counts : ∃ (b : Build ℚ) (m : Matrix ℚ) (ms : List (Matrix ℚ)), (mixedGoals 0).prepare = .ok b ∧
    b.matrix = .ok m ∧ List.Forall₂ (fun o m' => b.alone o = .ok m') (writtenTerms (mixedGoals 0).settings) ms ∧
    ∃ k < m.columns.length, (m.objective.get? k).getD 0 ≠
      (List.zipWith (fun o m' => (if o.sense = .minimize then 1 else -1) * (rational o.weight : ℚ) *
        (m'.objective.get? k).getD 0) (writtenTerms (mixedGoals 0).settings) ms).sum := by
  have hrun : (match ((mixedGoals 0).prepare : Except Fault (Build ℚ)) with
      | .error _ => false
      | .ok b =>
        match b.matrix, (writtenTerms (mixedGoals 0).settings).mapM b.alone with
        | .ok m, .ok ms => decide (1 < m.columns.length ∧ (m.objective.get? (1 : Nat)).getD 0 ≠
            (List.zipWith (fun o m' => (if o.sense = .minimize then 1 else -1) * (rational o.weight : ℚ) *
              (m'.objective.get? (1 : Nat)).getD 0) (writtenTerms (mixedGoals 0).settings) ms).sum)
        | _, _ => false) = true := by decide +kernel
  split at hrun
  case h_1 => cases hrun
  case h_2 b hb =>
    split at hrun
    case h_1 m ms hm hms => exact ⟨b, m, ms, hb, hm, forall₂_of_mapM hms, 1, of_decide_eq_true hrun⟩
    case h_2 => cases hrun

end LandUse
