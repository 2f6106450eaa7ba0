import LandUse.Proofs.Problem.Columns
import LandUse.Proofs.Problem.Outputs

/-! A problem as a linear program and as a model file. -/

namespace LandUse

open Exact Outcome

variable {K : Type} [Field K] [LinearOrder K] [Functions K]

structure SameProblem (m : Matrix K) (d : Nl.Document K) : Prop where
  unknowns : d.stats.unknowns = m.columns.length
  bounds : d.bounds = m.columns.map fun c => (c.lower, c.upper)
  constraints : d.stats.constraints = m.rows.length
  holds : ∀ (k : Nat) (r : MatrixRow K), m.rows[k]? = some r → ∃ body op rhs,
    d.constraint? k = some body ∧ d.ranges[k]? = some (op, rhs) ∧
    ∀ x : List K, x.length = m.columns.length → ∃ a v, m.activity k x = .ok a ∧ (∀ w, HasValue x body.code w ↔ w = v) ∧
      (r.Holds a ↔ Nl.InRange op.rangeCode rhs v)
  discrete : d.stats.discrete ≤ m.columns.length
  kinds : ∀ (i : Nat) (c : MatrixColumn), m.columns[i]? = some c →
    (c.kind ≠ .real ↔ (m.columns.length : Int) ≤ i + d.stats.discrete)
  /-- The objective has the sense of the matrix and differs from its objective by a constant. -/
  objectives : d.stats.objectives ≤ 1
  objective : ∀ body index sense, body ∈ d.bodies → body.heading = .objective index sense → m.sense = sense ∧
    ∃ c, ∀ x : List K, x.length = m.columns.length → ∃ a v, m.objectiveValue x = .ok a ∧
      (∀ w, HasValue x body.code w ↔ w = v) ∧ v = a + c
  empty : d.stats.objectives = 0 → m.objective = []

variable [IsStrictOrderedRing K]

lemma Build.outputs {b : Build K} (hp : b.program.Indexed) {model : Model K} (hmodel : model.Composed)
    (hjobs : b.jobs = model.jobs) {columns : List MatrixColumn} {s : RowSink K} {t : Nl.BodySink K}
    (hs : b.run RowSink.sink { matrix := { columns := columns } } = .ok s) (ht : b.run Nl.BodySink.sink {} = .ok t) :
    s.matrix.columns = columns ∧ Outputs s.matrix t b.program.offsets.keys.length := by
  obtain ⟨rss, hyields, hrows, hrecord⟩ := generateEach_records hp hs
  obtain ⟨rss', -, hbodies, hrecord'⟩ := generateEach_records hp ht
  -- A recorder in place of either sink would have got the same segments.
  have hsame : rss.flatten = rss'.flatten := Except.ok.inj ((hrecord []).symm.trans (hrecord' []))
  rw [← hsame] at hbodies
  exact outputs_of_records hmodel hjobs hyields hrows hbodies

/-- The matrix and the document of a problem are the same problem. Each has a build of its own; where these go through
the criteria in different orders, criteria that become the same parameter need to have the same fields. -/
theorem Problem.matrix_same_as_document (p : Problem) {criteria criteria' : Dict (List String)}
    (hcs : criteria.Perm p.settings.criteria) (hcs' : criteria'.Perm p.settings.criteria)
    (horder : criteria = criteria' ∨ Model.Unambiguous p.settings.criteria) {m : Matrix K} {d : Nl.Document K}
    (hm : p.matrix criteria = .ok m) (hd : p.document criteria' = .ok d) : SameProblem m d := by
  have hprepare : (p.prepare criteria : Except Fault (Build K)) = p.prepare criteria' := by
    rcases horder with rfl | h
    · rfl
    · exact p.prepare_perm (h.perm hcs) (hcs.trans hcs'.symm)
  unfold matrix at hm
  unfold document at hd
  rw [bind_eq_ok] at hm hd
  obtain ⟨b, hb, hm⟩ := hm
  obtain ⟨b', hb', hd⟩ := hd
  obtain rfl : b = b' := Except.ok.inj (hb.symm.trans (hprepare.trans hb'))
  obtain ⟨_, -, hb⟩ := prepare_eq_ok hb
  obtain ⟨hindexed, hsorted, model, hmodel, hjobs⟩ := Build.prepare_eq_ok hb
  obtain ⟨s, hs, rfl⟩ := Build.matrix_eq_ok hm
  obtain ⟨t, ht, hbodies, hranges, hbounds, hdiscrete⟩ := Build.document_eq_ok hd
  obtain ⟨hcolumns, houtputs⟩ := Build.outputs hindexed hmodel hjobs hs ht
  have hlength : s.matrix.columns.length = b.program.offsets.entries.length := by rw [hcolumns, List.length_map]
  rw [hsorted.keys, ← hlength] at houtputs
  rw [houtputs.bounds, List.nil_append] at hbounds
  replace hdiscrete : d.stats.discrete = (b.program.offsets.entries.filter (·.kind != .real)).length := hdiscrete
  obtain ⟨hconstraints, hobjectives, hempty⟩ := houtputs.stats hbodies
  refine
    { unknowns := ?_
      bounds := ?_
      constraints := hconstraints
      holds := fun k r hr => ?_
      discrete := ?_
      kinds := fun i c hc => ?_
      objectives := hobjectives
      objective := fun body index sense hbody hheading => ?_
      empty := hempty }
  · rw [Nl.Document.stats, hbounds, List.length_map, hlength]
  · rw [hbounds, hcolumns, List.map_map]
    rfl
  · obtain ⟨p, hp, rfl, hbody, hrange⟩ := houtputs.constraint?_eq hbodies hranges hr
    refine ⟨_, p.op, p.rhs, hbody, hrange, fun x hx => ?_⟩
    obtain ⟨v, hv, hiff⟩ := hp.holds x hx
    refine ⟨_, v, ?_, hasValue_iff hv, hiff⟩
    rw [Matrix.activity, if_pos (Int.natCast_nonneg k), Int.toNat_natCast, hr]
    exact Matrix.dot_eq hp.proper hx
  · rw [hdiscrete, hlength]
    exact_mod_cast List.length_filter_le _ _
  · rw [hcolumns, List.getElem?_map, Option.map_eq_some_iff] at hc
    obtain ⟨v, hv, rfl⟩ := hc
    rw [hdiscrete, hlength]
    change v.kind ≠ .real ↔ _
    exact_mod_cast hsorted.discrete_iff hv
  · obtain ⟨hsense, hproper, c, hvalue⟩ := houtputs.objective_eq hbodies hbody hheading
    refine ⟨hsense, c, fun x hx => ⟨_, _, Matrix.dot_eq hproper hx, hasValue_iff (hvalue x hx), rfl⟩⟩

def twoUnits : Table where
  name := "units"
  columns := [⟨"nm_id", .int⟩, ⟨"area", .double⟩, ⟨"c1", .double⟩, ⟨"c2", .double⟩, ⟨"g1", .double⟩, ⟨"g2", .double⟩]
  rows := [
    [some (.int 2), some (.double 10), some (.double 1), some (.double 2), some (.double 5), some (.double 7)],
    [some (.int 1), some (.double 20), some (.double 3), some (.double 4), some (.double 6), some (.double 8)]]

def twoCriteria : Problem where
  config := {}
  settings := {
    areaField := "area"
    unitDimension := "SDU"
    options := ["forest", "arable"]
    criteria := [("cost", ["c1", "c2"]), ("gain", ["g1", "g2"])]
    objectives := [⟨"OBJ_1", "gain", .maximize, 2⟩, ⟨"OBJ_2", "cost", .minimize, 1⟩]
    equations := [("limit", "2 * sum\x7bSDU\x7d(X[SDU][forest]) - pick[forest] + 1")]
    dimensions := [("SDU", "nm_id")]
    decisions := [⟨"pick", ["OPTIONS"], 0, 1, true, .binary⟩]
    constraints := [⟨"limit", "limit", .le, 5⟩] }
  table := some twoUnits

theorem two_criteria_same : ∃ (m : Matrix ℚ) (d : Nl.Document ℚ), twoCriteria.matrix = .ok m ∧
    twoCriteria.document twoCriteria.settings.criteria.reverse = .ok d ∧ SameProblem m d ∧
    m.columns.length = 8 ∧ m.rows.length = 5 ∧ d.stats.discrete = 4 ∧ d.stats.objectives = 1 := by
  have hrun : (twoCriteria.matrix : Except Fault (Matrix ℚ)).toOption.any (fun m =>
      (twoCriteria.document twoCriteria.settings.criteria.reverse : Except Fault (Nl.Document ℚ)).toOption.any fun d =>
        decide (m.columns.length = 8 ∧ m.rows.length = 5 ∧ d.stats.discrete = 4 ∧ d.stats.objectives = 1)) = true := by
    decide +kernel
  obtain ⟨m, hm, hrun⟩ := exists_of_any hrun
  obtain ⟨d, hd, hrun⟩ := exists_of_any hrun
  have hunambiguous : Model.Unambiguous twoCriteria.settings.criteria := by
    unfold Model.Unambiguous
    decide
  exact ⟨m, d, hm, hd, twoCriteria.matrix_same_as_document (.refl _) (List.reverse_perm _) (.inr hunambiguous) hm hd,
    of_decide_eq_true hrun⟩

def mergedCriteria : Problem where
  config := {}
  settings := {
    areaField := "area"
    unitDimension := "SDU"
    options := ["forest"]
    criteria := [("a-b", ["p"]), ("a.b", ["q"])]
    objectives := [⟨"OBJ_1", "a-b", .maximize, 1⟩]
    dimensions := [("SDU", "nm_id")] }
  table := some ⟨"units", [⟨"nm_id", .int⟩, ⟨"area", .double⟩, ⟨"p", .double⟩, ⟨"q", .double⟩],
    [[some (.int 1), some (.double 10), some (.double 2), some (.double 3)]]⟩

deriving instance DecidableEq for Instr, Nl.Heading, Nl.Body

/-- Both criteria become `__cri_a_b`: the objective is 3 X in one order and 2 X in the other. -/
theorem merged_criteria_differ : ∃ (m : Matrix ℚ) (d : Nl.Document ℚ), mergedCriteria.matrix = .ok m ∧
    mergedCriteria.document mergedCriteria.settings.criteria.reverse = .ok d ∧ ¬ SameProblem m d := by
  have hmatrix : (mergedCriteria.matrix : Except Fault (Matrix ℚ)).toOption.any (fun m =>
      decide (m.columns.length = 2 ∧ (m.objectiveValue [0, 0]).toOption = some 0 ∧
        (m.objectiveValue [1, 0]).toOption = some 3)) = true := by decide +kernel
  have hdocument : (mergedCriteria.document mergedCriteria.settings.criteria.reverse :
      Except Fault (Nl.Document ℚ)).toOption.any (fun d =>
        decide (⟨.objective 0 .maximize, [.op .mult, .num 2, .var 0]⟩ ∈ d.bodies)) = true := by decide +kernel
  obtain ⟨m, hm, hmatrix⟩ := exists_of_any hmatrix
  obtain ⟨d, hd, hdocument⟩ := exists_of_any hdocument
  obtain ⟨hlength, hzero, hone⟩ := of_decide_eq_true hmatrix
  refine ⟨m, d, hm, hd, fun h => ?_⟩
  obtain ⟨-, k, hk⟩ := h.objective _ 0 .maximize (of_decide_eq_true hdocument) rfl
  have hcode (x y : ℚ) : HasValue [x, y] [.op .mult, .num 2, .var 0] (2 * x) :=
    .op rfl (.num 2 (.var (k := 0) rfl (.done _))) rfl (.done _)
  have hconstant {x y a : ℚ} (ha : (m.objectiveValue [x, y]).toOption = some a) : 2 * x = a + k := by
    obtain ⟨a', v, ha', hv, rfl⟩ := hk [x, y] hlength.symm
    rw [ha'] at ha
    obtain rfl := Option.some.inj ha
    exact (hv _).1 (hcode x y)
  -- Both objectives vanish at the origin, so that the constant is zero, but they differ where X is one.
  linarith [hconstant hzero, hconstant hone]

end LandUse
