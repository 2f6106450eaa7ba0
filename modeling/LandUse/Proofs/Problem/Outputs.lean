import LandUse.Proofs.Linear.Prefix
import LandUse.Proofs.Problem.Jobs
import LandUse.Proofs.Problem.Recording

/-! What the sinks of the matrix and of the document have after the same segments. -/

namespace LandUse

open Exact Outcome

variable {K : Type}

namespace Nl

def Body.isNumbered (k : Nat) (b : Body K) : Bool :=
  match b.heading with
  | .constraint i => i == k
  | .objective .. => false

def Document.constraint? (d : Document K) (k : Nat) : Option (Body K) := d.bodies.find? (·.isNumbered k)

end Nl

structure Pairing (K : Type) where
  row : MatrixRow K
  code : List (Instr K)
  op : Comparison
  rhs : K

def constraintBodies (start : Nat) (ps : List (Pairing K)) : List (Nl.Body K) :=
  (ps.zipIdx start).map fun (p, i) => ⟨.constraint i, p.code⟩

lemma constraintBodies_cons (start : Nat) (p : Pairing K) (ps : List (Pairing K)) :
    constraintBodies start (p :: ps) = ⟨.constraint start, p.code⟩ :: constraintBodies (start + 1) ps := rfl

lemma isConstraint_of_mem {start : Nat} {ps : List (Pairing K)} {body : Nl.Body K}
    (h : body ∈ constraintBodies start ps) :
    body.isConstraint = true := by
  obtain ⟨p, -, rfl⟩ := List.mem_map.mp h
  rfl

lemma length_constraintBodies (start : Nat) (ps : List (Pairing K)) :
    (constraintBodies start ps).length = ps.length := by
  rw [constraintBodies, List.length_map, List.length_zipIdx]

lemma filter_constraintBodies (start : Nat) (ps : List (Pairing K)) :
    (constraintBodies start ps).filter (·.isConstraint) = constraintBodies start ps ∧
      (constraintBodies start ps).filter (!·.isConstraint) = [] := by
  constructor
  · exact List.filter_eq_self.mpr fun _ => isConstraint_of_mem
  · exact List.filter_eq_nil_iff.mpr fun _ h => by simp [isConstraint_of_mem h]

lemma find?_constraintBodies (start k : Nat) {ps : List (Pairing K)} {p : Pairing K} (h : ps[k]? = some p) :
    (constraintBodies start ps).find? (·.isNumbered (start + k)) = some ⟨.constraint (start + k : Nat), p.code⟩ := by
  induction ps generalizing start k with
  | nil => cases h
  | cons q ps ih =>
    rw [constraintBodies_cons]
    cases k with
    | zero =>
      cases h
      exact List.find?_cons_of_pos (beq_self_eq_true _)
    | succ k =>
      have hne : ¬ (⟨.constraint start, q.code⟩ : Nl.Body K).isNumbered (start + (k + 1)) = true := by
        rw [Nl.Body.isNumbered, beq_iff_eq]
        omega
      rw [List.find?_cons_of_neg hne, show start + (k + 1) = start + 1 + k by omega]
      exact ih (start + 1) k h

variable [Field K] [LinearOrder K]

def MatrixRow.Holds (r : MatrixRow K) (a : K) : Prop :=
  match r.relation with
  | .le => a ≤ r.rhs
  | .ge => r.rhs ≤ a
  | .eq => a = r.rhs
  | .unknown => True

namespace Nl

def InRange (code : Nat) (rhs v : K) : Prop :=
  match code with
  | 1 => v ≤ rhs
  | 2 => rhs ≤ v
  | 3 => True
  | 4 => v = rhs
  | _ => False

end Nl

variable [Functions K]

structure Pairing.Agrees (n : Nat) (p : Pairing K) : Prop where
  proper : p.row.coeffs.Proper n
  holds : ∀ x : List K, x.length = n → ∃ v, HasValue x p.code v ∧
    (p.row.Holds (p.row.coeffs.value (coordinate x)) ↔ Nl.InRange p.op.rangeCode p.rhs v)

lemma form_values {label : String} {code : List (Instr K)} {p : LinearForm K}
    (h : RowSink.form label code = .ok p) {n : Nat}
    (hplain : ∀ i ∈ code, i.Plain n) :
    p.Proper n ∧ ∀ x : List K, x.length = n → HasValue x code (p.value (coordinate x)) := by
  refine ⟨proper_form h hplain, ?_⟩
  rintro x rfl
  exact form_hasValue h hplain

variable [IsStrictOrderedRing K]

omit [Functions K] in
lemma holds_iff_inRange {op : Comparison} {relation : RowRelation} (h : op.rowRelation = .ok relation) (label : String)
    (coeffs : Coeffs K) (a c rhs : K) :
    (⟨label, coeffs, relation, rhs - c⟩ : MatrixRow K).Holds a ↔ Nl.InRange op.rangeCode rhs (c + a) := by
  cases op with
  | none => cases h
  | le =>
    cases h
    exact le_sub_iff_add_le'
  | ge =>
    cases h
    exact sub_le_iff_le_add'
  | eq =>
    cases h
    exact eq_sub_iff_add_eq'

omit [IsStrictOrderedRing K] in
lemma accept_body (b : Nl.BodySink K) (r : Record K) :
    Nl.BodySink.sink.accept b r = .ok (b.add r.1 (r.2.map (·.instr)) true) := rfl

lemma accept_constraint {s s' : RowSink K} {r : Record K} {op : Comparison} {rhs : K} {n : Nat}
    (hr : r.Fits n (.constraint op rhs)) (h : RowSink.sink.accept s r = .ok s') :
    ∃ p : Pairing K, p.Agrees n ∧ p.op = op ∧ p.rhs = rhs ∧ p.code = r.2.map (·.instr) ∧
      s'.matrix = { s.matrix with rows := s.matrix.rows ++ [p.row] } := by
  rw [accept_row] at h
  simp only [RowSink.add, bind_eq_ok, hr.kind, orFault_eq_ok] at h
  obtain ⟨p, hp, relation, hrelation, ⟨row, matrix⟩, hrow, h⟩ := h
  cases h
  unfold Matrix.addRow at hrow
  split at hrow <;> cases hrow
  obtain ⟨hproper, hvalues⟩ := form_values hp (by simpa using hr.plain)
  refine ⟨⟨⟨r.1.label, Matrix.dropZeros p.nonzero, relation, rhs - p.constant⟩, r.2.map (·.instr), op, rhs⟩,
    ⟨(hproper.filter _).filter _, fun x hx => ⟨_, hvalues x hx, ?_⟩⟩, rfl, rfl, rfl, rfl⟩
  have hzeros : (Matrix.dropZeros p.nonzero).value (coordinate x) = p.coeffs.value (coordinate x) := by
    rw [Matrix.dropZeros, Coeffs.value_filter (by simp), LinearForm.value_nonzero]
  rw [hzeros]
  exact holds_iff_inRange hrelation _ _ _ _ _

lemma accept_constraints {n : Nat} {rs : List (Record K)} (hrs : ∀ r ∈ rs, ∃ op rhs, r.Fits n (.constraint op rhs))
    {s s' : RowSink K} {b b' : Nl.BodySink K} (hs : rs.foldlM RowSink.sink.accept s = .ok s')
    (hb : rs.foldlM Nl.BodySink.sink.accept b = .ok b') : ∃ ps : List (Pairing K), (∀ p ∈ ps, p.Agrees n) ∧
      s'.matrix = { s.matrix with rows := s.matrix.rows ++ ps.map (·.row) } ∧
      b'.document.bodies = b.document.bodies ++ constraintBodies b.constraints ps ∧
      b'.document.ranges = b.document.ranges ++ ps.map (fun p => (p.op, p.rhs)) ∧
      b'.document.bounds = b.document.bounds := by
  -- Both sinks number constraints in the order in which they come.
  induction rs generalizing s b with
  | nil =>
    cases hs
    cases hb
    exact ⟨[], List.forall_mem_nil _, by simp, by simp [constraintBodies], by simp, rfl⟩
  | cons r rs ih =>
    obtain ⟨⟨op, rhs, hr⟩, hrs⟩ := List.forall_mem_cons.mp hrs
    rw [List.foldlM_cons, bind_eq_ok] at hs hb
    obtain ⟨s₁, hs₁, hs⟩ := hs
    obtain ⟨b₁, hb₁, hb⟩ := hb
    obtain ⟨p, hp, rfl, rfl, hcode, hmatrix⟩ := accept_constraint hr hs₁
    obtain ⟨ps, hps, hmatrix', hbodies, hranges, hbounds⟩ := ih hrs hs hb
    rw [accept_body] at hb₁
    cases hb₁
    simp only [Nl.BodySink.add, Nl.BodySink.close, Nl.BodySink.body, hr.kind, if_true, Nl.Document.addJacobian,
      Nl.Document.addRange] at hbodies hranges hbounds
    refine ⟨p :: ps, List.forall_mem_cons.mpr ⟨hp, hps⟩, ?_, ?_, ?_, hbounds⟩
    · rw [hmatrix', hmatrix]
      simp
    · rw [hbodies, constraintBodies_cons, hcode, List.append_assoc, List.singleton_append]
    · rw [hranges]
      simp

structure ObjectiveAgrees (n : Nat) (objective : Coeffs K) (code : List (Instr K)) : Prop where
  proper : objective.Proper n
  differ : ∃ c, ∀ x : List K, x.length = n → HasValue x code (objective.value (coordinate x) + c)

omit [IsStrictOrderedRing K] in
lemma accept_objective {s s' : RowSink K} {r : Record K} {sense : Sense} {n : Nat}
    (hr : r.Fits n (.objective sense Scalar.one)) (hstart : s.objectives = 0) (hempty : s.matrix.objective = [])
    (h : RowSink.sink.accept s r = .ok s') : ∃ objective, ObjectiveAgrees n objective (r.2.map (·.instr)) ∧
      s'.matrix = { s.matrix with objective := objective, sense := sense } := by
  rw [accept_row] at h
  simp only [RowSink.add, bind_eq_ok, hr.kind] at h
  obtain ⟨p, hp, h⟩ := h
  cases h
  obtain ⟨hproper, hvalues⟩ := form_values hp (by simpa using hr.plain)
  have hone : ¬ Scalar.isZero (Scalar.one : K) = true := by simp
  have hsense : (s.matrix.setSense sense).sense = sense := rfl
  simp only [hstart, if_neg hone, beq_self_eq_true, if_true, hsense]
  have hm : (s.matrix.setSense sense).objective.Proper n := by
    rw [Matrix.setSense, hempty]
    exact Coeffs.proper_nil
  have hnonzero : p.nonzero.Proper n := hproper.filter _
  have hcs := hnonzero.map (· * Scalar.one)
  refine ⟨_, ⟨(Matrix.value_addObjective hm hcs 0).1, p.constant, fun x hx => ?_⟩, rfl⟩
  rw [(Matrix.value_addObjective hm hcs (coordinate x)).2, Coeffs.value_map_mul, LinearForm.value_nonzero, one_eq,
    mul_one, Matrix.setSense, hempty, Coeffs.value_nil, zero_add, add_comm]
  exact hvalues x hx

structure Outputs (m : Matrix K) (b : Nl.BodySink K) (n : Nat) : Prop where
  bounds : b.document.bounds = []
  constraints : ∃ ps : List (Pairing K), (∀ p ∈ ps, p.Agrees n) ∧ m.rows = ps.map (·.row) ∧
    b.document.ranges = ps.map (fun p => (p.op, p.rhs)) ∧
    ((b.document.bodies = constraintBodies 0 ps ∧ m.objective = []) ∨
      ∃ code, b.document.bodies = ⟨.objective 0 m.sense, code⟩ :: constraintBodies 0 ps ∧
        ObjectiveAgrees n m.objective code)

omit [LinearOrder K] [Functions K] [IsStrictOrderedRing K] [Field K] in
lemma fits_of_constraints {p : Program} {n : Nat} {jobs : List (Job K)} {rss : List (List (Record K))}
    (h : List.Forall₂ (Job.Yields p n) jobs rss) (hjobs : ∀ j ∈ jobs, j.segment.kind.IsConstraint) :
    ∀ r ∈ rss.flatten, ∃ op rhs, r.Fits n (.constraint op rhs) := by
  induction h with
  | nil => exact List.forall_mem_nil _
  | cons hj _ ih =>
    obtain ⟨⟨op, rhs, hkind⟩, hjobs⟩ := List.forall_mem_cons.mp hjobs
    rw [List.flatten_cons]
    refine List.forall_mem_append.mpr ⟨fun r hr => ⟨op, rhs, ?_⟩, ih hjobs⟩
    rw [← hkind]
    exact hj.fits r hr

lemma outputs_of_records {p : Program} {n : Nat} {columns : List MatrixColumn} {jobs : List (Job K)} {model : Model K}
    (hmodel : model.Composed) (hjobs : jobs = model.jobs) {rss : List (List (Record K))}
    (h : List.Forall₂ (Job.Yields p n) jobs rss) {s : RowSink K} {b : Nl.BodySink K}
    (hs : rss.flatten.foldlM RowSink.sink.accept { matrix := { columns := columns } } = .ok s)
    (hb : rss.flatten.foldlM Nl.BodySink.sink.accept {} = .ok b) :
    s.matrix.columns = columns ∧ Outputs s.matrix b n := by
  rcases hmodel with hconstraints | ⟨first, rest, hfirst, ⟨sense, hkind⟩, hrest⟩
  · rw [← hjobs] at hconstraints
    obtain ⟨ps, hps, hmatrix, hbodies, hranges, hbounds⟩ :=
      accept_constraints (fits_of_constraints h hconstraints) hs hb
    rw [hmatrix]
    exact ⟨rfl, hbounds, ps, hps, rfl, hranges, .inl ⟨hbodies, rfl⟩⟩
  · rw [hjobs, hfirst] at h
    cases h with
    | cons hyields h =>
      obtain ⟨r, rfl⟩ := List.length_eq_one_iff.mp (hyields.single sense _ hkind)
      have hr := hyields.fits r List.mem_cons_self
      rw [hkind] at hr
      rw [List.flatten_cons, List.singleton_append, List.foldlM_cons, bind_eq_ok] at hs hb
      obtain ⟨s₁, hs₁, hs⟩ := hs
      obtain ⟨b₁, hb₁, hb⟩ := hb
      obtain ⟨objective, hobjective, hmatrix₁⟩ := accept_objective hr rfl rfl hs₁
      obtain ⟨ps, hps, hmatrix, hbodies, hranges, hbounds⟩ := accept_constraints (fits_of_constraints h hrest) hs hb
      rw [accept_body] at hb₁
      cases hb₁
      simp only [Nl.BodySink.add, Nl.BodySink.close, Nl.BodySink.body, hr.kind, if_true,
        Nl.Document.addGradient] at hbodies hranges hbounds
      rw [hmatrix, hmatrix₁]
      refine ⟨rfl, hbounds, ps, hps, rfl, hranges, .inr ⟨r.2.map (·.instr), ?_, hobjective⟩⟩
      rw [hbodies]
      simp [Nl.BodySink.weightCode]

omit [IsStrictOrderedRing K] in
lemma hasValue_iff {x : List K} {code : List (Instr K)} {v : K} (h : HasValue x code v) (w : K) :
    HasValue x code w ↔ w = v :=
  ⟨fun hw => hw.unique h, fun hw => hw ▸ h⟩

namespace Outputs

variable {m : Matrix K} {b : Nl.BodySink K} {d : Nl.Document K}

omit [IsStrictOrderedRing K]

lemma stats (h : Outputs m b m.columns.length) (hbodies : d.bodies = b.document.bodies) :
    d.stats.constraints = m.rows.length ∧ d.stats.objectives ≤ 1 ∧ (d.stats.objectives = 0 → m.objective = []) := by
  obtain ⟨ps, -, hrows, -, hcases⟩ := h.constraints
  obtain ⟨hfilter, hfilter'⟩ := filter_constraintBodies 0 ps
  simp only [Nl.Document.stats, hbodies, hrows, List.length_map]
  rcases hcases with ⟨hcases, hempty⟩ | ⟨code, hcases, -⟩
  · rw [hcases, hfilter, hfilter', length_constraintBodies]
    exact ⟨rfl, by simp, fun _ => hempty⟩
  · rw [hcases, List.filter_cons_of_neg (by simp [Nl.Body.isConstraint]), hfilter,
      List.filter_cons_of_pos (by simp [Nl.Body.isConstraint]), hfilter', length_constraintBodies]
    exact ⟨rfl, by simp, fun h => by simp at h⟩

lemma constraint?_eq (h : Outputs m b m.columns.length) (hbodies : d.bodies = b.document.bodies)
    (hranges : d.ranges = b.document.ranges) {k : Nat} {r : MatrixRow K} (hr : m.rows[k]? = some r) :
    ∃ p : Pairing K, p.Agrees m.columns.length ∧ p.row = r ∧ d.constraint? k = some ⟨.constraint k, p.code⟩ ∧
      d.ranges[k]? = some (p.op, p.rhs) := by
  obtain ⟨ps, hps, hrows, hranges', hcases⟩ := h.constraints
  rw [hrows, List.getElem?_map, Option.map_eq_some_iff] at hr
  obtain ⟨p, hp, rfl⟩ := hr
  refine ⟨p, hps p (List.mem_of_getElem? hp), rfl, ?_, ?_⟩
  · have hfind := find?_constraintBodies 0 k hp
    rw [Nat.zero_add] at hfind
    rw [Nl.Document.constraint?, hbodies]
    rcases hcases with ⟨hcases, -⟩ | ⟨code, hcases, -⟩
    · rw [hcases, hfind]
    · rw [hcases, List.find?_cons_of_neg (by simp [Nl.Body.isNumbered]), hfind]
  · rw [hranges, hranges', List.getElem?_map, hp]
    rfl

lemma objective_eq (h : Outputs m b m.columns.length) (hbodies : d.bodies = b.document.bodies) {body : Nl.Body K}
    (hbody : body ∈ d.bodies) {index : Int} {sense : Sense} (hheading : body.heading = .objective index sense) :
    m.sense = sense ∧ ObjectiveAgrees m.columns.length m.objective body.code := by
  have hkind : body.isConstraint = false := by rw [Nl.Body.isConstraint, hheading]
  obtain ⟨ps, -, -, -, hcases⟩ := h.constraints
  rw [hbodies] at hbody
  rcases hcases with ⟨hcases, -⟩ | ⟨code, hcases, hagrees⟩
  · rw [hcases] at hbody
    rw [isConstraint_of_mem hbody] at hkind
    cases hkind
  · rw [hcases] at hbody
    rcases List.mem_cons.mp hbody with rfl | hbody
    · cases hheading
      exact ⟨rfl, hagrees⟩
    · rw [isConstraint_of_mem hbody] at hkind
      cases hkind

end Outputs

end LandUse
