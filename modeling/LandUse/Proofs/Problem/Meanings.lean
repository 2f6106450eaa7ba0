import LandUse.Proofs.Linear.Meaning
import LandUse.Proofs.Problem.Columns
import LandUse.Proofs.Problem.Outputs

/-! Rows and objectives have the values of their equations, up to a constant. -/

namespace LandUse

open Exact Outcome Direct

variable {K σ : Type} [Field K] [LinearOrder K] [Functions K]

structure Record.Means (p : Program) (columns : List String) (template : Segment K) (name : String)
    (base : List Binding)
    (e : Expr) (group : List Binding × List Row) (r : Record K) : Prop where
  segment : r.1 = template.forGroup group.1
  plain : ∀ i ∈ r.2, i.instr.Plain p.offsets.keys.length
  evaluates : ∀ (x : List K) (v : K), HasValue x (r.2.map (·.instr)) v →
    Evaluates p columns x ⟨name, base ++ group.1, group.2⟩ e.formula v

structure Job.Means (p : Program) (base : List Binding) (j : Job K) (entry : IndexEntry)
    (groups : List (List Binding × List Row)) (e : Expr) (rs : List (Record K)) : Prop where
  grouped : ∃ code, p.groupsOf j.equation j.segment = .ok (entry, code, groups)
  tree : p.trees.get? j.equation = some e
  records : List.Forall₂ (Record.Means p entry.columns j.segment j.equation base e) groups rs

section Sending

variable {p : Program} {sink : Sink K σ} {entry : IndexEntry} {template : Segment K} {base : Frame} {e : Expr}

lemma sends_means (hp : p.Indexed) (he : p.trees.get? entry.name = some e) {group : List Binding × List Row}
    {g g' : Generation σ} (h : Sends p p.trees.length sink entry template base group g (.ok ()) g') :
    ∃ r : Record K, sink.accept g.sink r = .ok g'.sink ∧
      r.Means p entry.columns template entry.name base.bindings e group := by
  generalize hout : (.ok () : Except Fault Unit) = outcome at h
  cases h with
  | failed => cases hout
  | @complete bindings rows _ t emitted outcome state scope hx hemitted hreceive _ =>
    subst hout
    have hcode := Walk.instrs_of_records hemitted
    have hsound : Sound p (expandEquation p entry.columns p.trees.length entry.name
        ⟨⟨entry.name, base.bindings ++ bindings, rows⟩, []⟩ : ExpandM K Unit) :=
      sound_expandEquation (Nat.le_refl _) (hp.grounded (hp.get?_trees.mp he).1) _
    refine ⟨(template.forGroup bindings, emitted), ?_, rfl, ?_, fun x v hv => ?_⟩
    · rw [Sink.accept, hreceive]
    · intro i hi
      have hmem : i.instr ∈ t.marks.reverse.map (·.instr) := hcode ▸ List.mem_map_of_mem hi
      obtain ⟨m, hm, hinstr⟩ := List.mem_map.1 hmem
      have hplain := (hsound ⟨g.memo, []⟩ (List.forall_mem_nil _)).1
      rw [expansion] at hx
      rw [hx] at hplain
      rw [← hinstr]
      exact hplain m (List.mem_reverse.1 hm)
    · rw [hcode] at hv
      exact evaluates_of_expansion hp hx he hv

lemma sendsAll_means (hp : p.Indexed) (he : p.trees.get? entry.name = some e) {groups : List (List Binding × List Row)}
    {g g' : Generation σ} {outcome : Except Fault Unit} (h : SendsAll p p.trees.length sink entry template base
      groups g outcome g')
    (hok : outcome = .ok ()) :
    ∃ rs : List (Record K), rs.foldlM sink.accept g.sink = .ok g'.sink ∧
      List.Forall₂ (Record.Means p entry.columns template entry.name base.bindings e) groups rs := by
  induction h with
  | nil => exact ⟨[], rfl, .nil⟩
  | stop => cases hok
  | cons hsends _ ih =>
    obtain ⟨r, haccept, hr⟩ := sends_means hp he hsends
    obtain ⟨rs, haccepts, hrs⟩ := ih hok
    refine ⟨r :: rs, ?_, .cons hr hrs⟩
    rw [List.foldlM_cons, haccept, ok_bind, haccepts]

lemma generate_means (hp : p.Indexed) {j : Job K} {n : Nat} {g g' : Generation σ}
    (h : p.generate sink j.equation j.segment g = (.ok n, g')) : g'.scope.frame = g.scope.frame ∧ ∃ entry groups e rs,
      rs.foldlM sink.accept g.sink = .ok g'.sink ∧ j.Means p g.scope.frame.bindings entry groups e rs := by
  have hsends := generate_sends_expansions p hp p.trees.length (Nat.le_refl _) sink j.equation j.segment g
  split at hsends
  · rw [hsends] at h
    cases h
  · rename_i entry code groups hgroups
    obtain ⟨⟨outcome, g₁, hall, hgenerate⟩, -⟩ := hsends
    rw [hgenerate] at h
    cases outcome with
    | error => cases h
    | ok _ =>
      cases h
      obtain ⟨hentry, hcode, -⟩ := Program.groupsOf_eq_ok hgroups
      obtain ⟨-, hname⟩ := hp.entry_name hentry
      rw [hp.get?_codes, Option.map_eq_some_iff] at hcode
      obtain ⟨e, he, -⟩ := hcode
      rw [← hname] at he
      obtain ⟨rs, haccepts, hrs⟩ := sendsAll_means hp he hall rfl
      rw [hname] at he hrs
      exact ⟨rfl, entry, groups, e, rs, haccepts, ⟨code, hgroups⟩, he, hrs⟩

theorem generateEach_means (hp : p.Indexed) {jobs : List (Job K)} {g : Generation σ} {s : σ}
    (h : Build.generateEach p sink jobs g = .ok s) :
    ∃ rss : List (List (Record K)), rss.flatten.foldlM sink.accept g.sink = .ok s ∧
      List.Forall₂ (fun j rs => ∃ entry groups e, j.Means p g.scope.frame.bindings entry groups e rs) jobs rss := by
  induction jobs generalizing g with
  | nil =>
    cases h
    exact ⟨[], rfl, .nil⟩
  | cons j jobs ih =>
    unfold Build.generateEach at h
    split at h
    · rename_i n g₁ hgenerate
      obtain ⟨hframe, entry, groups, e, rs, haccepts, hmeans⟩ := generate_means hp hgenerate
      obtain ⟨rss, haccept, hrss⟩ := ih h
      rw [hframe] at hrss
      refine ⟨rs :: rss, ?_, .cons ⟨entry, groups, e, hmeans⟩ hrss⟩
      rw [List.flatten_cons, List.foldlM_append, haccepts, ok_bind, haccept]
    · cases h

end Sending

structure Coeffs.Mean (p : Program) (columns : List String) (frame : Frame) (e : Expr) (cs : Coeffs K)
    (c : K) : Prop where
  proper : cs.Proper p.offsets.keys.length
  evaluates : ∀ x : List K, x.length = p.offsets.keys.length →
    Evaluates p columns x frame e.formula (c + cs.value (coordinate x))

structure MatrixRow.Means (p : Program) (columns : List String) (template : Segment K) (name : String) (e : Expr)
    (group : List Binding × List Row) (row : MatrixRow K) : Prop where
  label : row.name = (template.forGroup group.1).label
  mean : ∃ op rhs c, template.kind = .constraint op rhs ∧ op.rowRelation = .ok row.relation ∧ row.rhs = rhs - c ∧
    row.coeffs.Mean p columns ⟨name, group.1, group.2⟩ e c

section Rows

variable {p : Program} {columns : List String} {template : Segment K} {name : String} {e : Expr}
  {group : List Binding × List Row} {r : Record K} {s s' : RowSink K}

lemma accept_row_means (hr : r.Means p columns template name [] e group) {op : Comparison} {rhs : K}
    (hkind : template.kind = .constraint op rhs) (h : RowSink.sink.accept s r = .ok s') :
    ∃ row : MatrixRow K, row.Means p columns template name e group ∧
      s'.matrix = { s.matrix with rows := s.matrix.rows ++ [row] } := by
  have hsegment : r.1.kind = .constraint op rhs := by rw [hr.segment, ← hkind]; rfl
  rw [accept_row] at h
  simp only [RowSink.add, bind_eq_ok, hsegment, orFault_eq_ok] at h
  obtain ⟨f, hf, relation, hrelation, ⟨i, matrix⟩, hrow, h⟩ := h
  cases h
  unfold Matrix.addRow at hrow
  split at hrow <;> cases hrow
  obtain ⟨hproper, hvalues⟩ := form_values hf (by simpa using hr.plain)
  refine ⟨⟨r.1.label, Matrix.dropZeros f.nonzero, relation, rhs - f.constant⟩, ⟨by rw [hr.segment],
    op, rhs, f.constant, hkind, hrelation, rfl, (hproper.filter _).filter _, fun x hx => ?_⟩, rfl⟩
  have hzeros : (Matrix.dropZeros f.nonzero).value (coordinate x) = f.coeffs.value (coordinate x) := by
    rw [Matrix.dropZeros, Coeffs.value_filter (by simp), LinearForm.value_nonzero]
  rw [hzeros]
  exact hr.evaluates x _ (hvalues x hx)

lemma accept_rows_mean {groups : List (List Binding × List Row)} {rs : List (Record K)}
    (hrs : List.Forall₂ (Record.Means p columns template name [] e) groups rs) (hkind : template.kind.IsConstraint)
    (h : rs.foldlM RowSink.sink.accept s = .ok s') : ∃ rows : List (MatrixRow K),
      List.Forall₂ (MatrixRow.Means p columns template name e) groups rows ∧
      s'.matrix = { s.matrix with rows := s.matrix.rows ++ rows } := by
  induction hrs generalizing s with
  | nil =>
    cases h
    exact ⟨[], .nil, by rw [List.append_nil]⟩
  | cons hr _ ih =>
    obtain ⟨op, rhs, hkind⟩ := hkind
    rw [List.foldlM_cons, bind_eq_ok] at h
    obtain ⟨s₁, hs₁, h⟩ := h
    obtain ⟨row, hrow, hmatrix⟩ := accept_row_means hr hkind hs₁
    obtain ⟨rows, hrows, hmatrix'⟩ := ih h
    refine ⟨row :: rows, .cons hrow hrows, ?_⟩
    rw [hmatrix', hmatrix, List.append_assoc, List.singleton_append]

structure Job.Rows (p : Program) (j : Job K) (entry : IndexEntry) (groups : List (List Binding × List Row)) (e : Expr)
    (rows : List (MatrixRow K)) : Prop where
  grouped : ∃ code, p.groupsOf j.equation j.segment = .ok (entry, code, groups)
  tree : p.trees.get? j.equation = some e
  rows : List.Forall₂ (MatrixRow.Means p entry.columns j.segment j.equation e) groups rows

lemma accept_jobs {jobs : List (Job K)} {rss : List (List (Record K))}
    (hrss : List.Forall₂ (fun j rs => ∃ entry groups e, Job.Means p [] j entry groups e rs) jobs rss)
    (hjobs : ∀ j ∈ jobs, j.segment.kind.IsConstraint) (h : rss.flatten.foldlM RowSink.sink.accept s = .ok s') :
    ∃ rowss : List (List (MatrixRow K)),
      List.Forall₂ (fun j rows => ∃ entry groups e, Job.Rows p j entry groups e rows) jobs rowss ∧
      s'.matrix = { s.matrix with rows := s.matrix.rows ++ rowss.flatten } := by
  induction hrss generalizing s with
  | nil =>
    cases h
    exact ⟨[], .nil, by rw [List.flatten_nil, List.append_nil]⟩
  | cons hj _ ih =>
    obtain ⟨entry, groups, e, hj⟩ := hj
    obtain ⟨hkind, hjobs⟩ := List.forall_mem_cons.1 hjobs
    rw [List.flatten_cons, List.foldlM_append, bind_eq_ok] at h
    obtain ⟨s₁, hs₁, h⟩ := h
    obtain ⟨rows, hrows, hmatrix⟩ := accept_rows_mean hj.records hkind hs₁
    obtain ⟨rowss, hrowss, hmatrix'⟩ := ih hjobs h
    refine ⟨rows :: rowss, .cons ⟨entry, groups, e, hj.grouped, hj.tree, hrows⟩ hrowss, ?_⟩
    rw [hmatrix', hmatrix, List.flatten_cons, List.append_assoc]

lemma accept_objective_means (hr : r.Means p columns template name [] e group) {sense : Sense}
    (hkind : template.kind = .objective sense Scalar.one) (hstart : s.objectives = 0) (hempty : s.matrix.objective = [])
    (h : RowSink.sink.accept s r = .ok s') : ∃ objective c, objective.Mean p columns ⟨name, group.1, group.2⟩ e c ∧
      s'.matrix = { s.matrix with objective := objective, sense := sense } := by
  have hfits : r.Fits p.offsets.keys.length (.objective sense Scalar.one) :=
    ⟨by rw [hr.segment, ← hkind]; rfl, hr.plain⟩
  obtain ⟨objective, ⟨hproper, c, hvalues⟩, hmatrix⟩ := accept_objective hfits hstart hempty h
  refine ⟨objective, c, ⟨hproper, fun x hx => ?_⟩, hmatrix⟩
  rw [add_comm]
  exact hr.evaluates x _ (hvalues x hx)

end Rows

def Matrix.ObjectiveFrom (m : Matrix K) (p : Program) (name : String) : Prop :=
  ∃ entry rows e c, p.index.entry name = .ok entry ∧ p.readRows entry = .ok rows ∧ p.trees.get? name = some e ∧
    m.objective.Mean p entry.columns ⟨name, [], rows⟩ e c

theorem Build.matrix_means {b : Build K} (hp : b.program.Indexed) {m : Matrix K} (hm : b.matrix = .ok m)
    {first : Option (Job K)} {rest : List (Job K)} (hjobs : b.jobs = first.toList ++ rest)
    (hfirst : ∀ j ∈ first, j.segment.kind.IsUnweighted) (hrest : ∀ j ∈ rest, j.segment.kind.IsConstraint) :
    m.columns = b.program.offsets.entries.map b.column ∧
    (∀ j ∈ first, m.ObjectiveFrom b.program j.equation ∧ j.segment.kind = .objective m.sense Scalar.one) ∧
    ∃ rowss : List (List (MatrixRow K)), m.rows = rowss.flatten ∧
      List.Forall₂ (fun j rows => ∃ entry groups e, Job.Rows b.program j entry groups e rows) rest rowss := by
  obtain ⟨s, hs, rfl⟩ := matrix_eq_ok hm
  obtain ⟨rss, haccept, hrss⟩ := generateEach_means hp hs
  rw [hjobs] at hrss
  cases first with
  | none =>
    obtain ⟨rowss, hrowss, hmatrix⟩ := accept_jobs hrss hrest haccept
    rw [hmatrix]
    refine ⟨rfl, ?_, rowss, rfl, hrowss⟩
    rintro j ⟨⟩
  | some j =>
    obtain ⟨sense, hkind⟩ := hfirst j rfl
    cases hrss with
    | @cons _ rs _ rss hj hrss =>
      obtain ⟨entry, groups, e, ⟨code, hgroups⟩, htree, hrecords⟩ := hj
      obtain ⟨hentry, rows, hrows, rfl⟩ := Program.groupsOf_objective hgroups hkind
      obtain ⟨r, rfl⟩ := List.length_eq_one_iff.1 hrecords.length_eq.symm
      rw [List.flatten_cons, List.singleton_append, List.foldlM_cons, bind_eq_ok] at haccept
      obtain ⟨s₁, hs₁, haccept⟩ := haccept
      obtain ⟨objective, c, hmean, hmatrix₁⟩ :=
        accept_objective_means (List.forall₂_cons.1 hrecords).1 hkind rfl rfl hs₁
      obtain ⟨rowss, hrowss, hmatrix⟩ := accept_jobs hrss hrest haccept
      rw [hmatrix, hmatrix₁]
      refine ⟨rfl, fun j' hj' => ?_, rowss, rfl, hrowss⟩
      cases hj'
      exact ⟨⟨entry, rows, e, c, hentry, hrows, htree, hmean⟩, hkind⟩

end LandUse
