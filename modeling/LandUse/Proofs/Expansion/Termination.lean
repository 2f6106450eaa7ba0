import LandUse.Proofs.Expansion.Cycles
import LandUse.Proofs.Expansion.Segments

/-! Where the work behind a piece of code ends in every state, so does the code with that work behind it. -/

namespace LandUse

open Outcome Direct

namespace Walk

variable {α : Type} [Scalar α]

inductive Finishes (p : Program) (columns : List String) : List Task → State α → Except Fault Unit → State α → Prop
  | done {s : State α} : Finishes p columns [] s (.ok ()) s
  | fail {task : Task} {tasks : List Task} {s s' : State α} {e : Fault} :
      result (step p columns task) s = (.error e, s') → Finishes p columns (task :: tasks) s (.error e) s'
  | next {task : Task} {tasks new : List Task} {s s₁ s' : State α} {r : Except Fault Unit} :
      result (step p columns task) s = (.ok new, s₁) → Finishes p columns (new ++ tasks) s₁ r s' →
      Finishes p columns (task :: tasks) s r s'

variable {p : Program} {columns : List String}

lemma Finishes.result_run {tasks : List Task} {s s' : State α} {r : Except Fault Unit}
    (h : Finishes p columns tasks s r s') : ∃ n, ∀ fuel, result (run p columns (fuel + n) tasks) s = (r, s') := by
  induction h with
  | done =>
    refine ⟨0, fun fuel => ?_⟩
    cases fuel <;> rfl
  | fail hstep => exact ⟨1, fun fuel => by rw [Walk.result_run, hstep, proceed_error]⟩
  | next hstep _ ih =>
    obtain ⟨n, hn⟩ := ih
    exact ⟨n + 1, fun fuel => by rw [← Nat.add_assoc, Walk.result_run, hstep, proceed_ok, hn]⟩

variable (α p columns) in
def Halts (tasks : List Task) : Prop := ∀ s : State α, ∃ r s', Finishes p columns tasks s r s'

lemma halts_nil : Halts α p columns [] := fun _ => ⟨_, _, .done⟩

lemma Halts.of_step {task : Task} {tasks : List Task}
    (h : ∀ (s s' : State α) new, result (step p columns task) s = (.ok new, s') → Halts α p columns (new ++ tasks)) :
    Halts α p columns (task :: tasks) := by
  intro s
  rcases hstep : result (step p columns task) s with ⟨e | new, s₁⟩
  · exact ⟨_, _, .fail hstep⟩
  · obtain ⟨r, s', hfin⟩ := h s s₁ new hstep s₁
    exact ⟨r, s', .next hstep hfin⟩

lemma Halts.of_result {task : Task} {tasks : List Task} (new : List Task)
    (hstep : ∀ s s' : State α, ∀ new', result (step p columns task) s = (.ok new', s') → new' = new)
    (h : Halts α p columns (new ++ tasks)) : Halts α p columns (task :: tasks) :=
  .of_step fun s s' new' h' => hstep s s' new' h' ▸ h

variable {rest : List CodeToken} {ts : List Task}

lemma Halts.nil (h : Halts α p columns ts) : Halts α p columns (.code [] :: ts) :=
  .of_result [] (by rintro _ _ _ ⟨⟩; rfl) h

lemma Halts.enter (h : Halts α p columns ts) (equation : String) : Halts α p columns (.enter equation :: ts) :=
  .of_result [] (by rintro _ _ _ ⟨⟩; rfl) h

lemma Halts.leave (h : Halts α p columns ts) (frame : Frame) : Halts α p columns (.leave frame :: ts) :=
  .of_result [] (by rintro _ _ _ ⟨⟩; rfl) h

lemma Halts.finish (h : Halts α p columns ts) (equation dim : String) (outer : Option Nat) (frame : Frame) :
    Halts α p columns (.finish equation dim outer frame :: ts) :=
  .of_result [] (by rintro _ _ _ ⟨⟩; rfl) h

lemma Halts.iterate (h : Halts α p columns ts) (first : Bool) (equation dim : String) (its : List Iteration)
    (frame : Frame) : Halts α p columns (.iterate first equation dim its frame :: ts) := by
  refine .of_result [] (fun s s' new hstep => ?_) h
  simp only [step, result_bind, result_get, proceed_ok, result_modify] at hstep
  split at hstep <;> cases hstep
  rfl

lemma Halts.emit (h : Halts α p columns (.code rest :: ts)) {token : CodeToken}
    (htoken : ∀ s s' : State α, ∀ new, result (Walk.token p columns token rest) s = (.ok new, s') →
      new = [.code rest]) :
    Halts α p columns (.code (token :: rest) :: ts) := .of_result [.code rest] htoken h

lemma Halts.header (h : Halts α p columns (.code rest :: ts)) (header : Header) :
    Halts α p columns (.code (header.tokens ++ rest) :: ts) := by
  cases header with
  | bare => exact h
  | fixed op | list op count => exact h.emit (by rintro _ _ _ ⟨⟩; rfl)

lemma Halts.head (h : Halts α p columns (.code rest :: ts)) (fn : Function) (count : Nat) :
    Halts α p columns (.code (fn.head count ++ rest) :: ts) := by
  unfold Function.head
  cases fn.keyword? with
  | some k => exact h.header (k.header count)
  | none => exact h.header (.fixed fn.opcode)

lemma Halts.param (h : Halts α p columns (.code rest :: ts)) (name : String) (isVariable : Bool)
    (subs : List Subscript) : Halts α p columns (.code (.param name isVariable subs :: rest) :: ts) := by
  refine h.emit fun s s' new hstep => ?_
  simp only [token, result_bind, result_get, proceed_ok] at hstep
  split at hstep
  · cases hstep
    rfl
  · cases hstep

lemma tasks_of_loop {keyword : Keyword} {dim : String} {body : List CodeToken} {s s' : State α} {new : List Task}
    (h : result (loop p columns keyword dim body) s = (.ok new, s')) :
    new = [] ∨ ∃ (equation : String) (its : List Iteration) (outer : Option Nat) (frame : Frame),
      new = its.zipIdx.flatMap (fun (_, i) => [.iterate (i == 0) equation dim its frame, .code body]) ++
        [.finish equation dim outer frame] := by
  rw [loop, result_bind] at h
  rcases hits : result (iterations p columns dim) s with ⟨e | its, s₁⟩ <;> rw [hits] at h
  · cases h
  · rw [proceed_ok, result_bind, result_get, proceed_ok] at h
    by_cases hempty : its.isEmpty
    · simp only [hempty, if_true] at h
      split at h <;> cases h
      exact .inl rfl
    · simp only [hempty] at h
      rcases hemit : result (emitAll (keyword.header its.length).instrs) s₁ with ⟨e | ⟨⟩, s₂⟩
      all_goals
        simp only [Bool.false_eq_true, if_false, result_bind, hemit] at h
        cases h
      exact .inr ⟨_, its, _, _, rfl⟩

lemma Halts.iterations {body : List CodeToken} (hbody : ∀ ts, Halts α p columns ts →
    Halts α p columns (.code body :: ts))
    (h : Halts α p columns ts) (equation dim : String) (its : List Iteration) (frame : Frame)
    (todo : List (Iteration × Nat)) : Halts α p columns
      (todo.flatMap (fun (_, i) => [.iterate (i == 0) equation dim its frame, .code body]) ++ ts) := by
  induction todo with
  | nil => exact h
  | cons it todo ih => exact (hbody _ ih).iterate _ equation dim its frame

lemma Halts.loop (h : Halts α p columns (.code rest :: ts)) {body : List CodeToken} {span : Span}
    (hspan : span.length.toNat = body.length)
    (hbody : ∀ ts, Halts α p columns ts → Halts α p columns (.code body :: ts)) (keyword : Keyword) (dim : String)
    (level : Nat) : Halts α p columns (.code (.loop keyword dim level span :: (body ++ rest)) :: ts) := by
  refine .of_step fun s s' new hstep => ?_
  rw [result_loopStep keyword dim level hspan rest s] at hstep
  rcases hloop : result (Walk.loop p columns keyword dim body) s with ⟨e | tasks, s₁⟩
  · rw [hloop] at hstep
    cases hstep
  · rw [hloop] at hstep
    cases hstep
    rw [List.append_assoc]
    rcases tasks_of_loop hloop with rfl | ⟨equation, its, outer, frame, rfl⟩
    · exact h
    · rw [List.append_assoc]
      exact (h.finish equation dim outer frame).iterations hbody equation dim its frame its.zipIdx

variable (α p columns) in
def ReferenceHalts (name : String) : Prop := ∀ rest ts, Halts α p columns (.code rest :: ts) →
  Halts α p columns (.code (.equation name :: rest) :: ts)

mutual

theorem halts_expr (k : Nat) {rest : List CodeToken} {ts : List Task} : (e : Expr) →
    e.ForRefs (ReferenceHalts α p columns) → Halts α p columns (.code rest :: ts) →
    Halts α p columns (.code (e.code k ++ rest) :: ts)
  | .number .., _, h => h.emit (by rintro _ _ _ ⟨⟩; rfl)
  | .param _ name isVariable subs, _, h => h.param name isVariable subs
  | .equation .., hrefs, h => hrefs _ _ h
  | .negate _ _ arg, hrefs, h => (halts_expr (k + 1) arg hrefs h).emit (by rintro _ _ _ ⟨⟩; rfl)
  | .binary _ _ _ lhs rhs, hrefs, h => by
    simp only [Expr.code, List.cons_append, List.append_assoc]
    exact (halts_expr (k + 1) lhs hrefs.1 (halts_expr _ rhs hrefs.2 h)).emit (by rintro _ _ _ ⟨⟩; rfl)
  | .group _ arg, hrefs, h => halts_expr k arg hrefs h
  | .call _ fn _ _ _ args, hrefs, h => by
    simp only [Expr.code, List.append_assoc]
    exact (halts_args _ args hrefs h).head fn args.length
  | .loop _ keyword dim _ level _ arg, hrefs, h => by
    refine h.loop (length_bodySpan k _) (fun ts hts => ?_) keyword dim level
    have hbody := halts_expr (k + 1) arg hrefs hts.nil
    rwa [List.append_nil] at hbody

theorem halts_args (k : Nat) {rest : List CodeToken} {ts : List Task} : (es : List Expr) →
    ArgumentsForRefs (ReferenceHalts α p columns) es → Halts α p columns (.code rest :: ts) →
    Halts α p columns (.code (argumentCode k es ++ rest) :: ts)
  | [], _, h => h
  | e :: es, hrefs, h => by
    simp only [argumentCode, List.append_assoc]
    exact halts_expr k e hrefs.1 (halts_args _ es hrefs.2 h)

end

lemma referenceHalts_of_code {name : String} (h : ∀ {code ts}, p.codes.get? name = some code → Halts α p columns ts →
    Halts α p columns (.code code.tokens :: ts)) : ReferenceHalts α p columns name := by
  intro rest ts hrest
  refine .of_step fun s s' new hstep => ?_
  cases hcode : p.codes.get? name with
  | none =>
    simp only [step, token, hcode] at hstep
    cases hstep
  | some code =>
    simp only [step, token, hcode, result_bind, result_get, proceed_ok, result_pure] at hstep
    cases hstep
    exact (h hcode (hrest.leave _)).enter name

theorem halts_equation (hp : p.Indexed) {depth : Nat} {name : String} (hg : p.Grounded depth name) {code : Code}
    {ts : List Task} (hcode : p.codes.get? name = some code) (h : Halts α p columns ts) :
    Halts α p columns (.code code.tokens :: ts) := by
  induction depth generalizing name code ts with
  | zero => exact hg.elim
  | succ depth ih =>
    obtain ⟨e, he, hrefs⟩ := hg
    rw [hp.get?_codes, he, Option.map_some] at hcode
    cases hcode
    have hbody := halts_expr 0 e (hrefs.imp fun r hr => referenceHalts_of_code (ih hr)) h.nil
    rwa [List.append_nil] at hbody

lemma Ends.result_run {start : Scope} {there : Place} {tasks : List Task} {n : Nat} {s s' : State α}
    {r : Except Fault Unit} (h : Ends p columns start there tasks [] n s s' r) (fuel : Nat) :
    result (run p columns (fuel + n) tasks) s = (r, s') := by
  cases r with
  | error e => exact h fuel
  | ok _ =>
    rw [h.2, run]
    rfl

theorem finishes_walk (hp : p.Indexed) {name : String} {code : Code} (hcode : p.codes.get? name = some code)
    {frame : Frame} (hb : frame.rows.length ≤ p.catalog.table.rows.length) (scope : Scope) (memo : Catalog.Memo) :
    ∃ r, ∃ s' : State α, Finishes p columns [.code code.tokens] ⟨scope.restore frame, memo, []⟩ r s' ∧
      result (p.walk columns name code.tokens) ⟨scope.restore frame, memo, []⟩ = (r, s') := by
  obtain ⟨e, he, rfl⟩ := Option.map_eq_some_iff.mp (hp.get?_codes name ▸ hcode)
  have hhalts : Halts α p columns [.code (e.code 0)] :=
    halts_equation hp (hp.grounded (hp.get?_trees.mp he).1) hcode halts_nil
  obtain ⟨r, s', hfin⟩ := hhalts ⟨scope.restore frame, memo, []⟩
  refine ⟨r, s', hfin, ?_⟩
  -- More steps change nothing for the walk, and with enough of them it ends as the work list does.
  obtain ⟨n, hn⟩ := hfin.result_run
  have hsim : Simulates p columns scope ⟨frame, []⟩ ⟨frame, []⟩ [.code (e.code 0)] [] _
      (expandEquation (α := α) p columns p.trees.length name _) := simulates_walk hp he (Nat.le_refl _) hb
  obtain ⟨m, hm, s'', -, hends⟩ := hsim ⟨rfl, fun _ _ => rfl⟩
    (⟨rfl, .nil⟩ : Follows scope ⟨scope.restore frame, memo, []⟩ ⟨memo, []⟩)
  obtain ⟨extra, hextra⟩ := Nat.exists_eq_add_of_le' hm
  have hmore := hends.result_run n
  rw [Nat.add_comm, hn] at hmore
  rw [Program.walk, hextra]
  exact (hends.result_run extra).trans hmore.symm

end Walk

/-- Equations with an index do not reach themselves, and every walk that generation starts ends. -/
theorem Index.build_excludes_cycles {α : Type} [Scalar α] (s : Settings) :
    (∀ ix, build s = .ok ix → ∀ name, ¬ s.ReachesItself name) ∧
    (∀ name, s.ReachesItself name → ∃ f, build s = .error f) ∧
    (∀ f, build s = .error f → Blames s f) ∧
    build s = buildUnbounded s ∧
    ∀ t condition p memo, Program.make s t condition = .ok (p, memo) →
      ∀ (name : String) (template : Segment α) entry code groups, p.groupsOf name template = .ok (entry, code, groups) →
      ∀ group ∈ groups, ∀ (base : Frame) (scope : Scope) (memo : Catalog.Memo), ∃ r, ∃ s' : Walk.State α,
        Walk.Finishes p entry.columns [.code code.tokens]
          ⟨scope.restore ⟨entry.name, base.bindings ++ group.1, group.2⟩, memo, []⟩ r s' ∧
        (p.walk entry.columns entry.name code.tokens).run
          ⟨scope.restore ⟨entry.name, base.bindings ++ group.1, group.2⟩, memo, []⟩ = (r, s') := by
  refine ⟨fun ix h => not_reachesItself_of_build h, fun name hname => ?_, fun f h => blames_of_build h,
    build_eq_unbounded s, ?_⟩
  · cases h : build s with
    | ok ix => exact absurd hname (not_reachesItself_of_build h name)
    | error f => exact ⟨f, rfl⟩
  · intro t condition p memo hmake name template entry code groups hgroups group hgroup base scope memo'
    have hp := Program.make_indexed hmake
    obtain ⟨hentry, hcode, -⟩ := Program.groupsOf_eq_ok hgroups
    obtain ⟨-, rfl⟩ := hp.entry_name hentry
    exact Walk.finishes_walk hp hcode (Program.length_groupsOf hgroups hgroup) scope memo'

def mutualReferences : Settings where
  options := ["forest"]
  equations := [("cost", "gain + 1"), ("gain", "cost * 2")]

theorem mutual_references_refused :
    (mutualReferences.ReachesItself "cost" ∧ ∃ f, Index.build mutualReferences = .error f) ∧
    ∃ p memo entry code groups, Program.make nestedSums ⟨"units", [], []⟩ "" = .ok (p, memo) ∧
      p.groupsOf "twice" nestedSegment = .ok (entry, code, groups) ∧ groups ≠ [] ∧
      ∀ group ∈ groups, ∃ r s', Walk.Finishes p entry.columns [.code code.tokens]
        ⟨staleCounter.scope.restore ⟨entry.name, group.1, group.2⟩, memo, []⟩ r s' ∧
        (p.walk entry.columns entry.name code.tokens).run
          ⟨staleCounter.scope.restore ⟨entry.name, group.1, group.2⟩, memo, []⟩ = (r, (s' : Walk.State Float)) := by
  constructor
  · have hrefers (a b : String) (h : (parseNamed mutualReferences.symbols mutualReferences.equations a).toOption.any
        (·.references.contains b) = true) : mutualReferences.Refers a b := by
      obtain ⟨e, he, hb⟩ := exists_of_any h
      exact ⟨e, he, List.contains_iff_mem.mp hb⟩
    have hcycle : mutualReferences.ReachesItself "cost" :=
      .tail (.single (hrefers "cost" "gain" (by decide +kernel))) (hrefers "gain" "cost" (by decide +kernel))
    exact ⟨hcycle, (Index.build_excludes_cycles (α := Float) mutualReferences).2.1 "cost" hcycle⟩
  · have hrun : (Program.make nestedSums ⟨"units", [], []⟩ "").toOption.any (fun x =>
        (x.1.groupsOf "twice" nestedSegment).toOption.any (!·.2.2.isEmpty)) = true := by decide +kernel
    obtain ⟨⟨p, memo⟩, hmake, hrun⟩ := exists_of_any hrun
    obtain ⟨⟨entry, code, groups⟩, hgroups, hrun⟩ := exists_of_any hrun
    have hends := (Index.build_excludes_cycles nestedSums).2.2.2.2 _ _ p memo hmake "twice" nestedSegment entry code
      groups hgroups
    exact ⟨p, memo, entry, code, groups, hmake, hgroups, by simpa using hrun,
      fun group hgroup => hends group hgroup {} staleCounter.scope memo⟩

end LandUse
