import LandUse.Linear.Rows
import LandUse.Nl.Bodies
import LandUse.Proofs.Expansion.Rules

/-! The instructions of a finished segment are one complete expression, so its fold leaves a single form. -/

namespace LandUse

open Outcome Direct

variable {α σ : Type}

/-- `Expressions n code`: the code is `n` complete expressions, one after the other. -/
inductive Expressions : Nat → List (Instr α) → Prop
  | none : Expressions 0 []
  | num {n : Nat} {code : List (Instr α)} (c : α) : Expressions n code → Expressions (n + 1) (.num c :: code)
  | var {n : Nat} {code : List (Instr α)} {k : Int} : 0 ≤ k → Expressions n code → Expressions (n + 1) (.var k :: code)
  | op {n count : Nat} {args code : List (Instr α)} {op : Opcode} : op.arity = .fixed count →
      Expressions count args → Expressions n code → Expressions (n + 1) (.op op :: (args ++ code))
  | list {n count : Nat} {args code : List (Instr α)} {op : Opcode} : op.arity = .list → 1 ≤ count →
      Expressions count args → Expressions n code → Expressions (n + 1) (.list op count :: (args ++ code))

namespace Expressions

variable {m n : Nat} {code code' : List (Instr α)}

lemma append (h : Expressions m code) (h' : Expressions n code') : Expressions (m + n) (code ++ code') := by
  induction h with
  | none => rwa [Nat.zero_add]
  | num c _ ih =>
    rw [Nat.add_right_comm]
    exact .num c ih
  | var hk _ ih =>
    rw [Nat.add_right_comm]
    exact .var hk ih
  | op hop hargs _ _ ih =>
    rw [Nat.add_right_comm, List.cons_append, List.append_assoc]
    exact .op hop hargs ih
  | list hop hcount hargs _ _ ih =>
    rw [Nat.add_right_comm, List.cons_append, List.append_assoc]
    exact .list hop hcount hargs ih

lemma flatten {β : Type} {bs : List β} {codes : List (List (Instr α))} (hlength : bs.length = codes.length)
    (h : ∀ a ∈ bs.zip codes, Expressions 1 a.2) : Expressions bs.length codes.flatten := by
  have hall : List.Forall₂ (fun _ code => Expressions 1 code) bs codes :=
    List.forall₂_iff_zip.2 ⟨hlength, fun ha => h _ ha⟩
  clear hlength h
  induction hall with
  | nil => exact .none
  | cons hcode _ ih =>
    rw [List.length_cons, Nat.add_comm]
    exact hcode.append ih

lemma number (c : α) : Expressions 1 [.num c] := .num c .none

variable {op : Opcode}

lemma operation (hop : op.arity = .fixed n) (h : Expressions n code) : Expressions 1 (.op op :: code) := by
  have hone := Expressions.op hop h .none
  rwa [List.append_nil] at hone

lemma listing (hop : op.arity = .list) (hn : 1 ≤ n) (h : Expressions n code) :
    Expressions 1 (.list op n :: code) := by
  have hone := Expressions.list hop hn h .none
  rwa [List.append_nil] at hone

lemma header (k : Keyword) (hn : 1 ≤ n) (h : Expressions n code) :
    Expressions 1 ((k.header n).instrs ++ code) := by
  rcases k.header_cases n with ⟨rfl, hheader⟩ | ⟨rfl, -, hheader⟩ | hheader
  · rwa [hheader]
  · rw [hheader]
    exact operation rfl h
  · rw [hheader]
    exact listing (by cases k <;> rfl) hn h

lemma call {fn : Function} (hargs : fn.accepts n = true) (h : Expressions n code) :
    Expressions 1 (callHead fn n ++ code) := by
  unfold callHead
  split
  · have hn : 1 ≤ n := by
      rw [Function.accepts, Bool.and_eq_true, decide_eq_true_eq] at hargs
      have hmin : 1 ≤ fn.minArgs := by cases fn <;> decide
      omega
    exact header _ hn h
  · rename_i hk
    have harity : fn.opcode.arity = .fixed fn.minArgs ∧ fn.maxArgs? = some fn.minArgs := by
      cases fn <;> first | exact ⟨rfl, rfl⟩ | cases hk
    simp only [Function.accepts, harity.2, Bool.and_eq_true, decide_eq_true_eq] at hargs
    have hmin : fn.minArgs = n := by omega
    exact operation (hmin ▸ harity.1) h

lemma arity_of_list (h : Expressions n code) {count : Nat} (hop : .list op count ∈ code) : op.arity = .list := by
  induction h with
  | none => cases hop
  | num _ _ ih | var _ _ ih => exact ih (by simpa using hop)
  | op _ _ _ ihargs ih =>
    rcases List.mem_append.1 (by simpa using hop) with hop | hop
    · exact ihargs hop
    · exact ih hop
  | list harity _ _ _ ihargs ih =>
    rcases List.mem_cons.1 hop with heq | hop
    · cases heq
      exact harity
    · rcases List.mem_append.1 hop with hop | hop
      · exact ihargs hop
      · exact ih hop

lemma first (h : Expressions (n + 1) code) : ∃ a b, code = a ++ b ∧ Expressions 1 a ∧ Expressions n b := by
  cases h with
  | num c h => exact ⟨[_], _, rfl, .number c, h⟩
  | var hk h => exact ⟨[_], _, rfl, .var hk .none, h⟩
  | op hop hargs h => exact ⟨_ :: _, _, rfl, .operation hop hargs, h⟩
  | list hop hcount hargs h => exact ⟨_ :: _, _, rfl, .listing hop hcount hargs, h⟩

end Expressions

namespace Direct

variable [Scalar α] {p : Program} {columns : List String}

lemma expression_reference {frame : Frame} {name : String} {isVariable : Bool} {subs : List Subscript} {i : Instr α}
    (h : p.reference frame columns name isVariable subs = .ok i) : Expressions 1 [i] := by
  have hplain := plain_reference h
  unfold Program.reference at h
  split at h
  · simp only [bind_eq_ok] at h
    obtain ⟨values, -, k, -, h⟩ := h
    cases h
    exact .var hplain.1 .none
  · rw [bind_eq_ok] at h
    obtain ⟨c, -, h⟩ := h
    cases h
    exact .number c

theorem Expands.expression {frame : Frame} {e : Formula} {code : List (Instr α)} (h : Expands p columns frame e code) :
    Expressions 1 code := by
  induction h with
  | number => exact .number _
  | reference hi => exact expression_reference hi
  | equation _ _ ih => exact ih
  | negate _ ih => exact .operation rfl ih
  | @binary _ op _ _ _ _ _ _ ihl ihr => exact .operation (by cases op <;> rfl) (ihl.append ihr)
  | call hargs hlength _ ih => exact .call hargs (.flatten hlength ih)
  | empty => exact .number _
  | loop _ hits hlength _ ih => exact .header _ hits (.flatten hlength ih)

lemma expression_of_expansion (hp : p.Indexed) {depth : Nat} {name : String} {frame : Frame} {memo : Catalog.Memo}
    {t : Trace α} (h : expansion p columns depth name frame memo = (.ok (), t)) :
    Expressions 1 (t.marks.reverse.map (·.instr)) := by
  obtain ⟨_, -, hcode⟩ := expands_of_expansion hp h
  exact hcode.expression

end Direct

def FoldError.OfValues : FoldError → Prop
  | .operands .. | .missing | .operation (.operandCount ..) | .operation (.noOperand _) => False
  | _ => True

section Fold

variable [Scalar α]

omit [Scalar α] in
lemma Opcode.arity_cases (op : Opcode) : op.arity = .list ∨ op.arity = .fixed 1 ∨ op.arity = .fixed 2 := by
  cases op <;> simp [Opcode.arity]

def Opcode.Takes (op : Opcode) (n : Nat) : Prop := op.arity = .list ∧ 1 ≤ n ∨ op.arity = .fixed n

variable {op : Opcode} {n : Nat} {code : List (Instr α)}

lemma opcode_apply_ofValues {args : List α} {e : ApplyError} (h : op.apply args = .error e)
    (hop : op.Takes args.length) : (FoldError.operation e).OfValues := by
  rcases op.arity_cases with harity | harity | harity
  · obtain ⟨x, xs, rfl⟩ : ∃ x xs, args = x :: xs :=
      List.exists_cons_of_length_pos (by simpa [Opcode.Takes, harity, Nat.succ_le_iff] using hop)
    simp only [Opcode.apply, harity, Opcode.applyList] at h
    split at h <;> cases h
    trivial
  · obtain ⟨x, rfl⟩ : ∃ x, args = [x] := List.length_eq_one_iff.1 (by simpa [Opcode.Takes, harity, eq_comm] using hop)
    simp only [Opcode.apply, harity, Opcode.applyUnary] at h
    split at h <;> cases h
    trivial
  · obtain ⟨x, y, rfl⟩ : ∃ x y, args = [x, y] :=
      List.length_eq_two.1 (by simpa [Opcode.Takes, harity, eq_comm] using hop)
    simp only [Opcode.apply, harity, Opcode.applyBinary] at h
    repeat' split at h
    all_goals cases h
    all_goals trivial

lemma applyUnknown_ofValues {args : List (LinearForm α)} {e : FoldError}
    (h : LinearForm.applyUnknown op args = .error e) (hop : op.Takes args.length) : e.OfValues := by
  have htwo : op.arity = .fixed 2 → ∃ p q, args = [p, q] := by
    intro harity
    exact List.length_eq_two.1 (by simpa [Opcode.Takes, harity, eq_comm] using hop)
  unfold LinearForm.applyUnknown at h
  split at h
  case h_5 =>
    unfold LinearForm.multiply at h
    split at h <;> cases h
    trivial
  case h_6 =>
    unfold LinearForm.divide at h
    repeat' split at h
    all_goals cases h
    all_goals trivial
  case h_7 =>
    unfold LinearForm.power at h
    repeat' split at h
    all_goals cases h
    all_goals trivial
  case h_8 hargs | h_9 hargs | h_10 hargs | h_11 hargs =>
    obtain ⟨p, q, rfl⟩ := htwo rfl
    exact absurd rfl (hargs p q [])
  all_goals cases h
  trivial

omit [Scalar α] in
lemma LinearForm.length_constants {ps : List (LinearForm α)} {cs : List α} (h : ps.mapM constant? = some cs) :
    cs.length = ps.length := by
  induction ps generalizing cs with
  | nil => simp_all
  | cons p ps ih =>
    rw [List.mapM_cons] at h
    simp only [Option.bind_eq_bind, Option.bind_eq_some_iff, Option.pure_def, Option.some.injEq] at h
    obtain ⟨c, -, ds, hds, rfl⟩ := h
    rw [List.length_cons, List.length_cons, ih hds]

lemma apply_ofValues {args : List (LinearForm α)} {e : FoldError} (h : LinearForm.apply op args = .error e)
    (hop : op.Takes args.length) : e.OfValues := by
  unfold LinearForm.apply at h
  split at h
  · rename_i cs hcs
    split at h <;> cases h
    refine opcode_apply_ofValues ‹_› ?_
    rwa [LinearForm.length_constants hcs]
  · exact applyUnknown_ofValues h hop

lemma foldInstrs_apply_eq {stack : FormStack α} (hn : n ≤ stack.length) :
    foldInstrs.apply stack op n = (LinearForm.apply op (stack.take n)).map (· :: stack.drop n) := by
  have hstack : ¬ (stack.length : Int) < n := by omega
  have hpos : ¬ (n : Int) < 0 := by omega
  simp only [foldInstrs.apply, FormStack.apply, hstack, hpos, if_false, Int.toNat_natCast]
  cases LinearForm.apply op (stack.take n) <;> rfl

inductive Folds (n : Nat) (code rest : List (Instr α)) : Prop
  | before {e : FoldError} : foldInstrs rest = .error e → foldInstrs (code ++ rest) = .error e → Folds n code rest
  | refused {e : FoldError} : e.OfValues → foldInstrs (code ++ rest) = .error e → Folds n code rest
  | pushed (ps : FormStack α) {stack : FormStack α} : ps.length = n → foldInstrs rest = .ok stack →
      foldInstrs (code ++ rest) = .ok (ps ++ stack) → Folds n code rest

lemma Folds.operation {count : Nat} {i : Instr α} {args rest : List (Instr α)}
    (hi : i = .op op ∧ op.arity = .fixed count ∨ i = .list op count ∧ op.arity = .list ∧ 1 ≤ count)
    (hargs : Folds count args (code ++ rest)) (h : Folds n code rest) : Folds (n + 1) (i :: (args ++ code)) rest := by
  have hstep : foldInstrs (i :: (args ++ code) ++ rest) =
      foldInstrs (args ++ (code ++ rest)) >>= fun stack => foldInstrs.apply stack op count := by
    rw [List.cons_append, List.append_assoc, foldInstrs]
    rcases hi with ⟨rfl, harity⟩ | ⟨rfl, -⟩
    · simp only [harity]
    · rfl
  have htakes : op.Takes count := by
    rcases hi with ⟨-, harity⟩ | ⟨-, harity⟩
    · exact .inr harity
    · exact .inl harity
  cases hargs with
  | before hcode hall =>
    rw [hall] at hstep
    cases h with
    | before hrest hcode' =>
      obtain rfl := Except.error.inj (hcode.symm.trans hcode')
      exact .before hrest hstep
    | refused he hcode' =>
      obtain rfl := Except.error.inj (hcode.symm.trans hcode')
      exact .refused he hstep
    | pushed _ _ _ hcode' => cases hcode.symm.trans hcode'
  | refused he hall =>
    rw [hall] at hstep
    exact .refused he hstep
  | @pushed qs stack hqs hcode hall =>
    have hcount : count ≤ (qs ++ stack).length := by
      rw [List.length_append]
      omega
    rw [hall, ok_bind, foldInstrs_apply_eq hcount, ← hqs, List.take_left, List.drop_left] at hstep
    cases hp : LinearForm.apply op qs with
    | error e =>
      rw [hp] at hstep
      exact .refused (apply_ofValues hp (hqs ▸ htakes)) hstep
    | ok p =>
      rw [hp] at hstep
      cases h with
      | before _ hcode' => cases hcode.symm.trans hcode'
      | refused _ hcode' => cases hcode.symm.trans hcode'
      | @pushed ps stack' hps hrest hcode' =>
        obtain rfl := Except.ok.inj (hcode.symm.trans hcode')
        exact .pushed (p :: ps) (congrArg (· + 1) hps) hrest hstep

lemma Folds.push {i : Instr α} {rest : List (Instr α)} {p : LinearForm α}
    (hi : foldInstrs (i :: (code ++ rest)) = foldInstrs (code ++ rest) >>= fun stack => .ok (p :: stack))
    (h : Folds n code rest) : Folds (n + 1) (i :: code) rest := by
  rw [← List.cons_append] at hi
  cases h with
  | before hrest hcode =>
    rw [hcode] at hi
    exact .before hrest hi
  | refused he hcode =>
    rw [hcode] at hi
    exact .refused he hi
  | @pushed ps stack hps hrest hcode =>
    rw [hcode] at hi
    exact .pushed (p :: ps) (congrArg (· + 1) hps) hrest hi

theorem Expressions.folds (h : Expressions n code) (rest : List (Instr α)) : Folds n code rest := by
  induction h generalizing rest with
  | none =>
    cases hrest : foldInstrs rest with
    | error e => exact .before hrest hrest
    | ok stack => exact .pushed [] rfl hrest hrest
  | num c _ ih => exact (ih rest).push (p := .ofConstant c) rfl
  | var _ _ ih => exact (ih rest).push (p := .ofVariable _) rfl
  | op hop _ _ ihargs ih => exact .operation (.inl ⟨rfl, hop⟩) (ihargs _) (ih rest)
  | list hop hcount _ _ ihargs ih => exact .operation (.inr ⟨rfl, hop, hcount⟩) (ihargs _) (ih rest)

lemma Expressions.form (h : Expressions 1 code) (label : String) :
    (∃ p, RowSink.form label code = .ok p) ∨
      ∃ e : FoldError, e.OfValues ∧ RowSink.form label code = .error (.failure (.dimension label e.message)) := by
  have hfold := h.folds []
  rw [← List.append_nil code]
  unfold RowSink.form
  cases hfold with
  | before hnil _ => exact nomatch hnil
  | refused he hcode =>
    rw [hcode]
    refine .inr ⟨_, he, ?_⟩
    split
    · rename_i heq
      cases heq
      exact False.elim he
    all_goals
      rename_i heq
      cases heq
    rfl
  | pushed ps hps hnil hcode =>
    obtain ⟨p, rfl⟩ := List.length_eq_one_iff.1 hps
    cases hnil
    rw [hcode]
    exact .inl ⟨p, rfl⟩

end Fold

lemma Expressions.body [Scalar α] {code : List (Instr α)} (h : Expressions 1 code) (s : Nl.BodySink α)
    (segment : Segment α) : Expressions 1 (s.body segment code).code := by
  unfold Nl.BodySink.body
  split
  · exact h
  · unfold Nl.BodySink.weightCode
    split
    · exact h
    · exact .operation (n := 2) rfl (.num _ h)

def Sink.logged (sink : Sink α σ) : Sink α (σ × List (Segment α × List (Instr α))) where
  receive s segment code complete :=
    let (outcome, state) := sink.receive s.1 segment code complete
    (outcome, state, if complete then s.2 ++ [(segment, code.map (·.instr))] else s.2)

section Logged

variable [Scalar α] {p : Program} (sink : Sink α σ) {entry : IndexEntry} (template : Segment α)
  (base : Frame) {e : Expr}

def logging {β : Type} (r : Except Fault β × Generation σ) (log : List (Segment α × List (Instr α))) :
    Except Fault β × Generation (σ × List (Segment α × List (Instr α))) :=
  (r.1, ⟨r.2.scope, r.2.memo, r.2.sink, log⟩)

lemma generateGroup_logged (hp : p.Indexed) (he : p.trees.get? entry.name = some e) (bindings : List Binding)
    {rows : List Row} (hb : rows.length ≤ p.catalog.table.rows.length) (g : Generation σ)
    (log : List (Segment α × List (Instr α))) (hlog : ∀ x ∈ log, Expressions 1 x.2) :
    ∃ log', (∀ x ∈ log', Expressions 1 x.2) ∧
      p.generateGroup sink.logged entry (Code.ofExpr entry.name e) template base bindings rows
        ⟨g.scope, g.memo, g.sink, log⟩ =
          logging (p.generateGroup sink entry (Code.ofExpr entry.name e) template base bindings rows g) log' := by
  obtain ⟨s, hwalk, hs, -⟩ := Walk.result_walk (α := α) hp entry.columns he (Nat.le_refl _)
    (show (⟨entry.name, base.bindings ++ bindings, rows⟩ : Frame).rows.length ≤ _ from hb) g.scope g.memo
  have hinstrs := Walk.instrs_of_records (List.forall₂_reverse_iff.mpr hs.emitted)
  rcases hx : expansion (α := α) p entry.columns p.trees.length entry.name
    ⟨entry.name, base.bindings ++ bindings, rows⟩ g.memo with ⟨r, t⟩
  rw [hx] at hwalk hinstrs
  rcases hreceive : sink.receive g.sink (template.forGroup bindings) s.emitted.reverse r.toBool with ⟨received, state⟩
  have hlogged : sink.logged.receive (g.sink, log) (template.forGroup bindings) s.emitted.reverse r.toBool =
      (received, state, if r.toBool then log ++ [(template.forGroup bindings, t.marks.reverse.map (·.instr))]
        else log) := by
    simp only [Sink.logged, hreceive, hinstrs]
  rw [generateGroup_eq sink template base _ hwalk hreceive,
    generateGroup_eq sink.logged template base _ (g := ⟨g.scope, g.memo, g.sink, log⟩) hwalk hlogged]
  refine ⟨_, ?_, rfl⟩
  cases r with
  | error e => exact hlog
  | ok _ =>
    refine List.forall_mem_append.mpr ⟨hlog, ?_⟩
    rw [List.forall_mem_singleton]
    exact expression_of_expansion hp hx

lemma generateGroups_logged (hp : p.Indexed) (he : p.trees.get? entry.name = some e)
    {groups : List (List Binding × List Row)} (hb : ∀ group ∈ groups, group.2.length ≤ p.catalog.table.rows.length)
    (g : Generation σ) (log : List (Segment α × List (Instr α))) (hlog : ∀ x ∈ log, Expressions 1 x.2) :
    ∃ log', (∀ x ∈ log', Expressions 1 x.2) ∧
      p.generateGroups sink.logged entry (Code.ofExpr entry.name e) template base groups
        ⟨g.scope, g.memo, g.sink, log⟩ =
          logging (p.generateGroups sink entry (Code.ofExpr entry.name e) template base groups g) log' := by
  induction groups generalizing g log with
  | nil => exact ⟨log, hlog, rfl⟩
  | cons group groups ih =>
    obtain ⟨bindings, rows⟩ := group
    obtain ⟨hrows, hb⟩ := List.forall_mem_cons.mp hb
    obtain ⟨log₁, hlog₁, hgroup⟩ := generateGroup_logged sink template base hp he bindings hrows g log hlog
    unfold Program.generateGroups
    rw [hgroup]
    rcases p.generateGroup sink entry (Code.ofExpr entry.name e) template base bindings rows g with ⟨e | ⟨⟩, g₁⟩
    · exact ⟨log₁, hlog₁, rfl⟩
    · exact ih hb g₁ log₁ hlog₁

end Logged

/-- The segments that a sink receives to their end are complete expressions. -/
theorem completed_segments_whole [Scalar α] (p : Program) (hp : p.Indexed) (sink : Sink α σ) (name : String)
    (template : Segment α) (g : Generation σ) :
    ∃ log, p.generate sink.logged name template ⟨g.scope, g.memo, g.sink, []⟩ =
        logging (p.generate sink name template g) log ∧
      ∀ segment code, (segment, code) ∈ log → Expressions 1 code ∧
        (∀ label, (∃ form, RowSink.form label code = .ok form) ∨ ∃ cause : FoldError, cause.OfValues ∧
          RowSink.form label code = .error (.failure (.dimension label cause.message))) ∧
        ∀ bodies : Nl.BodySink α, Expressions 1 (bodies.body segment code).code := by
  suffices h : ∃ log : List (Segment α × List (Instr α)), (∀ x ∈ log, Expressions 1 x.2) ∧
      p.generate sink.logged name template ⟨g.scope, g.memo, g.sink, []⟩ =
        logging (p.generate sink name template g) log by
    obtain ⟨log, hlog, hgenerate⟩ := h
    refine ⟨log, hgenerate, fun segment code hmem => ?_⟩
    have hcode : Expressions 1 code := hlog _ hmem
    exact ⟨hcode, hcode.form, fun bodies => hcode.body bodies segment⟩
  unfold Program.generate
  cases hgroups : p.groupsOf name template with
  | error e => exact ⟨[], List.forall_mem_nil _, rfl⟩
  | ok x =>
    obtain ⟨entry, code, groups⟩ := x
    obtain ⟨hentry, hcode, -⟩ := Program.groupsOf_eq_ok hgroups
    obtain ⟨-, rfl⟩ := hp.entry_name hentry
    rw [hp.get?_codes, Option.map_eq_some_iff] at hcode
    obtain ⟨e, he, rfl⟩ := hcode
    obtain ⟨log, hlog, hrun⟩ := generateGroups_logged sink template g.scope.frame hp he
      (fun group hgroup => Program.length_groupsOf hgroups hgroup) g [] (List.forall_mem_nil _)
    refine ⟨log, hlog, ?_⟩
    simp only [hrun]
    rfl

def weightedSums : Segment Float := ⟨"twice", .objective .maximize 2, []⟩

theorem nested_sums_whole : ∃ p memo segment code, Program.make nestedSums ⟨"units", [], []⟩ "" = .ok (p, memo) ∧
    (segment, code) ∈ (p.generate counterSink.logged "twice" weightedSums ⟨staleCounter.scope, {}, [], []⟩).2.sink.2 ∧
    code.length = 15 ∧ Expressions 1 code ∧
    ∀ bodies : Nl.BodySink Float, Expressions 1 (bodies.body segment code).code := by
  have hrun : (Program.make nestedSums ⟨"units", [], []⟩ "").toOption.any (fun x =>
      (x.1.generate counterSink.logged "twice" weightedSums ⟨staleCounter.scope, {}, [], []⟩).2.sink.2.head?.any
        (·.2.length == 15)) = true := by decide +kernel
  obtain ⟨⟨p, memo⟩, hmake, hrun⟩ := exists_of_any hrun
  obtain ⟨log, hgenerate, hlog⟩ := completed_segments_whole p (Program.make_indexed hmake) counterSink "twice"
    weightedSums ⟨staleCounter.scope, {}, []⟩
  rw [hgenerate] at hrun
  obtain ⟨⟨segment, code⟩, hhead, hlength⟩ := (Option.any_eq_true _ _).1 hrun
  have hmem : (segment, code) ∈ log := List.mem_of_head? hhead
  obtain ⟨hcode, -, hbodies⟩ := hlog segment code hmem
  refine ⟨p, memo, segment, code, hmake, ?_, beq_iff_eq.1 hlength, hcode, hbodies⟩
  rw [hgenerate]
  exact hmem

end LandUse
