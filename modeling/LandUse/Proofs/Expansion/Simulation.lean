import LandUse.Proofs.Expansion.Breadth

/-! The work list does what direct expansion does; counters are compared by what they say. -/

namespace LandUse

namespace Scope

lemma counter?_restore (s : Scope) (f : Frame) (equation dim : String) :
    (s.restore f).counter? equation dim = s.counter? equation dim := rfl

lemma counter?_drop (s : Scope) (equation dim equation' dim' : String) :
    (s.drop equation dim).counter? equation' dim' =
      if (equation', dim') = (equation, dim) then none else s.counter? equation' dim' := by
  unfold counter? drop
  induction s.counters with
  | nil => simp
  | cons c cs ih =>
    obtain ⟨key, n⟩ := c
    by_cases hkey : key = (equation, dim)
    · subst hkey
      by_cases h : (equation', dim') = (equation, dim)
      · simpa [h] using ih
      · simpa [List.lookup_cons, h, beq_false_of_ne h] using ih
    · by_cases h : (equation', dim') = key
      · subst h
        simp [hkey]
      · simpa [List.lookup_cons, hkey, beq_false_of_ne h] using ih

lemma counter?_setCounter (s : Scope) (equation dim : String) (n : Nat) (equation' dim' : String) :
    (s.setCounter equation dim n).counter? equation' dim' =
      if (equation', dim') = (equation, dim) then some n else s.counter? equation' dim' := by
  have hdrop := s.counter?_drop equation dim equation' dim'
  unfold counter? at hdrop ⊢
  unfold setCounter
  rw [List.lookup_cons, hdrop]
  by_cases h : (equation', dim') = (equation, dim)
  · simp [h]
  · simp [h, beq_false_of_ne h]

end Scope

namespace Direct.Place

def during (here : Place) (dim : String) (done : List Iteration) : Place :=
  match done.getLast? with
  | none => here
  | some it => here.inside dim it done.length

end Direct.Place

namespace Walk

open Outcome Direct

variable {α : Type}

structure At (start : Scope) (here : Place) (scope : Scope) : Prop where
  frame : scope.frame = here.frame
  counter : ∀ equation dim,
    scope.counter? equation dim = (here.loops.lookup (equation, dim)).or (start.counter? equation dim)

structure Records (start : Scope) (e : Emission α) (m : Mark α) : Prop where
  instr : e.instr = m.instr
  place : At start m.place e.scope

lemma instrs_of_records {start : Scope} {emitted : List (Emission α)} {marks : List (Mark α)}
    (h : List.Forall₂ (Records start) emitted marks) : emitted.map (·.instr) = marks.map (·.instr) := by
  induction h with
  | nil => rfl
  | cons hr _ ih => rw [List.map_cons, List.map_cons, ih, hr.instr]

structure Follows (start : Scope) (s : State α) (t : Trace α) : Prop where
  memo : s.memo = t.memo
  emitted : List.Forall₂ (Records start) s.emitted t.marks

variable [Scalar α]

def Ends (p : Program) (columns : List String) (start : Scope) (there : Place) (tasks rest : List Task) (n : Nat)
    (s s' : State α) : Except Fault Unit → Prop
  | .ok _ => At start there s'.scope ∧
      ∀ fuel, result (run p columns (fuel + n) tasks) s = result (run p columns fuel rest) s'
  | .error e => ∀ fuel, result (run p columns (fuel + n) tasks) s = (.error e, s')

def Simulates (p : Program) (columns : List String) (start : Scope) (here there : Place) (tasks rest : List Task)
    (bound : Nat) (x : ExpandM α Unit) : Prop :=
  ∀ ⦃s : State α⦄ ⦃t : Trace α⦄, At start here s.scope → Follows start s t →
    ∃ n ≤ bound, ∃ s', Follows start s' (result x t).2 ∧ Ends p columns start there tasks rest n s s' (result x t).1

variable {p : Program} {columns : List String} {start : Scope}

lemma Ends.after {there : Place} {a b rest : List Task} {k n : Nat} {s s₁ s' : State α} {r : Except Fault Unit}
    (hstep : ∀ fuel, result (run p columns (fuel + k) a) s = result (run p columns fuel b) s₁)
    (h : Ends p columns start there b rest n s₁ s' r) : Ends p columns start there a rest (k + n) s s' r := by
  have hsteps : ∀ fuel, result (run p columns (fuel + (k + n)) a) s = result (run p columns (fuel + n) b) s₁ := by
    intro fuel
    rw [← hstep, Nat.add_assoc, Nat.add_comm n k]
  cases r with
  | ok _ => exact ⟨h.1, fun fuel => (hsteps fuel).trans (h.2 fuel)⟩
  | error e => exact fun fuel => (hsteps fuel).trans (h fuel)

lemma Simulates.refl (here : Place) (tasks : List Task) :
    Simulates p columns start here here tasks tasks 0 (pure () : ExpandM α Unit) := by
  intro s t hs ht
  exact ⟨0, Nat.le_refl 0, s, ht, hs, fun _ => rfl⟩

variable {here there yonder : Place} {x : ExpandM α Unit} {a b c : List Task} {m n bound : Nat} {s : State α}
    {done its : List Iteration} {body : List CodeToken} {memo : Catalog.Memo}

lemma Simulates.andThen {y : ExpandM α Unit} (hx : Simulates p columns start here there a b m x)
    (hy : Simulates p columns start there yonder b c n y) :
    Simulates p columns start here yonder a c (m + n) (do x; y) := by
  intro s t hs ht
  obtain ⟨k, hk, s', ht', hs'⟩ := hx hs ht
  rw [result_bind]
  rcases hr : result x t with ⟨e | ⟨⟩, t'⟩
  · rw [hr] at ht' hs'
    exact ⟨k, by omega, s', ht', hs'⟩
  · rw [hr] at ht' hs'
    obtain ⟨l, hl, s'', ht'', hs''⟩ := hy hs'.1 ht'
    exact ⟨k + l, by omega, s'', ht'', hs''.after hs'.2⟩

lemma Simulates.after_silent {y : ExpandM α Unit}
    (hx : Simulates p columns start here there a b m (pure () : ExpandM α Unit))
    (hy : Simulates p columns start there yonder b c n y) : Simulates p columns start here yonder a c (m + n) y := by
  simpa using hx.andThen hy

lemma Simulates.before_silent (hx : Simulates p columns start here there a b m x)
    (hy : Simulates p columns start there yonder b c n (pure () : ExpandM α Unit)) :
    Simulates p columns start here yonder a c (m + n) x := by
  simpa using hx.andThen hy

lemma Simulates.mono (h : Simulates p columns start here there a b m x) (hmn : m ≤ n) :
    Simulates p columns start here there a b n x := by
  intro s t hs ht
  obtain ⟨k, hk, hrest⟩ := h hs ht
  exact ⟨k, Nat.le_trans hk hmn, hrest⟩

lemma result_run (fuel : Nat) (task : Task) (ts : List Task) (s : State α) :
    result (run p columns (fuel + 1) (task :: ts)) s =
      proceed (result (step p columns task) s) fun new s => result (run p columns fuel (new ++ ts)) s := by
  rw [run, result_bind]

lemma Simulates.of_step {here there : Place} {task : Task} (new : List Task) {ts : List Task} {x : ExpandM α Unit}
    (h : ∀ ⦃s : State α⦄ ⦃t : Trace α⦄, At start here s.scope → Follows start s t →
      ∃ s', Follows start s' (result x t).2 ∧
        match (result x t).1 with
        | .ok _ => At start there s'.scope ∧ result (step p columns task) s = (.ok new, s')
        | .error e => result (step p columns task) s = (.error e, s')) :
    Simulates p columns start here there (task :: ts) (new ++ ts) 1 x := by
  intro s t hs ht
  obtain ⟨s', ht', hs'⟩ := h hs ht
  refine ⟨1, Nat.le_refl 1, s', ht', ?_⟩
  cases hr : (result x t).1 with
  | ok _ =>
    rw [hr] at hs'
    exact ⟨hs'.1, fun fuel => by rw [result_run, hs'.2, proceed_ok]⟩
  | error e =>
    rw [hr] at hs'
    exact fun fuel => by rw [result_run, hs', proceed_error]

lemma Simulates.silent {task : Task} {ts : List Task} (f : Scope → Scope)
    (hstep : ∀ s : State α, At start here s.scope → result (step p columns task) s =
      (.ok [], { s with scope := f s.scope }))
    (hplace : ∀ scope, At start here scope → At start there (f scope)) :
    Simulates p columns start here there (task :: ts) ts 1 (pure () : ExpandM α Unit) := by
  refine Simulates.of_step [] fun s t hs ht => ?_
  exact ⟨{ s with scope := f s.scope }, ⟨ht.memo, ht.emitted⟩, hplace _ hs, hstep s hs⟩

lemma simulates_nil (here : Place) (ts : List Task) :
    Simulates p columns start here here (.code [] :: ts) ts 1 (pure () : ExpandM α Unit) :=
  Simulates.silent id (fun _ _ => rfl) fun _ h => h

omit [Scalar α] in
lemma Follows.emit {t : Trace α} (ht : Follows start s t) (hs : At start here s.scope) (i : Instr α) :
    Follows start { s with emitted := ⟨i, s.scope⟩ :: s.emitted }
      { t with marks := ⟨i, here⟩ :: t.marks } :=
  ⟨ht.memo, .cons ⟨rfl, hs⟩ ht.emitted⟩

lemma simulates_emit {token : CodeToken} {rest : List CodeToken} {i : Instr α} (ts : List Task)
    (h : ∀ s : State α, result (Walk.token p columns token rest) s =
      (.ok [.code rest], { s with emitted := ⟨i, s.scope⟩ :: s.emitted })) :
    Simulates p columns start here here (.code (token :: rest) :: ts) (.code rest :: ts) 1 (mark here i) :=
  Simulates.of_step [.code rest] fun s _ hs ht => ⟨_, ht.emit hs i, hs, h s⟩

lemma simulates_param (here : Place) (name : String) (isVariable : Bool) (subs : List Subscript)
    (rest : List CodeToken) (ts : List Task) :
    Simulates p columns start here here (.code (.param name isVariable subs :: rest) :: ts) (.code rest :: ts) 1
      (do mark here (← MonadExcept.ofExcept (p.reference here.frame columns name isVariable subs)) :
        ExpandM α Unit) := by
  refine Simulates.of_step [.code rest] fun s t hs ht => ?_
  simp only [result_bind, result_ofExcept, step, token, result_get, proceed_ok, hs.frame]
  cases (p.reference here.frame columns name isVariable subs : Except Fault (Instr α)) with
  | error e => exact ⟨s, ht, rfl⟩
  | ok i => exact ⟨_, ht.emit hs i, hs, rfl⟩

lemma At.lookup_during {dim : String} {scope : Scope} (h : At start (here.during dim done) scope)
    (equation dim' : String) (hne : (equation, dim') ≠ (here.frame.equation, dim)) :
    scope.counter? equation dim' = (here.loops.lookup (equation, dim')).or (start.counter? equation dim') := by
  rw [h.counter]
  unfold Place.during
  split
  · rfl
  · simp [Place.inside, List.lookup_cons, beq_false_of_ne hne]

lemma At.counter_during {dim : String} {scope : Scope} (hdone : done ≠ []) (h : At start (here.during dim done) scope) :
    scope.counter? here.frame.equation dim = some done.length := by
  rw [h.counter, Place.during, List.getLast?_eq_some_getLast hdone]
  simp [Place.inside]

lemma simulates_iterate (here : Place) (dim : String) {todo : List Iteration} {it : Iteration}
    (hits : its = done ++ it :: todo) (ts : List Task) :
    Simulates p columns start (here.during dim done) (here.inside dim it (done.length + 1))
      (.iterate (done.length == 0) here.frame.equation dim its here.frame :: ts) ts 1 (pure () : ExpandM α Unit) := by
  refine Simulates.silent (fun scope => (scope.setCounter here.frame.equation dim (done.length + 1)).restore
    (here.inside dim it (done.length + 1)).frame) (fun s hs => ?_) fun scope hscope => ⟨rfl, fun equation dim' => ?_⟩
  · have hit : its[done.length + 1 - 1]? = some it := by simp [hits]
    -- The first iteration enters the loop whatever counter it finds; the others go on from the one before.
    have hk : (if done.length == 0 then (1, s.scope.enter here.frame.equation dim)
        else s.scope.advance here.frame.equation dim) =
          (done.length + 1, s.scope.setCounter here.frame.equation dim (done.length + 1)) := by
      by_cases hdone : done = []
      · simp [hdone, Scope.enter]
      · simp [hdone, Scope.advance, hs.counter_during hdone]
    simp only [step, result_bind, result_get, proceed_ok, hk, result_modify, hit]
    rfl
  · rw [Scope.counter?_restore, Scope.counter?_setCounter]
    by_cases hkey : (equation, dim') = (here.frame.equation, dim)
    · rw [if_pos hkey, hkey, Place.inside, List.lookup_cons_self, Option.some_or]
    · rw [if_neg hkey, hscope.lookup_during equation dim' hkey, Place.inside, List.lookup_cons, beq_false_of_ne hkey]

lemma simulates_finish (here : Place) (dim : String) (its : List Iteration) (ts : List Task) :
    Simulates p columns start (here.during dim its) here
      (.finish here.frame.equation dim ((here.loops.lookup (here.frame.equation, dim)).or
        (start.counter? here.frame.equation dim)) here.frame :: ts) ts 1 (pure () : ExpandM α Unit) := by
  generalize houter : (here.loops.lookup (here.frame.equation, dim)).or (start.counter? here.frame.equation dim) = outer
  refine Simulates.silent (fun scope => (scope.giveBack here.frame.equation dim outer).restore here.frame)
    (fun s hs => rfl) fun scope hscope => ⟨rfl, fun equation dim' => ?_⟩
  -- The counter goes back to the loop around with the same key, or to what was there at the start.
  have hgive : (scope.giveBack here.frame.equation dim outer).counter? equation dim' =
      if (equation, dim') = (here.frame.equation, dim) then outer else scope.counter? equation dim' := by
    cases outer with
    | none => exact scope.counter?_drop _ _ _ _
    | some n => exact scope.counter?_setCounter _ _ n _ _
  rw [Scope.counter?_restore, hgive]
  by_cases hkey : (equation, dim') = (here.frame.equation, dim)
  · obtain ⟨rfl, rfl⟩ := Prod.mk.inj hkey
    rw [if_pos rfl, houter]
  · rw [if_neg hkey, hscope.lookup_during equation dim' hkey]

lemma during_append (here : Place) (dim : String) (done : List Iteration) (it : Iteration) :
    here.during dim (done ++ [it]) = here.inside dim it (done.length + 1) := by
  simp [Place.during]

lemma simulates_iterations (here : Place) (dim : String) {todo : List Iteration} (hits : its = done ++ todo)
    {x : Iteration → Nat → ExpandM α Unit}
    (hbody : ∀ it ∈ todo, ∀ i ts, Simulates p columns start (here.inside dim it i) (here.inside dim it i)
      (.code body :: ts) (.code [] :: ts) bound (x it i))
    (ts : List Task) :
    Simulates p columns start (here.during dim done) here
      ((todo.zipIdx done.length).flatMap (fun (_, i) =>
          [.iterate (i == 0) here.frame.equation dim its here.frame, .code body]) ++
        .finish here.frame.equation dim ((here.loops.lookup (here.frame.equation, dim)).or
          (start.counter? here.frame.equation dim)) here.frame :: ts) ts
      (todo.length * (2 + bound) + 1) ((todo.zipIdx (done.length + 1)).forM fun (it, i) => x it i) := by
  -- The invariant: with `done` behind the loop, its counter is their number, and the last of them is in scope.
  induction todo generalizing done with
  | nil =>
    obtain rfl : its = done := by simpa using hits
    simpa using simulates_finish here dim its ts
  | cons it todo ih =>
    obtain ⟨hit, htodo⟩ := List.forall_mem_cons.mp hbody
    have hrest : Simulates p columns start (here.during dim (done ++ [it])) here _ ts _ _ :=
      ih (by simpa using hits) htodo
    rw [during_append, List.length_append, List.length_singleton] at hrest
    simp only [List.zipIdx_cons, List.flatMap_cons, List.cons_append, List.nil_append]
    have hfirst := ((hit (done.length + 1) _).before_silent (simulates_nil _ _)).andThen hrest
    refine ((simulates_iterate here dim hits _).after_silent hfirst).mono ?_
    simp only [List.length_cons, Nat.add_mul]
    omega

omit [Scalar α] in
lemma result_iterations (dim : String) (s : State α) : result (iterations p columns dim) s =
    ((Direct.iterations p columns s.scope.frame dim s.memo).1,
      { s with memo := (Direct.iterations p columns s.scope.frame dim s.memo).2 }) := by
  simp only [iterations, result_bind, result_get, proceed_ok, Direct.iterations, check]
  cases p.catalog.resolve dim with
  | error e => rfl
  | ok d =>
    obtain ⟨name, column?⟩ := d
    cases column? with
    | none => rfl
    | some column =>
      simp only [result_pure, proceed_ok]
      cases columns.findIdx? (· == column) with
      | none => rfl
      | some i =>
        simp only [result_bind, ask, result_get, proceed_ok]
        rcases (p.catalog.conditionalLength dim s.scope.frame.bindings).run s.memo with ⟨e | n, memo⟩
        · rfl
        · simp only [result_bind, result_set, result_pure, proceed_ok]
          split <;> rfl

omit [Scalar α] in
lemma Follows.emitAll {t : Trace α} (ht : Follows start s t) (hs : At start here s.scope) (is : List (Instr α)) :
    ∃ s', result (emitAll is) s = (.ok (), s') ∧ s'.scope = s.scope ∧
      (result (markAll here is) t).1 = .ok () ∧ Follows start s' (result (markAll here is) t).2 := by
  induction is generalizing s t with
  | nil => exact ⟨s, rfl, rfl, rfl, ht⟩
  | cons i is ih =>
    obtain ⟨s', hrun, hscope, hmarks⟩ := ih (ht.emit hs i) hs
    refine ⟨s', ?_, hscope, ?_⟩
    · rw [Walk.emitAll, result_bind]
      exact hrun
    · exact hmarks

def loopTasks (here : Place) (start : Scope) (dim : String) (its : List Iteration) (body : List CodeToken) :
    List Task :=
  its.zipIdx.flatMap (fun (_, i) => [.iterate (i == 0) here.frame.equation dim its here.frame, .code body]) ++
    [.finish here.frame.equation dim ((here.loops.lookup (here.frame.equation, dim)).or
      (start.counter? here.frame.equation dim)) here.frame]

lemma simulates_loopTasks (here : Place) (dim : String) (its : List Iteration) {x : Iteration → Nat → ExpandM α Unit}
    (hbody : ∀ it ∈ its, ∀ i ts, Simulates p columns start (here.inside dim it i) (here.inside dim it i)
      (.code body :: ts) (.code [] :: ts) bound (x it i))
    (ts : List Task) :
    Simulates p columns start here here (loopTasks here start dim its body ++ ts) ts (its.length * (2 + bound) + 1)
      ((its.zipIdx 1).forM fun (it, i) => x it i) := by
  rw [loopTasks, List.append_assoc]
  exact simulates_iterations here dim (List.nil_append its).symm hbody ts

lemma result_loop_cons (hs : At start here s.scope) (keyword : Keyword) (dim : String) (body : List CodeToken)
    {it : Iteration} (hits : Direct.iterations p columns here.frame dim s.memo = (.ok (it :: its), memo)) :
    result (loop p columns keyword dim body) s =
      proceed (result (emitAll (keyword.header (it :: its).length).instrs) { s with memo := memo }) fun _ s =>
        (.ok (loopTasks here start dim (it :: its) body), s) := by
  simp only [loop, result_bind, result_iterations, hs.frame, hits, proceed_ok, result_get, List.isEmpty_cons,
    Bool.false_eq_true, if_false, result_pure, hs.counter]
  rfl

lemma result_loop_nil (hs : At start here s.scope) (keyword : Keyword) (dim : String) (body : List CodeToken)
    (hits : Direct.iterations p columns here.frame dim s.memo = (.ok [], memo)) :
    result (loop p columns keyword dim body) s =
      if keyword.binary?.isSome then
        (.ok [], { s with memo := memo, emitted := ⟨.num Scalar.zero, s.scope⟩ :: s.emitted })
      else (.error (.failure (.dimension here.frame.equation
        (keyword.name ++ "\x7b" ++ dim ++ "\x7d has no values to iterate"))), { s with memo := memo }) := by
  simp only [loop, result_bind, result_iterations, hs.frame, hits, proceed_ok, result_get, List.isEmpty_nil, if_true]
  cases keyword.binary? <;> rfl

lemma result_loop_error (hs : At start here s.scope) (keyword : Keyword) (dim : String) (body : List CodeToken)
    {e : Fault} (hits : Direct.iterations p columns here.frame dim s.memo = (.error e, memo)) :
    result (loop p columns keyword dim body) s = (.error e, { s with memo := memo }) := by
  simp only [loop, result_bind, result_iterations, hs.frame, hits, proceed_error]

lemma result_loopStep (keyword : Keyword) (dim : String) (level : Nat) {span : Span}
    (hspan : span.length.toNat = body.length) (rest : List CodeToken) (s : State α) :
    result (step p columns (.code (.loop keyword dim level span :: (body ++ rest)))) s =
      proceed (result (loop p columns keyword dim body) s) fun new s => (.ok (new ++ [.code rest]), s) := by
  simp only [step, token, hspan, List.take_left, List.drop_left, result_bind, result_pure]

lemma simulates_loop (hb : here.Bounded p) (visit : String → Place → ExpandM α Unit) (keyword : Keyword)
    (dim : String) (level : Nat) (span dimSpan bodySpan : Span) {codeSpan : Span} {arg : Expr}
    (hspan : codeSpan.length.toNat = body.length)
    (hbody : ∀ it i ts, (here.inside dim it i).Bounded p → Simulates p columns start (here.inside dim it i)
      (here.inside dim it i) (.code body :: ts) (.code [] :: ts) bound
      (expand p columns visit (here.inside dim it i) arg))
    (rest : List CodeToken) (ts : List Task) :
    Simulates p columns start here here (.code (.loop keyword dim level codeSpan :: (body ++ rest)) :: ts)
      (.code rest :: ts) (2 + p.breadth * (2 + bound))
      (expand p columns visit here (.loop span keyword dim dimSpan level bodySpan arg)) := by
  intro s t hs ht
  simp only [expand, result_bind, result_askIterations, ← ht.memo]
  -- Before the first iteration a loop takes one step, also if it fails or has nothing to iterate.
  have hrun : ∀ fuel, result (run p columns (fuel + 1)
    (.code (.loop keyword dim level codeSpan :: (body ++ rest)) :: ts)) s =
      proceed (result (loop p columns keyword dim body) s) fun new s =>
        result (run p columns fuel (new ++ [.code rest] ++ ts)) s := by
    intro fuel
    rw [result_run, result_loopStep keyword dim level hspan rest s]
    rcases result (loop p columns keyword dim body) s with ⟨_ | _, _⟩ <;> rfl
  rcases hits : Direct.iterations p columns here.frame dim s.memo with ⟨e | its, memo⟩
  · refine ⟨1, by omega, { s with memo := memo }, ⟨rfl, ht.emitted⟩, fun fuel => ?_⟩
    rw [hrun, result_loop_error hs keyword dim body hits]
    rfl
  have ht₁ : Follows start { s with memo := memo } { t with memo := memo } := ⟨rfl, ht.emitted⟩
  obtain ⟨hbreadth, hinside⟩ := within_iterations hb (congrArg Prod.fst hits)
  cases its with
  | nil =>
    simp only [result_loop_nil hs keyword dim body hits] at hrun
    by_cases hk : keyword.binary?.isSome
    · simp only [hk, if_true, proceed_ok] at hrun ⊢
      exact ⟨1, by omega, _, ht₁.emit hs _, hs, hrun⟩
    · simp only [hk, proceed_ok] at hrun ⊢
      exact ⟨1, by omega, _, ht₁, hrun⟩
  | cons it its =>
    obtain ⟨s₁, hemit, hscope, hmark, ht₂⟩ := ht₁.emitAll hs (keyword.header (it :: its).length).instrs
    rw [result_loop_cons hs keyword dim body hits, hemit, proceed_ok] at hrun
    have hiter := simulates_loopTasks here dim (it :: its) (fun it hit i ts => hbody it i ts (hinside it hit i))
      (.code rest :: ts)
    rcases hm : result (markAll here (keyword.header (it :: its).length).instrs) { t with memo := memo } with ⟨r, t₂⟩
    rw [hm] at hmark ht₂
    obtain rfl : r = .ok () := hmark
    simp only [proceed_ok, result_bind, hm]
    obtain ⟨n, hn, s', ht', hs'⟩ := hiter (hscope ▸ hs) ht₂
    have hbound : 1 + n ≤ 2 + p.breadth * (2 + bound) := by
      have := Nat.mul_le_mul_right (2 + bound) hbreadth
      omega
    refine ⟨1 + n, hbound, s', ht', hs'.after fun fuel => ?_⟩
    rw [hrun, proceed_ok, List.append_assoc]
    rfl

lemma simulates_header (here : Place) (h : Header) (rest : List CodeToken) (ts : List Task) :
    Simulates p columns start here here (.code (h.tokens ++ rest) :: ts) (.code rest :: ts) 1
      (markAll here h.instrs : ExpandM α Unit) := by
  cases h with
  | bare => exact (Simulates.refl here _).mono (Nat.zero_le 1)
  | fixed op => exact (simulates_emit ts fun _ => rfl).before_silent (Simulates.refl here _)
  | list op count => exact (simulates_emit ts fun _ => rfl).before_silent (Simulates.refl here _)

lemma simulates_head (here : Place) (fn : Function) (count : Nat) (rest : List CodeToken) (ts : List Task) :
    Simulates p columns start here here (.code (fn.head count ++ rest) :: ts) (.code rest :: ts) 1
      (markAll here (callHead fn count) : ExpandM α Unit) := by
  unfold Function.head callHead
  cases fn.keyword? with
  | some k => exact simulates_header here (k.header count) rest ts
  | none => exact simulates_header here (.fixed fn.opcode) rest ts

lemma length_bodySpan (k n : Nat) : (Span.length ⟨(k : Int) + 1, k + n⟩).toNat = n := by
  simp only [Span.length]
  split <;> omega

def Visits (p : Program) (columns : List String) (start : Scope) (visit : String → Place → ExpandM α Unit)
    (steps : String → Nat) (name : String) : Prop :=
  ∀ ⦃here : Place⦄, here.Bounded p → ∀ rest ts, Simulates p columns start here here
    (.code (.equation name :: rest) :: ts) (.code rest :: ts) (4 + steps name) (visit name (here.referring name))

mutual

theorem simulates_expr {visit : String → Place → ExpandM α Unit} {steps : String → Nat} {here : Place}
    (hb : here.Bounded p) (k : Nat) (rest : List CodeToken) (ts : List Task) :
    (e : Expr) → e.ForRefs (Visits p columns start visit steps) →
    Simulates p columns start here here (.code (e.code k ++ rest) :: ts) (.code rest :: ts)
      (e.walkSteps p.breadth steps) (expand p columns visit here e)
  | .number .., _ => simulates_emit ts fun _ => rfl
  | .param _ name isVariable subs, _ => simulates_param here name isVariable subs rest ts
  | .equation .., h => h hb rest ts
  | .negate _ _ arg, h => (simulates_emit ts fun _ => rfl).andThen (simulates_expr hb (k + 1) rest ts arg h)
  | .binary _ _ _ lhs rhs, h => by
    simp only [Expr.code, List.cons_append, List.append_assoc, Expr.walkSteps, Nat.add_assoc]
    exact (simulates_emit ts fun _ => rfl).andThen
      ((simulates_expr hb (k + 1) _ ts lhs h.1).andThen (simulates_expr hb _ rest ts rhs h.2))
  | .group _ arg, h => simulates_expr hb k rest ts arg h
  | .call _ fn _ _ _ args, h => by
    simp only [Expr.code, List.append_assoc, Expr.walkSteps]
    exact (simulates_head here fn args.length _ ts).andThen (simulates_args hb _ rest ts args h)
  | .loop span keyword dim dimSpan level bodySpan arg, h => by
    refine simulates_loop hb visit keyword dim level span dimSpan bodySpan (length_bodySpan k _) (fun it i ts hb => ?_)
      rest ts
    have hbody := simulates_expr hb (k + 1) [] ts arg h
    rwa [List.append_nil] at hbody

theorem simulates_args {visit : String → Place → ExpandM α Unit} {steps : String → Nat} {here : Place}
    (hb : here.Bounded p) (k : Nat) (rest : List CodeToken) (ts : List Task) :
    (es : List Expr) → ArgumentsForRefs (Visits p columns start visit steps) es →
    Simulates p columns start here here (.code (argumentCode k es ++ rest) :: ts) (.code rest :: ts)
      (argumentSteps p.breadth steps es) (expandArgs p columns visit here es)
  | [], _ => Simulates.refl here _
  | e :: es, h => by
    simp only [argumentCode, List.append_assoc]
    exact (simulates_expr hb k _ ts e h.1).andThen (simulates_args hb _ rest ts es h.2)

end

lemma simulates_reference (hp : p.Indexed) {name : String} {e : Expr} (he : p.trees.get? name = some e)
    (hx : ∀ rest ts, Simulates p columns start (here.referring name) (here.referring name)
      (.code (e.code 0 ++ rest) :: ts) (.code rest :: ts) bound x)
    (rest : List CodeToken) (ts : List Task) :
    Simulates p columns start here here (.code (.equation name :: rest) :: ts) (.code rest :: ts) (4 + bound) x := by
  have hcode : p.codes.get? name = some (Code.ofExpr name e) := by rw [hp.get?_codes, he, Option.map_some]
  have htoken : Simulates p columns start here here (.code (.equation name :: rest) :: ts)
      ([.enter name, .code (e.code 0), .leave here.frame, .code rest] ++ ts) 1 (pure () : ExpandM α Unit) := by
    refine Simulates.of_step _ fun s t hs ht => ⟨s, ht, hs, ?_⟩
    simp only [step, token, hcode, result_bind, result_get, proceed_ok, hs.frame, result_pure, Code.ofExpr]
  have henter : ∀ ts, Simulates p columns start here (here.referring name) (.enter name :: ts) ts 1
      (pure () : ExpandM α Unit) := fun ts =>
    Simulates.silent (fun scope => scope.restore { scope.frame with equation := name }) (fun _ _ => rfl)
      fun scope h => ⟨by rw [Scope.restore, h.frame]; rfl, h.counter⟩
  have hleave : ∀ ts, Simulates p columns start (here.referring name) here (.leave here.frame :: ts) ts 1
      (pure () : ExpandM α Unit) := fun ts =>
    Simulates.silent (fun scope => scope.restore here.frame) (fun _ _ => rfl) fun _ h => ⟨rfl, h.counter⟩
  have hbody := (hx [] (.leave here.frame :: .code rest :: ts)).before_silent
    ((simulates_nil _ _).after_silent (hleave (.code rest :: ts)))
  rw [List.append_nil] at hbody
  exact (htoken.after_silent ((henter _).after_silent hbody)).mono (by omega)

theorem simulates_equation (hp : p.Indexed) {d depth depth' : Nat} {name : String} (hg : p.Grounded d name)
    (hd : d ≤ depth) (hd' : d ≤ depth') {e : Expr} (he : p.trees.get? name = some e) (hb : here.Bounded p)
    (rest : List CodeToken) (ts : List Task) :
    Simulates p columns start here here (.code (e.code 0 ++ rest) :: ts) (.code rest :: ts)
      (p.equationSteps depth' name) (expandEquation p columns depth name here : ExpandM α Unit) := by
  -- On the true depth of references; the two bounds may be larger.
  induction d generalizing depth depth' name e here rest ts with
  | zero => exact hg.elim
  | succ d ih =>
    obtain ⟨depth, rfl⟩ : ∃ n, depth = n + 1 := ⟨depth - 1, by omega⟩
    obtain ⟨depth', rfl⟩ : ∃ n, depth' = n + 1 := ⟨depth' - 1, by omega⟩
    obtain ⟨e', he', hrefs⟩ := hg
    obtain rfl : e' = e := Option.some.inj (he'.symm.trans he)
    simp only [Program.equationSteps, expandEquation, he]
    refine simulates_expr hb 0 rest ts e' (hrefs.imp fun r hr here hb rest ts => ?_)
    obtain ⟨e'', he''⟩ := hr.tree
    exact simulates_reference hp he'' (ih hr (by omega) (by omega) he'' hb) rest ts

end Walk

end LandUse
