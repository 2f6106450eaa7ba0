import LandUse.Proofs.Expansion.Rows

/-! One step of the work list keeps that the rows in scope match the bindings and that look-ups are true, and so does a
whole walk. -/

namespace LandUse

open Outcome

def Failure.IsMiscounted (f : Failure) : Prop :=
  ∃ (equation dim : String) (length found : Nat), f = .dimension equation ("loop over " ++ dim ++ ": length is " ++
    toString length ++ ", but " ++ toString found ++ " values found")

def Fault.Counted (e : Fault) : Prop :=
  ∀ f, e = .failure f → f.kind = .dimension → f.message.toList.reverse.take 5 ≠ "dnuof".toList

lemma Fault.Counted.not_isMiscounted {f : Failure} (h : Fault.Counted (.failure f)) : ¬ f.IsMiscounted := by
  rintro ⟨equation, dim, n, m, rfl⟩
  exact h _ rfl rfl ((Program.ending_append _ (by decide)).trans (by decide))

lemma counted_violation : Fault.Counted .violation := fun _ h => nomatch h

lemma counted_of_kind {f : Failure} (h : f.kind ≠ .dimension) : Fault.Counted (.failure f) := by
  rintro _ ⟨⟩ hkind
  exact absurd hkind h

lemma counted_ending {equation s a : String} (ha : 5 ≤ a.toList.length) (h : a.toList.reverse.take 5 ≠ "dnuof".toList) :
    Fault.Counted (.failure (.dimension equation (s ++ a))) := by
  rintro _ ⟨⟩ -
  dsimp only [Failure.dimension]
  rwa [Program.ending_append s ha]

lemma Program.counted_reference {α : Type} [Scalar α] {p : Program} {frame : Frame}
    {columns : List String} {name : String}
    {isVariable : Bool} {subs : List Subscript} {e : Fault}
    (h : (p.reference frame columns name isVariable subs : Except Fault (Instr α)) = .error e) : e.Counted := by
  cases refused_reference h with
  | unbound | noOption => exact counted_ending (by decide) (by decide)
  | empty => exact counted_violation
  | _ => exact counted_of_kind nofun

def Catalog.Truthful (c : Catalog) (m : Catalog.Memo) : Prop :=
  ∀ rows, c.table.selected? c.condition = some rows → c.TruthfulOn rows m

namespace Walk

/-- Code whose loops can be made, also in the equations it refers to. -/
inductive Covered (p : Program) (columns : List String) : List CodeToken → Prop
  | intro {tokens : List CodeToken}
      (loops : ∀ keyword dim level body, .loop keyword dim level body ∈ tokens → PlainName dim ∧
        Direct.Ready p columns dim)
      (references : ∀ name code, .equation name ∈ tokens → p.codes.get? name = some code →
        Covered p columns code.tokens) :
      Covered p columns tokens

variable {p : Program} {columns : List String}
variable {tokens : List CodeToken}

lemma Covered.subset {tokens' : List CodeToken} (h : Covered p columns tokens) (hsub : tokens' ⊆ tokens) :
    Covered p columns tokens' := by
  obtain ⟨hloops, hreferences⟩ := h
  exact ⟨fun keyword dim level body hmem => hloops keyword dim level body (hsub hmem),
    fun name code hmem => hreferences name code (hsub hmem)⟩

lemma Covered.nil : Covered p columns [] := ⟨nofun, nofun⟩

lemma Covered.append {tokens' : List CodeToken} (h : Covered p columns tokens) (h' : Covered p columns tokens') :
    Covered p columns (tokens ++ tokens') := by
  obtain ⟨hloops, hreferences⟩ := h
  obtain ⟨hloops', hreferences'⟩ := h'
  refine ⟨fun keyword dim level body hmem => ?_, fun name code hmem => ?_⟩
  · exact (List.mem_append.1 hmem).elim (hloops keyword dim level body) (hloops' keyword dim level body)
  · exact (List.mem_append.1 hmem).elim (hreferences name code) (hreferences' name code)

lemma Covered.cons {token : CodeToken} (h : Covered p columns [token]) (h' : Covered p columns tokens) :
    Covered p columns (token :: tokens) := h.append h'

lemma Covered.singleton {token : CodeToken}
    (hloop : ∀ keyword dim level body, .loop keyword dim level body = token → PlainName dim ∧
      Direct.Ready p columns dim)
    (href : ∀ name code, .equation name = token → p.codes.get? name = some code → Covered p columns code.tokens) :
    Covered p columns [token] :=
  ⟨fun keyword dim level body h => hloop keyword dim level body (List.mem_singleton.1 h),
    fun name code h => href name code (List.mem_singleton.1 h)⟩

lemma covered_operation (op : Opcode) : Covered p columns [.operation op] := .singleton nofun nofun

lemma covered_header (h : Header) : Covered p columns h.tokens := by
  cases h with
  | bare => exact .nil
  | fixed op => exact covered_operation op
  | list op count => exact .singleton nofun nofun

lemma covered_head (fn : Function) (count : Nat) : Covered p columns (fn.head count) := by
  unfold Function.head
  cases fn.keyword? with
  | some k => exact covered_header (k.header count)
  | none => exact covered_header (.fixed fn.opcode)

variable {free : List String} {V : String → List String → Prop}

mutual

theorem covered_code (hV : ∀ name bound, V name bound → ∀ code, p.codes.get? name = some code →
    Covered p columns code.tokens)
    (k : Nat) : {bound : List String} → (e : Expr) → e.Covered p.settings columns free V bound → e.ForDims PlainName →
    Covered p columns (e.code k)
  | _, .number .., _, _ | _, .param .., _, _ => .singleton nofun nofun
  | bound, .equation _ name, hc, _ => by
    refine .singleton nofun fun name' code h hcode => ?_
    obtain rfl : name' = name := CodeToken.equation.inj h
    exact hV name' bound hc code hcode
  | _, .negate _ _ arg, hc, hd => (covered_operation _).cons (covered_code hV (k + 1) arg hc hd)
  | _, .binary _ _ _ lhs rhs, hc, hd =>
    (covered_operation _).cons ((covered_code hV _ lhs hc.1 hd.1).append (covered_code hV _ rhs hc.2 hd.2))
  | _, .group _ arg, hc, hd => covered_code hV k arg hc hd
  | _, .call _ fn _ _ _ args, hc, hd => (covered_head fn _).append (covered_arguments hV _ args hc hd)
  | _, .loop _ keyword dim _ level _ arg, hc, hd => by
    have hloop : ∀ body, Covered p columns [.loop keyword dim level body] := by
      refine fun body => .singleton (fun keyword' dim' level' body' h => ?_) nofun
      obtain ⟨rfl, rfl, rfl, rfl⟩ := CodeToken.loop.inj h
      exact ⟨hd.1, hc.1⟩
    exact (hloop _).cons (covered_code hV (k + 1) arg hc.2 hd.2)

theorem covered_arguments
    (hV : ∀ name bound, V name bound → ∀ code, p.codes.get? name = some code → Covered p columns code.tokens)
    (k : Nat) :
    {bound : List String} → (es : List Expr) → ArgumentsCovered p.settings columns free V bound es →
    ArgumentsForDims PlainName es → Covered p columns (argumentCode k es)
  | _, [], _, _ => .nil
  | _, e :: es, hc, hd => (covered_code hV k e hc.1 hd.1).append (covered_arguments hV _ es hc.2 hd.2)

end

theorem covered_equation (hi : p.Indexed) {depth : Nat} {name : String} {bound : List String}
    (h : p.Covered columns free depth name bound) {code : Code} (hcode : p.codes.get? name = some code) :
    Covered p columns code.tokens := by
  induction depth generalizing name bound code with
  | zero => exact h.elim
  | succ depth ih =>
    obtain ⟨e, he, hc⟩ := h
    rw [hi.get?_codes, he, Option.map_some] at hcode
    obtain rfl := Option.some.inj hcode
    exact covered_code (fun name bound hv code hcode => ih hv hcode) 0 e hc (hi.plain he)

structure Here (p : Program) (columns : List String) (read : List (List Cell)) {α : Type} (s : State α) : Prop where
  frame : s.scope.frame.Scoped p.catalog columns read
  memo : p.catalog.Truthful s.memo

def Task.Leads (p : Program) (columns : List String) (read : List (List Cell)) : Task → Prop
  | .code tokens => Covered p columns tokens
  | .enter _ => True
  | .leave frame | .finish _ _ _ frame => frame.Scoped p.catalog columns read
  | .iterate _ _ dim its frame =>
    ∀ it ∈ its, ({ frame with rows := it.rows }.bind dim (some it.value)).Scoped p.catalog columns read

def Yields (p : Program) {α β : Type} (x : WalkM α β) (s : State α) (Q : β → State α → Prop) : Prop :=
  match result x s with
  | (.ok b, s') => Q b s'
  | (.error e, s') => p.catalog.Truthful s'.memo ∧ e.Counted

lemma Yields.bind {α β γ : Type} {x : WalkM α β} {f : β → WalkM α γ} {s : State α} {Q : β → State α → Prop}
    {R : γ → State α → Prop} (hx : Yields p x s Q) (hf : ∀ b s', Q b s' → Yields p (f b) s' R) :
    Yields p (x >>= f) s R := by
  unfold Yields at hx hf ⊢
  rw [result_bind]
  rcases hr : result x s with ⟨e | b, s'⟩
  · rw [hr] at hx
    exact hx
  · rw [hr] at hx
    exact hf b s' hx

section Steps

variable {read : List (List Cell)} (hp : p.Supplied) (ht : p.catalog.table.Proper) (hk : p.catalog.Keyed)
  (hread : columns ≠ [] → ∃ rows, p.catalog.Reads rows read) {dim : String} (hplain : PlainName dim)
  (hready : Direct.Ready p columns dim) {frame : Frame} (hframe : frame.Scoped p.catalog columns read)
  {memo : Catalog.Memo} (hmemo : p.catalog.Truthful memo)
include hp ht hk hread hplain hready hframe hmemo

lemma length_eq_found (hdim : dim ≠ optionsDimension) :
    ∃ i rows memo', p.catalog.resolve dim = .ok ⟨dim, some (p.catalog.columnOf dim)⟩ ∧
      columns.findIdx? (· == p.catalog.columnOf dim) = some i ∧
      p.catalog.table.selected? p.catalog.condition = some rows ∧
      p.catalog.among rows dim frame.bindings = (Program.groupBy i frame.rows).length ∧
      (p.catalog.conditionalLength dim frame.bindings).run memo =
        (.ok (Program.groupBy i frame.rows).length, memo') ∧ p.catalog.Truthful memo' ∧
      ∀ it ∈ Program.groupBy i frame.rows,
        ({ frame with rows := it.rows }.bind dim (some it.value)).Scoped p.catalog columns read := by
  rcases Direct.resolve_ready hp hready with ⟨h, -⟩ | ⟨column, hmem, -, hget, hres⟩
  · exact absurd h hdim
  obtain ⟨htable, rfl⟩ := Catalog.ofTable_of_get? hdim hget
  obtain ⟨rows, hrows⟩ := hread (List.ne_nil_of_mem hmem)
  obtain ⟨i, hi, -⟩ := Program.readRow_findIdx? p.catalog.table [] hmem
  -- If a dimension of the table is bound, there is a row in scope; it comes from one of the table.
  have hrow : (∃ b ∈ frame.bindings, p.catalog.OfTable b.dim) →
      ∃ cells ∈ rows, p.catalog.fits frame.bindings cells = true := by
    intro h
    have hne := hframe.nonempty h
    rw [hframe.rows, ne_eq, List.map_eq_nil_iff] at hne
    obtain ⟨cells, hcells⟩ := List.exists_mem_of_ne_nil _ hne
    obtain ⟨hcells, hfits⟩ := List.mem_filter.1 hcells
    exact ⟨cells, (hrows.mem cells).1 hcells, hfits⟩
  obtain ⟨memo', hrun, hmemo'⟩ := Catalog.conditionalLength_eq ht hk hrows.selected (hmemo rows hrows.selected)
    hplain htable
    ⟨_, hres⟩ (fun b hb => Program.bound_rows hrows (hframe.bound b hb).1) (fun b hb => (hframe.bound b hb).2) hrow
  have hlength := Program.length_groupBy ht hk hrows hframe htable hi
  rw [hlength] at hrun
  refine ⟨i, rows, memo', hres, hi, hrows.selected, hlength, hrun, fun rows' hrows' => ?_, fun it hit => ?_⟩
  · rwa [← Option.some.inj (hrows.selected.symm.trans hrows')]
  · exact Program.scoped_iteration ht hk hrows hframe hplain htable ⟨_, hres⟩ hi hit

lemma iterations_eq : ∃ its memo', Direct.iterations p columns frame dim memo = (.ok its, memo') ∧
    p.catalog.Truthful memo' ∧
      ∀ it ∈ its, ({ frame with rows := it.rows }.bind dim (some it.value)).Scoped p.catalog columns read := by
  unfold Direct.iterations
  by_cases hdim : dim = optionsDimension
  · have hres : p.catalog.resolve dim = .ok ⟨dim, none⟩ := if_pos (beq_iff_eq.2 hdim)
    rw [hres]
    refine ⟨_, memo, rfl, hmemo, fun it hit => ?_⟩
    obtain ⟨v, -, rfl⟩ := List.mem_map.1 hit
    rw [hdim]
    exact Program.scoped_option hframe (some v)
  · obtain ⟨i, -, memo', hres, hi, -, -, hrun, hmemo', hits⟩ :=
      length_eq_found hp ht hk hread hplain hready hframe hmemo hdim
    rw [hres]
    dsimp only
    rw [hi]
    dsimp only
    rw [hrun]
    dsimp only
    rw [if_pos (beq_self_eq_true _)]
    exact ⟨_, memo', rfl, hmemo', hits⟩

end Steps

section Steps

variable {read : List (List Cell)} {α : Type} [Scalar α]

omit [Scalar α] in
lemma result_emitAll (is : List (Instr α)) (s : State α) :
    ∃ emitted, result (emitAll is) s = (.ok (), { s with emitted := emitted }) := by
  induction is generalizing s with
  | nil => exact ⟨s.emitted, rfl⟩
  | cons i is ih =>
    obtain ⟨emitted, h⟩ := ih { s with emitted := ⟨i, s.scope⟩ :: s.emitted }
    exact ⟨emitted, h⟩

variable (hp : p.Supplied) (ht : p.catalog.table.Proper) (hk : p.catalog.Keyed)
  (hread : columns ≠ [] → ∃ rows, p.catalog.Reads rows read)
include hp ht hk hread

lemma yields_loop (keyword : Keyword) {dim : String} (hplain : PlainName dim) (hready : Direct.Ready p columns dim)
    {body : List CodeToken} (hbody : Covered p columns body) {s : State α} (hs : Here p columns read s) :
    Yields p (loop p columns keyword dim body) s fun new s' =>
      Here p columns read s' ∧ ∀ task ∈ new, task.Leads p columns read := by
  have hat : At s.scope ⟨s.scope.frame, []⟩ s.scope := ⟨rfl, fun _ _ => rfl⟩
  obtain ⟨its, memo, hits, hmemo, hinside⟩ := iterations_eq hp ht hk hread hplain hready hs.frame hs.memo
  unfold Yields
  cases its with
  | nil =>
    rw [result_loop_nil hat keyword dim body hits]
    split_ifs
    · exact ⟨⟨hs.frame, hmemo⟩, nofun⟩
    · exact ⟨hmemo, counted_ending (by decide) (by decide)⟩
  | cons it its =>
    obtain ⟨emitted, hemit⟩ := result_emitAll (keyword.header (it :: its).length).instrs { s with memo := memo }
    rw [result_loop_cons hat keyword dim body hits, hemit]
    refine ⟨⟨hs.frame, hmemo⟩, fun task htask => ?_⟩
    rcases List.mem_append.1 htask with htask | htask
    · obtain ⟨⟨_, i⟩, -, htask⟩ := List.mem_flatMap.1 htask
      rcases List.mem_pair.1 htask with rfl | rfl
      · exact hinside
      · exact hbody
    · rw [List.mem_singleton.1 htask]
      exact hs.frame

lemma yields_token {t : CodeToken} {rest : List CodeToken} (hcode : Covered p columns (t :: rest)) {s : State α}
    (hs : Here p columns read s) : Yields p (token p columns t rest) s fun new s' =>
      Here p columns read s' ∧ ∀ task ∈ new, task.Leads p columns read := by
  have hrest : Covered p columns rest := hcode.subset (List.subset_cons_self _ _)
  have hnext : ∀ emitted : List (Emission α), Here p columns read { s with emitted := emitted } ∧
      ∀ task ∈ [Task.code rest], task.Leads p columns read :=
    fun emitted => ⟨⟨hs.frame, hs.memo⟩, List.forall_mem_singleton.2 hrest⟩
  obtain ⟨hloops, hreferences⟩ := id hcode
  cases t with
  | number value => exact hnext _
  | operation op => exact hnext _
  | list op count => exact hnext _
  | param name isVariable subs =>
    unfold Yields
    simp only [token, result_bind, result_get, proceed_ok]
    cases hi : (p.reference s.scope.frame columns name isVariable subs : Except Fault (Instr α)) with
    | error e => exact ⟨hs.memo, Program.counted_reference hi⟩
    | ok i => exact hnext _
  | equation name =>
    unfold Yields
    simp only [token]
    cases hc : p.codes.get? name with
    | none => exact ⟨hs.memo, counted_of_kind fun h => by cases h⟩
    | some code =>
      have hcovered := hreferences name code List.mem_cons_self hc
      refine ⟨hs, ?_⟩
      simp only [List.forall_mem_cons]
      exact ⟨trivial, hcovered, hs.frame, hrest, List.forall_mem_nil _⟩
  | loop keyword dim level span =>
    obtain ⟨hplain, hready⟩ := hloops keyword dim level span List.mem_cons_self
    have hbody := hrest.subset (List.take_subset span.length.toNat rest)
    refine (yields_loop hp ht hk hread keyword hplain hready hbody hs).bind fun new s' h => ?_
    obtain ⟨hs', hnew⟩ := h
    refine ⟨hs', fun task htask => ?_⟩
    rcases List.mem_append.1 htask with htask | htask
    · exact hnew task htask
    · rw [List.mem_singleton.1 htask]
      exact hrest.subset (List.drop_subset _ _)

lemma yields_step {task : Task} (htask : task.Leads p columns read) {s : State α} (hs : Here p columns read s) :
    Yields p (step p columns task) s fun new s' =>
      Here p columns read s' ∧ ∀ task ∈ new, task.Leads p columns read := by
  cases task with
  | code tokens =>
    cases tokens with
    | nil => exact ⟨hs, nofun⟩
    | cons t rest => exact yields_token hp ht hk hread htask hs
  | enter equation => exact ⟨⟨⟨hs.frame.rows, hs.frame.bound, hs.frame.nonempty⟩, hs.memo⟩, nofun⟩
  | leave frame => exact ⟨⟨htask, hs.memo⟩, nofun⟩
  | finish equation dim outer frame => exact ⟨⟨htask, hs.memo⟩, nofun⟩
  | iterate first equation dim its frame =>
    unfold Yields
    simp only [step, result_bind, result_get, proceed_ok, result_modify]
    generalize (if first = true then (1, s.scope.enter equation dim) else s.scope.advance equation dim) = next
    cases hit : its[next.1 - 1]? with
    | none => exact ⟨hs.memo, counted_violation⟩
    | some it => exact ⟨⟨htask it (List.mem_of_getElem? hit), hs.memo⟩, nofun⟩

lemma yields_run (fuel : Nat) {tasks : List Task} (htasks : ∀ task ∈ tasks, task.Leads p columns read) {s : State α}
    (hs : Here p columns read s) :
    Yields p (run p columns fuel tasks) s fun _ s' => p.catalog.Truthful s'.memo := by
  induction fuel generalizing tasks s with
  | zero =>
    cases tasks with
    | nil => exact hs.memo
    | cons task tasks => exact ⟨hs.memo, counted_violation⟩
  | succ fuel ih =>
    cases tasks with
    | nil => exact hs.memo
    | cons task tasks =>
      obtain ⟨htask, htasks⟩ := List.forall_mem_cons.1 htasks
      refine (yields_step hp ht hk hread htask hs).bind fun new s' ⟨hs', hnew⟩ => ih (fun t ht => ?_) hs'
      exact (List.mem_append.1 ht).elim (hnew t) (htasks t)

end Steps

inductive Reaches (p : Program) (columns : List String) {α : Type} [Scalar α] :
    List Task → State α → List Task → State α → Prop
  | refl (tasks : List Task) (s : State α) : Reaches p columns tasks s tasks s
  | step {task : Task} {tasks new tasks' : List Task} {s s₁ s' : State α} :
      (Walk.step p columns task).run s = (.ok new, s₁) → Reaches p columns (new ++ tasks) s₁ tasks' s' →
      Reaches p columns (task :: tasks) s tasks' s'

theorem Reaches.here {read : List (List Cell)} {α : Type} [Scalar α] {tasks tasks' : List Task} {s s' : State α}
    (h : Reaches p columns tasks s tasks' s') (hp : p.Supplied) (ht : p.catalog.table.Proper) (hk : p.catalog.Keyed)
    (hread : columns ≠ [] → ∃ rows, p.catalog.Reads rows read) (htasks : ∀ task ∈ tasks, task.Leads p columns read)
    (hs : Here p columns read s) : Here p columns read s' ∧ ∀ task ∈ tasks', task.Leads p columns read := by
  induction h with
  | refl => exact ⟨hs, htasks⟩
  | @step task tasks new tasks' s s₁ s' hstep _ ih =>
    obtain ⟨htask, htasks⟩ := List.forall_mem_cons.1 htasks
    have hyields := yields_step hp ht hk hread htask hs
    unfold Yields result at hyields
    rw [hstep] at hyields
    obtain ⟨hs₁, hnew⟩ := hyields
    exact ih (fun t ht => (List.mem_append.1 ht).elim (hnew t) (htasks t)) hs₁

end Walk

end LandUse
