import LandUse.Proofs.Expansion.Cycles
import LandUse.Proofs.Expansion.Resolution

namespace LandUse

open Outcome

def Settings.Reads (s : Settings) (column : String) : Prop :=
  (∃ name q, s.parameters.get? name = some q ∧ column ∈ q.columns) ∨ ∃ dim, s.dimensions.get? dim = some column

namespace Index

variable {s : Settings}

def Gathers (s : Settings) (x : Collect Unit) : Prop :=
  ∀ ⦃r r' : References⦄, x.run r = .ok ((), r') → (∀ c ∈ r.columns, s.Reads c) → ∀ c ∈ r'.columns, s.Reads c

lemma Gathers.bind {x y : Collect Unit} (hx : Gathers s x) (hy : Gathers s y) : Gathers s (do x; y) := by
  intro r r' h hr
  rw [StateT.run_bind, bind_eq_ok] at h
  obtain ⟨⟨⟨⟩, r₁⟩, h₁, h₂⟩ := h
  exact hy h₂ (hx h₁ hr)

lemma gathers_modify {f : References → References} (hf : ∀ r, ∀ c ∈ (f r).columns, c ∈ r.columns ∨ s.Reads c) :
    Gathers s (modify f) := by
  rintro r _ ⟨⟩ hr c hc
  exact (hf r c hc).elim (hr c) id

lemma Gathers.after {f : References → References} {y : Collect Unit}
    (hf : ∀ r, ∀ c ∈ (f r).columns, c ∈ r.columns ∨ s.Reads c) (hy : Gathers s y) : Gathers s (do modify f; y) :=
  (gathers_modify hf).bind hy

lemma gathers_pure : Gathers s (pure ()) := by
  rintro r _ ⟨⟩ hr
  exact hr

lemma gathers_throw (f : Failure) : Gathers s (throw f) := fun _ _ h => nomatch h

lemma gathers_addColumn (equation dim : String) : Gathers s (addColumn s equation dim) := by
  intro r r' h hr
  obtain ⟨column, hcolumn, rfl⟩ := addColumn_eq h
  intro c hc
  rcases mem_addName.mp hc with rfl | hc
  · exact .inr ⟨dim, hcolumn⟩
  · exact hr c hc

lemma gathers_addSubscripts (equation name : String) (bound : List String) (subs : List Subscript) :
    Gathers s (addSubscripts s equation name bound subs) := by
  induction subs with
  | nil => exact gathers_pure
  | cons sub subs ih =>
    refine Gathers.bind ?_ ih
    have hfree : ∀ dim, Gathers s (do addColumn s equation dim; modify fun r => { r with free := append dim r.free }) :=
      fun dim => (gathers_addColumn equation dim).bind (gathers_modify fun _ _ => .inl)
    unfold addSubscript
    split
    · refine Gathers.after (fun _ _ => .inl) ?_
      split
      · split
        · exact (gathers_throw _).bind (hfree _)
        · exact hfree _
      · exact gathers_pure
    · exact gathers_pure

lemma gathers_addParam (equation name : String) (isVariable : Bool) (subs : List Subscript) (bound : List String) :
    Gathers s (addParam s equation name isVariable subs bound) := by
  unfold addParam
  split
  · exact Gathers.after (fun _ _ => .inl) (gathers_addSubscripts equation name bound subs)
  · refine Gathers.after (fun r c hc => ?_) (gathers_addSubscripts equation name bound subs)
    rcases mem_foldl_addName.mp hc with hc | hc
    · cases hq : s.parameters.get? name with
      | none =>
        rw [hq] at hc
        cases hc
      | some q =>
        rw [hq] at hc
        exact .inr (.inl ⟨name, q, hq, hc⟩)
    · exact .inl hc

lemma gathers_addLoop (equation dim : String) : Gathers s (addLoop s equation dim) := by
  unfold addLoop
  refine Gathers.after (fun _ _ => .inl) ?_
  split
  · exact (gathers_addColumn equation dim).bind (gathers_modify fun _ _ => .inl)
  · exact gathers_pure

mutual

theorem gathers_collect {visit : String → List String → Collect Unit}
    (hvisit : ∀ name bound, Gathers s (visit name bound))
    (equation : String) (bound : List String) : (e : Expr) → Gathers s (collect s visit equation bound e)
  | .number .. => gathers_pure
  | .param _ name isVariable subs => gathers_addParam equation name isVariable subs bound
  | .equation _ name => Gathers.after (fun _ _ => .inl) (hvisit name bound)
  | .negate _ _ arg | .group _ arg => gathers_collect hvisit equation bound arg
  | .binary _ _ _ lhs rhs =>
    (gathers_collect hvisit equation bound lhs).bind (gathers_collect hvisit equation bound rhs)
  | .call _ _ _ _ _ args => gathers_collectArgs hvisit equation bound args
  | .loop _ _ dim _ _ _ arg =>
    (gathers_addLoop equation dim).bind (gathers_collect hvisit equation (bound ++ [dim]) arg)

theorem gathers_collectArgs {visit : String → List String → Collect Unit}
    (hvisit : ∀ name bound, Gathers s (visit name bound)) (equation : String) (bound : List String) :
    (es : List Expr) → Gathers s (collectArgs s visit equation bound es)
  | [] => gathers_pure
  | e :: es => (gathers_collect hvisit equation bound e).bind (gathers_collectArgs hvisit equation bound es)

end

lemma gathers_visitEquation (tree : String → Except Failure Expr) (depth : Nat) (active : List String) (name : String)
    (bound : List String) : Gathers s (visitEquation s tree depth active name bound) := by
  induction depth generalizing active name bound with
  | zero => exact gathers_throw _
  | succ depth ih =>
    unfold visitEquation
    split
    · exact gathers_throw _
    · cases tree name with
      | error f => exact gathers_throw _
      | ok e => exact gathers_collect (ih (name :: active)) name bound e

end Index

lemma Program.Indexed.reads {p : Program} (hp : p.Indexed) {name : String} {entry : IndexEntry}
    (h : p.index.entry name = .ok entry) : ∀ c ∈ entry.columns, p.settings.Reads c := by
  obtain ⟨-, r, hr, rfl⟩ := hp.visited h
  exact Index.gathers_visitEquation _ _ _ _ _ hr (List.forall_mem_nil _)

def Failure.OnTable (f : Failure) : Prop := f.kind = .lookup ∧ ∃ text, f.message = "table " ++ text

def Fault.OnTable : Fault → Prop
  | failure f => f.OnTable
  | plain _ | violation => False

def Failure.noColumn (t : Table) (column : String) : Failure :=
  .lookup "" (-1) ("table " ++ t.name ++ " has no column " ++ column)

section Elsewhere

variable {f : Failure}

lemma not_onTable_of_kind (h : f.kind ≠ .lookup) : ¬ f.OnTable := fun hf => h hf.1

lemma not_onTable_start {a : String} (ha : 2 ≤ a.toList.length) (hne : a.toList.take 2 ≠ "ta".toList)
    (equation : String)
    (offset : Int) (rest : String) : ¬ (Failure.lookup equation offset (a ++ rest)).OnTable := by
  rintro ⟨-, text, h⟩
  have h : a ++ rest = "table " ++ text := h
  have hstart : (a ++ rest).toList.take 2 = ("table " ++ text).toList.take 2 := by rw [h]
  rw [Program.start_append rest ha, Program.start_append text (by decide)] at hstart
  exact hne hstart

lemma not_onTable_of_parse {symbols : Symbols} {sources : Dict String} {name : String}
    (h : parseNamed symbols sources name = .error f) : ¬ f.OnTable := by
  unfold parseNamed at h
  split at h
  · cases h
    exact not_onTable_start (by decide) (by decide) _ _ _
  · split at h <;> cases h
    exact not_onTable_of_kind nofun

lemma not_onTable_of_index {s : Settings} (h : Index.build s = .error f) : ¬ f.OnTable := by
  have hvisit : ∀ depth active name bound, Index.FailsWith (¬ ·.OnTable)
      (Index.visitEquation s (treeIn (parseAll s.symbols s.equations)) depth active name bound) := by
    intro depth
    induction depth with
    | zero => exact fun _ _ _ => Index.failsWith_throw (not_onTable_of_kind fun h => by cases h)
    | succ depth ih =>
      intro active name bound
      unfold Index.visitEquation
      split
      · exact Index.failsWith_throw (not_onTable_of_kind fun h => by cases h)
      · cases he : treeIn (parseAll s.symbols s.equations) name with
        | error f =>
          rw [Index.treeIn_eq] at he
          refine Index.failsWith_throw ?_
          split at he
          · exact not_onTable_of_parse he
          · cases he
            exact not_onTable_start (by decide) (by decide) _ _ _
        | ok e =>
          have hdim : ∀ f : Failure, f.kind = .dimension → ¬ f.OnTable := fun f hf => not_onTable_of_kind fun h => by
            cases hf.symm.trans h
          exact Index.failsWith_collect hdim name bound e fun b _ bound => ih (name :: active) b bound
  obtain ⟨name, -, hname⟩ := exists_of_mapM_error h
  rcases bind_eq_error.mp hname with hname | ⟨x, -, hx⟩
  · exact hvisit _ _ _ _ _ f hname
  · cases hx

end Elsewhere

namespace Program

variable {p : Program} {frame : Frame} {columns : List String} {name : String} {f : Failure}
variable {subs : List Subscript} {e : Fault}

lemma not_onTable_orFault {β γ : Type} {x : Except Failure β} {g : β → Except Fault γ}
    (hx : ∀ f, x = .error f → ¬ f.OnTable) (hg : ∀ b, g b = .error e → ¬ e.OnTable) (h : (orFault x >>= g) = .error e) :
    ¬ e.OnTable := by
  cases x with
  | ok b => exact hg b h
  | error f =>
    cases h
    exact hx f rfl

variable {α : Type} [Scalar α]

lemma not_onTable_reference {isVariable : Bool}
    (h : (p.reference frame columns name isVariable subs : Except Fault (Instr α)) = .error e) : ¬ e.OnTable := by
  cases refused_reference h with
  | unbound | noOption => exact not_onTable_of_kind nofun
  | empty => exact not_false
  | noInstance | unknown => exact not_onTable_start (by decide) (by decide) _ _ _
  | noRow =>
    rw [String.append_assoc]
    exact not_onTable_start (by decide) (by decide) _ _ _
  | noColumn | noNumber | noValue =>
    rw [String.append_assoc, String.append_assoc]
    exact not_onTable_start (by decide) (by decide) _ _ _
  | unread =>
    rw [String.append_assoc, String.append_assoc, String.append_assoc]
    exact not_onTable_start (by decide) (by decide) _ _ _

end Program

namespace Catalog

variable {c : Catalog} {f : Failure}

lemma resolve_kind {dim : String} (h : c.resolve dim = .error f) : f.kind = .dimension := by
  unfold resolve at h
  split at h
  · cases h
  · split at h <;> cases h
    rfl

lemma restricting_kind {dim : String} {bs : List Binding} (h : c.restricting dim bs = .error f) :
    f.kind = .dimension := by
  induction bs with
  | nil => cases h
  | cons b bs ih =>
    rw [restricting] at h
    rcases bind_eq_error.mp h with h | ⟨d, -, h⟩
    · exact resolve_kind h
    · split at h
      · cases h
      · rcases bind_eq_error.mp h with h | ⟨r, -, h⟩
        · exact ih h
        · cases h

lemma not_onTable_access (h : IsAccess f) : ¬ f.OnTable := by
  obtain ⟨message, rfl⟩ := h
  exact not_onTable_of_kind nofun

lemma elsewhere_conditionalLength (dim : String) (outer : List Binding) :
    Fails (¬ ·.OnTable) (c.conditionalLength dim outer) := by
  unfold conditionalLength
  refine (fails_liftM fun f hf => not_onTable_of_kind (resolve_kind hf ▸ nofun)).bind fun _ d hd => ?_
  split
  · exact fails_pure _
  · refine (fails_liftM fun f hf => not_onTable_of_kind (restricting_kind hf ▸ nofun)).bind fun _ r hr => ?_
    split
    · exact fails_pure _
    · exact (fails_length ⟨d, hd⟩).imp fun _ => not_onTable_access
    · exact (fails_cascade dim _ [] _).imp fun _ => not_onTable_access

lemma elsewhere_values (dim : String) : Fails (¬ ·.OnTable) (c.values dim) := by
  unfold values
  refine (fails_liftM fun f hf => not_onTable_of_kind (resolve_kind hf ▸ nofun)).bind fun _ d hd => ?_
  split
  · exact fails_pure _
  · refine fails_get.bind fun _ m _ => ?_
    split
    · exact fails_pure _
    · refine (fails_liftM fun f hf => ?_).bind fun _ _ _ => (fails_modify _).bind fun _ _ _ => fails_pure _
      rcases bind_eq_error.mp hf with hf | ⟨_, -, hf⟩
      · exact not_onTable_access (access_of_aggregate hf)
      · cases hf

end Catalog

namespace Walk

variable {p : Program} {columns : List String} {α : Type} [Scalar α]

omit [Scalar α] in
lemma fails_ask {β : Type} {P : Fault → Prop} {q : Catalog.Query β} (hq : Fails (fun f => P (.failure f)) q) :
    Fails P (ask (α := α) q) := by
  intro s e h
  rw [ask, result_bind, result_get, proceed_ok] at h
  cases hr : result q s.memo with
  | mk answer memo =>
    have hrun : q.run s.memo = (answer, memo) := hr
    rw [hrun] at h
    cases answer with
    | ok b => cases h
    | error f =>
      cases h
      exact hq s.memo f (congrArg Prod.fst hr)

omit [Scalar α] in
lemma elsewhere_iterations (dim : String) : Fails (¬ ·.OnTable) (iterations (α := α) p columns dim) := by
  unfold iterations
  refine fails_get.bind fun _ s _ => ?_
  have hcheck : Fails (¬ ·.OnTable) (check (α := α) (p.catalog.resolve dim)) := by
    cases hd : p.catalog.resolve dim with
    | ok d => exact fails_pure _
    | error f => exact fails_throw (not_onTable_of_kind (Catalog.resolve_kind hd ▸ nofun))
  refine hcheck.bind fun _ d _ => ?_
  split
  · exact fails_pure _
  · split
    · exact fails_throw (not_onTable_of_kind fun h => by cases h)
    · refine (fails_ask (Catalog.elsewhere_conditionalLength dim _)).bind fun _ n _ => ?_
      split
      · exact fails_pure _
      · exact fails_throw (not_onTable_of_kind fun h => by cases h)

omit [Scalar α] in
lemma fails_emitAll {P : Fault → Prop} (is : List (Instr α)) : Fails P (emitAll is) := by
  induction is with
  | nil => exact fails_pure _
  | cons i is ih => exact (fails_modify _).bind fun _ _ _ => ih

lemma elsewhere_loop (keyword : Keyword) (dim : String) (body : List CodeToken) :
    Fails (¬ ·.OnTable) (loop (α := α) p columns keyword dim body) := by
  unfold loop
  refine (elsewhere_iterations dim).bind fun _ its _ => fails_get.bind fun _ s _ => ?_
  dsimp only
  split
  · split
    · refine Fails.bind (fails_throw ?_) fun _ _ _ => (fails_modify _).bind fun _ _ _ => fails_pure _
      exact not_onTable_of_kind nofun
    · exact (fails_modify _).bind fun _ _ _ => fails_pure _
  · exact (fails_emitAll _).bind fun _ _ _ => fails_pure _

lemma elsewhere_token (t : CodeToken) (rest : List CodeToken) :
    Fails (¬ ·.OnTable) (token (α := α) p columns t rest) := by
  unfold token
  split
  case h_4 name isVariable subs =>
    refine fails_get.bind fun _ s _ => ?_
    split
    · exact (fails_modify _).bind fun _ _ _ => fails_pure _
    · exact fails_throw (Program.not_onTable_reference ‹_›)
  case h_5 name =>
    split
    · exact fails_get.bind fun _ _ _ => fails_pure _
    · exact fails_throw (not_onTable_start (by decide) (by decide) _ _ _)
  case h_6 keyword dim _ body => exact (elsewhere_loop keyword dim _).bind fun _ _ _ => fails_pure _
  all_goals exact (fails_modify _).bind fun _ _ _ => fails_pure _

lemma elsewhere_step (task : Task) : Fails (¬ ·.OnTable) (step (α := α) p columns task) := by
  unfold step
  split
  case h_1 => exact fails_pure _
  case h_2 t rest => exact elsewhere_token t rest
  case h_3 => exact fails_get.bind fun _ _ _ => (fails_modify _).bind fun _ _ _ => fails_pure _
  case h_4 => exact (fails_modify _).bind fun _ _ _ => fails_pure _
  case h_5 =>
    refine fails_get.bind fun _ s _ => ?_
    refine (fails_modify _).bind fun _ _ _ => ?_
    split
    · exact fails_throw not_false
    · exact (fails_modify _).bind fun _ _ _ => fails_pure _
  case h_6 => exact (fails_modify _).bind fun _ _ _ => (fails_modify _).bind fun _ _ _ => fails_pure _

lemma elsewhere_run (fuel : Nat) (tasks : List Task) : Fails (¬ ·.OnTable) (run (α := α) p columns fuel tasks) := by
  induction fuel generalizing tasks with
  | zero =>
    cases tasks with
    | nil => exact fails_pure _
    | cons task tasks => exact fails_throw not_false
  | succ fuel ih =>
    cases tasks with
    | nil => exact fails_pure _
    | cons task tasks => exact (elsewhere_step task).bind fun _ new _ => ih (new ++ tasks)

end Walk

namespace Program

variable {f : Failure}

lemma not_onTable_catalog {t : Table} {columns : Dict String} {options : List String} {condition : String}
    (h : Catalog.make t columns options condition = .error f) : ¬ f.OnTable := by
  rcases bind_eq_error.mp h with h | ⟨_, -, h⟩
  · obtain ⟨⟨name, column⟩, -, h⟩ := exists_of_forM_error h
    dsimp only at h
    split at h
    · cases h
      exact not_onTable_of_kind nofun
    · split at h <;> cases h
      exact not_onTable_of_kind nofun
  · cases h

lemma not_onTable_declareAll {vs : List Variable} (h : declareAll vs = .error f) : ¬ f.OnTable := by
  obtain ⟨o, v, -, h⟩ := exists_of_foldlM_error h
  unfold Offsets.declare at h
  split at h <;> cases h
  rw [String.append_assoc]
  exact not_onTable_start (by decide) (by decide) _ _ _

lemma not_onTable_enumerateEach {c : Catalog} {vs : List Variable} {o : Offsets} {memo : Catalog.Memo}
    (h : (Offsets.enumerateEach c o memo vs).1 = .error f) : ¬ f.OnTable := by
  have henumerate : ∀ o v, Fails (¬ ·.OnTable) (Offsets.enumerate c o v) := fun o v =>
    (fails_mapM fun dim _ => Catalog.elsewhere_values dim).bind fun _ _ _ => fails_pure _
  induction vs generalizing o memo with
  | nil => cases h
  | cons v vs ih =>
    unfold Offsets.enumerateEach at h
    split at h
    · exact ih h
    · rename_i f' memo' hrun
      cases h
      exact henumerate o v memo f (congrArg Prod.fst hrun)

lemma not_onTable_make {s : Settings} {t : Table} {condition : String} (h : make s t condition = .error f) :
    ¬ f.OnTable := by
  unfold make at h
  rcases bind_eq_error.mp h with h | ⟨index, -, h⟩
  · exact not_onTable_of_index h
  rcases bind_eq_error.mp h with h | ⟨catalog, -, h⟩
  · exact not_onTable_catalog h
  rcases bind_eq_error.mp h with h | ⟨declared, -, h⟩
  · exact not_onTable_declareAll h
  rcases bind_eq_error.mp h with h | ⟨_, -, h⟩
  · exact not_onTable_enumerateEach h
  rcases bind_eq_error.mp h with h | ⟨trees, -, h⟩
  · obtain ⟨name, -, hname⟩ := exists_of_mapM_error h
    rcases bind_eq_error.mp hname with hname | ⟨_, -, hname⟩
    · exact not_onTable_of_parse hname
    · cases hname
  · cases h

section Generate

variable {p : Program} {α σ : Type} [Scalar α] {sink : Sink α σ} {entry : IndexEntry} {code : Code}
  {template : Segment α} {base : Frame}
  (hsink : ∀ state segment code complete e, (sink.receive state segment code complete).1 = .error e → ¬ e.OnTable)
include hsink

variable {g : Generation σ} {e : Fault}

lemma not_onTable_generateGroup {bindings : List Binding} {rows : List Row}
    (h : (p.generateGroup sink entry code template base bindings rows g).1 = .error e) : ¬ e.OnTable := by
  unfold generateGroup at h
  cases hwalk : (p.walk (α := α) entry.columns entry.name code.tokens).run
      ⟨g.scope.restore ⟨entry.name, base.bindings ++ bindings, rows⟩, g.memo, []⟩ with
  | mk outcome s =>
    dsimp only at h
    rw [hwalk] at h
    cases outcome with
    | ok _ => exact hsink _ _ _ _ e h
    | error e' =>
      cases h
      exact Walk.elsewhere_run _ _ _ e (congrArg Prod.fst hwalk)

lemma not_onTable_generateGroups {groups : List (List Binding × List Row)}
    (h : (p.generateGroups sink entry code template base groups g).1 = .error e) : ¬ e.OnTable := by
  induction groups generalizing g with
  | nil => cases h
  | cons group groups ih =>
    unfold generateGroups at h
    split at h
    · exact ih h
    · rename_i e' g' hgroup
      cases h
      exact not_onTable_generateGroup hsink (congrArg Prod.fst hgroup)

lemma noColumn_of_generate (hp : p.Supplied) (hi : p.Indexed) {name : String}
    (h : (p.generate sink name template g).1 = .error e) (he : e.OnTable) :
    ∃ column, p.settings.Reads column ∧ p.catalog.table.hasColumn column = false ∧
      e = .failure (.noColumn p.catalog.table column) := by
  unfold generate at h
  cases hgroups : p.groupsOf name template with
  | ok x =>
    rw [hgroups] at h
    dsimp only at h
    cases hr : (p.generateGroups sink x.1 x.2.1 template g.scope.frame x.2.2 g).1 with
    | ok _ =>
      rw [hr] at h
      cases h
    | error e' =>
      rw [hr] at h
      cases h
      exact absurd he (not_onTable_generateGroups hsink hr)
  | error f =>
    rw [hgroups] at h
    cases h
    rcases groupsOf_eq_error hp hi hgroups with h | rfl | ⟨s, rfl⟩ | ⟨entry, order, hentry, hsub, h⟩
    · unfold Index.entry at h
      split at h <;> cases h
      rw [String.append_assoc] at he
      exact absurd he (not_onTable_start (by decide) (by decide) _ _ _)
    · exact absurd he (not_onTable_start (by decide) (by decide) _ _ _)
    · exact absurd he (not_onTable_of_kind fun h => by cases h)
    · rcases Table.select_eq_error h with ⟨column, hcolumn, hmissing, rfl⟩ | ⟨message, rfl⟩
      · have hmem : column ∈ entry.columns := (List.mem_append.mp hcolumn).elim id (hsub ·)
        exact ⟨column, hi.reads hentry column hmem, hmissing, rfl⟩
      · exact absurd he (not_onTable_of_kind nofun)

end Generate

end Program

end LandUse
