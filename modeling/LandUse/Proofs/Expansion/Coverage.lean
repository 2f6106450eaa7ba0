import LandUse.Proofs.Expansion.References
import LandUse.Proofs.Grammar.Names

/-! What an index covers: the dimensions in subscripts are bound or free, and the columns needed are read. -/

namespace LandUse

open Outcome

mutual

def Expr.Covered (s : Settings) (columns free : List String) (visit : String → List String → Prop)
    (bound : List String) : Expr → Prop
  | .number .. => True
  | .param _ name isVariable subs =>
    (∀ sub ∈ subs, ∀ d, sub.Names d → d ∈ bound ∨ d ∈ free) ∧
      (isVariable = false → ∀ p, s.parameters.get? name = some p → p.columns ⊆ columns)
  | .equation _ name => visit name bound
  | .negate _ _ arg => arg.Covered s columns free visit bound
  | .binary _ _ _ lhs rhs => lhs.Covered s columns free visit bound ∧ rhs.Covered s columns free visit bound
  | .group _ arg => arg.Covered s columns free visit bound
  | .call _ _ _ _ _ args => ArgumentsCovered s columns free visit bound args
  | .loop _ _ dim _ _ _ arg =>
    (dim ≠ optionsDimension → ∃ column, s.dimensions.get? dim = some column ∧ column ∈ columns) ∧
      arg.Covered s columns free visit (bound ++ [dim])

def ArgumentsCovered (s : Settings) (columns free : List String) (visit : String → List String → Prop)
    (bound : List String) : List Expr → Prop
  | [] => True
  | e :: es => e.Covered s columns free visit bound ∧ ArgumentsCovered s columns free visit bound es

end

namespace Index

lemma mem_addName {name n : String} {names : List String} : n ∈ addName name names ↔ n = name ∨ n ∈ names := by
  induction names with
  | nil => simp [addName]
  | cons m names ih =>
    unfold addName
    split_ifs with h h'
    · obtain rfl := beq_iff_eq.1 h
      simp
    · exact List.mem_cons
    · simp only [List.mem_cons, ih]
      tauto

lemma mem_append {name n : String} {names : List String} : n ∈ append name names ↔ n = name ∨ n ∈ names := by
  unfold append
  split_ifs with h
  · have hmem : name ∈ names := List.contains_iff_mem.1 h
    exact ⟨.inr, fun h => h.elim (fun h => h ▸ hmem) id⟩
  · simp [or_comm]

lemma mem_foldl_addName {n : String} {added names : List String} :
    n ∈ added.foldl (fun names name => addName name names) names ↔ n ∈ added ∨ n ∈ names := by
  induction added generalizing names with
  | nil => simp
  | cons a added ih =>
    rw [List.foldl_cons, ih, mem_addName, List.mem_cons]
    tauto

structure References.Within (r r' : References) : Prop where
  columns : r.columns ⊆ r'.columns
  free : r.free ⊆ r'.free

lemma References.Within.refl (r : References) : r.Within r := ⟨List.Subset.refl _, List.Subset.refl _⟩

lemma References.Within.trans {r r' r'' : References} (h : r.Within r') (h' : r'.Within r'') : r.Within r'' :=
  ⟨List.Subset.trans h.columns h'.columns, List.Subset.trans h.free h'.free⟩

variable {s : Settings}

def References.Defined (s : Settings) (r : References) : Prop :=
  ∀ d, d ∈ r.free ∨ d ∈ r.loops → PlainName d ∧ d ≠ optionsDimension ∧
    ∃ column, s.dimensions.get? d = some column ∧ column ∈ r.columns

def Notes (s : Settings) (x : Collect Unit) (P : References → Prop) : Prop :=
  ∀ ⦃r r' : References⦄, x.run r = .ok ((), r') →
    r.Within r' ∧ (r.Defined s → r'.Defined s) ∧ ∀ ⦃final : References⦄, r'.Within final → P final

lemma Notes.bind {x y : Collect Unit} {P Q : References → Prop} (hx : Notes s x P) (hy : Notes s y Q) :
    Notes s (do x; y) fun final => P final ∧ Q final := by
  intro r r' h
  rw [StateT.run_bind, bind_eq_ok] at h
  obtain ⟨⟨⟨⟩, r₁⟩, h₁, h₂⟩ := h
  obtain ⟨hw₁, hd₁, hp⟩ := hx h₁
  obtain ⟨hw₂, hd₂, hq⟩ := hy h₂
  exact ⟨hw₁.trans hw₂, fun h => hd₂ (hd₁ h), fun final hf => ⟨hp (hw₂.trans hf), hq hf⟩⟩

lemma Notes.imp {x : Collect Unit} {P Q : References → Prop} (hx : Notes s x P) (h : ∀ final, P final → Q final) :
    Notes s x Q := fun _ _ hr => ⟨(hx hr).1, (hx hr).2.1, fun final hf => h final ((hx hr).2.2 hf)⟩

lemma notes_pure : Notes s (pure ()) fun _ => True := by
  rintro r _ ⟨⟩
  exact ⟨.refl r, id, fun _ _ => trivial⟩

lemma notes_throw {P : References → Prop} (f : Failure) : Notes s (throw f) P := fun _ _ h => nomatch h

lemma Notes.after {f : References → References} {y : Collect Unit} {P : References → Prop}
    (hf : ∀ r, (f r).columns = r.columns ∧ (f r).free = r.free ∧ (f r).loops = r.loops) (hy : Notes s y P) :
    Notes s (do modify f; y) P := by
  intro r r' h
  obtain ⟨hwithin, hdefined, hp⟩ := hy (r := f r) h
  obtain ⟨hc, hf, hl⟩ := hf r
  refine ⟨⟨hc ▸ hwithin.columns, hf ▸ hwithin.free⟩, fun hd => hdefined ?_, hp⟩
  unfold References.Defined
  rw [hc, hf, hl]
  exact hd

lemma addColumn_eq {equation dim : String} {r r' : References} (h : (addColumn s equation dim).run r = .ok ((), r')) :
    ∃ column, s.dimensions.get? dim = some column ∧ r' = { r with columns := addName column r.columns } := by
  unfold addColumn at h
  cases hd : s.dimensions.get? dim with
  | none =>
    rw [hd] at h
    cases h
  | some column =>
    rw [hd] at h
    cases h
    exact ⟨column, rfl, rfl⟩

lemma References.Defined.add {dim column : String} {r r' : References} (h : r.Defined s) (hplain : PlainName dim)
    (hdim : dim ≠ optionsDimension) (hcolumn : s.dimensions.get? dim = some column)
    (hc : r'.columns = addName column r.columns)
    (hd : ∀ d, d ∈ r'.free ∨ d ∈ r'.loops → d = dim ∨ d ∈ r.free ∨ d ∈ r.loops) : r'.Defined s := by
  intro d hmem
  rw [hc]
  rcases hd d hmem with rfl | hmem
  · exact ⟨hplain, hdim, column, hcolumn, mem_addName.2 (.inl rfl)⟩
  · obtain ⟨hplain, hne, column', hget, hin⟩ := h d hmem
    exact ⟨hplain, hne, column', hget, mem_addName.2 (.inr hin)⟩

lemma notes_free (equation : String) {dim : String} (hplain : PlainName dim) (hdim : dim ≠ optionsDimension) :
    Notes s (do addColumn s equation dim; modify fun r => { r with free := append dim r.free })
      fun final => dim ∈ final.free := by
  intro r r' h
  rw [StateT.run_bind, bind_eq_ok] at h
  obtain ⟨⟨⟨⟩, r₁⟩, h₁, h₂⟩ := h
  obtain ⟨column, hcolumn, rfl⟩ := addColumn_eq h₁
  cases h₂
  refine ⟨⟨fun _ h => mem_addName.2 (.inr h), fun _ h => mem_append.2 (.inr h)⟩, fun hd => ?_, fun final hf => ?_⟩
  · refine hd.add hplain hdim hcolumn rfl fun d hmem => ?_
    rcases hmem with hmem | hmem
    · exact (mem_append.1 hmem).imp_right .inl
    · exact .inr (.inr hmem)
  · exact hf.free (mem_append.2 (.inl rfl))

lemma notes_addLoop (equation : String) {dim : String} (hplain : PlainName dim) :
    Notes s (addLoop s equation dim) fun final =>
    dim ≠ optionsDimension → ∃ column, s.dimensions.get? dim = some column ∧ column ∈ final.columns := by
  unfold addLoop
  refine .after (fun _ => ⟨rfl, rfl, rfl⟩) ?_
  by_cases hdim : dim = optionsDimension
  · rw [if_neg (by simp [hdim])]
    exact notes_pure.imp fun _ _ h => absurd hdim h
  · rw [if_pos (by simp [hdim])]
    intro r r' h
    rw [StateT.run_bind, bind_eq_ok] at h
    obtain ⟨⟨⟨⟩, r₁⟩, h₁, h₂⟩ := h
    obtain ⟨column, hcolumn, rfl⟩ := addColumn_eq h₁
    cases h₂
    refine ⟨⟨fun _ h => mem_addName.2 (.inr h), List.Subset.refl _⟩, fun hd => ?_, fun final hf _ => ?_⟩
    · refine hd.add hplain hdim hcolumn rfl fun d hmem => ?_
      rcases hmem with hmem | hmem
      · exact .inr (.inl hmem)
      · exact (mem_append.1 hmem).imp_right .inr
    · exact ⟨column, hcolumn, hf.columns (mem_addName.2 (.inl rfl))⟩

lemma notes_addSubscript (equation name : String) (bound : List String) {sub : Subscript}
    (hplain : ∀ d, sub.Names d → PlainName d) : Notes s (addSubscript s equation name bound sub) fun final =>
      ∀ d, sub.Names d → d ∈ bound ∨ d ∈ final.free := by
  cases sub with
  | option span name index => exact notes_pure.imp fun _ _ _ h => h.elim
  | index span value expr => exact notes_pure.imp fun _ _ _ h => h.elim
  | dim span dim =>
    unfold addSubscript
    refine .after (fun _ => ⟨rfl, rfl, rfl⟩) (.imp (P := fun final => dim ∈ bound ∨ dim ∈ final.free) ?_
      fun _ h d hd => hd ▸ h)
    by_cases hb : dim ∈ bound
    · rw [if_neg (by simp [hb])]
      exact notes_pure.imp fun _ _ => .inl hb
    · rw [if_pos (by simp [hb])]
      by_cases hdim : dim = optionsDimension
      · rw [if_pos (by simp [hdim])]
        exact notes_throw _
      · rw [if_neg (by simp [hdim])]
        exact (notes_free equation (hplain dim rfl) hdim).imp fun _ => .inr

lemma notes_addSubscripts (equation name : String) (bound : List String) {subs : List Subscript}
    (hplain : ∀ sub ∈ subs, ∀ d, sub.Names d → PlainName d) :
    Notes s (addSubscripts s equation name bound subs) fun final =>
      ∀ sub ∈ subs, ∀ d, sub.Names d → d ∈ bound ∨ d ∈ final.free := by
  induction subs with
  | nil => exact notes_pure.imp fun _ _ _ h => nomatch h
  | cons sub subs ih =>
    obtain ⟨hsub, hsubs⟩ := List.forall_mem_cons.1 hplain
    exact ((notes_addSubscript equation name bound hsub).bind (ih hsubs)).imp fun _ h => List.forall_mem_cons.2 h

lemma notes_addParam (equation name : String) (isVariable : Bool) {subs : List Subscript} (bound : List String)
    (hplain : ∀ sub ∈ subs, ∀ d, sub.Names d → PlainName d) :
    Notes s (addParam s equation name isVariable subs bound) fun final =>
      (∀ sub ∈ subs, ∀ d, sub.Names d → d ∈ bound ∨ d ∈ final.free) ∧
        (isVariable = false → ∀ p, s.parameters.get? name = some p → p.columns ⊆ final.columns) := by
  cases isVariable with
  | true =>
    refine Notes.after (fun _ => ⟨rfl, rfl, rfl⟩) ((notes_addSubscripts equation name bound hplain).imp fun _ h => ?_)
    exact ⟨h, fun h => nomatch h⟩
  | false =>
    have hcolumns : Notes s (modify fun r : References => { r with
        parameters := addName name r.parameters
        columns := (((s.parameters.get? name).map (·.columns)).getD []).foldl (fun cs c => addName c cs) r.columns })
        fun final => ∀ p, s.parameters.get? name = some p → p.columns ⊆ final.columns := by
      rintro r _ ⟨⟩
      refine ⟨⟨fun _ h => mem_foldl_addName.2 (.inr h), List.Subset.refl _⟩, fun hd d hmem => ?_, ?_⟩
      · obtain ⟨hname, hne, column, hget, hin⟩ := hd d hmem
        exact ⟨hname, hne, column, hget, mem_foldl_addName.2 (.inr hin)⟩
      · intro final hf p hp c hc
        exact hf.columns (mem_foldl_addName.2 (.inl (by rwa [hp])))
    exact (hcolumns.bind (notes_addSubscripts equation name bound hplain)).imp fun _ h => ⟨h.2, fun _ => h.1⟩

mutual

theorem notes_collect {visit : String → List String → Collect Unit} {V : References → String → List String → Prop}
    (hvisit : ∀ name bound, Notes s (visit name bound) fun final => V final name bound) (equation : String)
    (bound : List String) : (e : Expr) → e.ForDims PlainName → Notes s (collect s visit equation bound e) fun final =>
      e.Covered s final.columns final.free (V final) bound
  | .number .., _ => notes_pure
  | .param _ name isVariable _, h => notes_addParam equation name isVariable bound h
  | .equation _ name, _ => Notes.after (fun _ => ⟨rfl, rfl, rfl⟩) (hvisit name bound)
  | .negate _ _ arg, h | .group _ arg, h => notes_collect hvisit equation bound arg h
  | .binary _ _ _ lhs rhs, h =>
    (notes_collect hvisit equation bound lhs h.1).bind (notes_collect hvisit equation bound rhs h.2)
  | .call _ _ _ _ _ args, h => notes_collectArgs hvisit equation bound args h
  | .loop _ _ dim _ _ _ arg, h =>
    (notes_addLoop equation h.1).bind (notes_collect hvisit equation (bound ++ [dim]) arg h.2)

theorem notes_collectArgs {visit : String → List String → Collect Unit} {V : References → String → List String → Prop}
    (hvisit : ∀ name bound, Notes s (visit name bound) fun final => V final name bound) (equation : String)
    (bound : List String) : (es : List Expr) → ArgumentsForDims PlainName es →
    Notes s (collectArgs s visit equation bound es) fun final =>
      ArgumentsCovered s final.columns final.free (V final) bound es
  | [], _ => notes_pure
  | e :: es, h => (notes_collect hvisit equation bound e h.1).bind (notes_collectArgs hvisit equation bound es h.2)

end

end Index

namespace Program

def Covered (p : Program) (columns free : List String) : Nat → String → List String → Prop
  | 0, _, _ => False
  | depth + 1, name, bound => ∃ e, p.trees.get? name = some e ∧
      e.Covered p.settings columns free (p.Covered columns free depth) bound

variable {p : Program}

lemma notes_visitEquation {tree : String → Except Failure Expr}
    (htree : ∀ name e, tree name = .ok e → p.trees.get? name = some e ∧ e.ForDims PlainName) (depth : Nat)
    (active : List String)
    (name : String) (bound : List String) :
    Index.Notes p.settings (Index.visitEquation p.settings tree depth active name bound) fun final =>
      p.Covered final.columns final.free depth name bound := by
  induction depth generalizing active name bound with
  | zero => exact Index.notes_throw _
  | succ depth ih =>
    unfold Index.visitEquation
    split
    case isTrue => exact Index.notes_throw _
    case isFalse =>
      cases he : tree name with
      | error f => exact Index.notes_throw _
      | ok e =>
        obtain ⟨hget, hplain⟩ := htree name e he
        have hcollect := Index.notes_collect (ih (name :: active)) name bound e hplain
        intro r r' h
        exact hcollect.imp (fun final h => ⟨e, hget, h⟩) h

structure Covers (p : Program) (entry : IndexEntry) : Prop where
  equation : ∃ depth, p.Covered entry.columns entry.free depth entry.name []
  plain : ∀ d ∈ entry.free ++ entry.loops, PlainName d
  sorted : ∀ d ∈ entry.free ++ entry.loops, d ≠ optionsDimension ∧
    ∃ column, p.settings.dimensions.get? d = some column ∧ column ∈ entry.columns

lemma Indexed.plain (hp : p.Indexed) {name : String} {e : Expr} (h : p.trees.get? name = some e) :
    e.ForDims PlainName := Grammar.plain_of_parseNamed (hp.get?_trees.1 h).2

theorem Indexed.covers (hp : p.Indexed) {name : String} {entry : IndexEntry} (h : p.index.entry name = .ok entry) :
    p.Covers entry := by
  obtain ⟨-, r, hr, rfl⟩ := hp.visited h
  have hnotes := notes_visitEquation
    (fun _ _ h => ⟨(hp.tree_of_treeIn h).2, hp.plain (hp.tree_of_treeIn h).2⟩) (p.settings.equations.length + 2)
    [] name []
  obtain ⟨-, hdefined, hcovered⟩ := hnotes hr
  have hdefined : r.Defined p.settings := hdefined fun _ h => h.elim (nomatch ·) (nomatch ·)
  have hnoted : ∀ d ∈ (Index.entryOf name r).free ++ (Index.entryOf name r).loops, d ∈ r.free ∨ d ∈ r.loops :=
    fun d hd => (List.mem_append.1 hd).imp_right List.mem_of_mem_filter
  exact ⟨⟨_, hcovered (.refl r)⟩, fun d hd => (hdefined d (hnoted d hd)).1, fun d hd => (hdefined d (hnoted d hd)).2⟩

end Program

end LandUse
