import LandUse.Proofs.Expansion.References
import Mathlib.Logic.Relation

/-! The index as a recursion without a bound, which succeeds only if no equation reaches itself. -/

namespace LandUse

open Outcome

mutual

def Expr.references : Expr → List String
  | .number .. | .param .. => []
  | .equation _ name => [name]
  | .negate _ _ arg => arg.references
  | .binary _ _ _ lhs rhs => lhs.references ++ rhs.references
  | .group _ arg => arg.references
  | .call _ _ _ _ _ args => argumentReferences args
  | .loop _ _ _ _ _ _ arg => arg.references

def argumentReferences : List Expr → List String
  | [] => []
  | e :: es => e.references ++ argumentReferences es

end

mutual

theorem Expr.forRefs_iff {P : String → Prop} : (e : Expr) → (e.ForRefs P ↔ ∀ name ∈ e.references, P name)
  | .number .. | .param .. => by simp [Expr.ForRefs, Expr.references]
  | .equation .. => by simp [Expr.ForRefs, Expr.references]
  | .negate _ _ arg | .group _ arg | .loop _ _ _ _ _ _ arg => Expr.forRefs_iff arg
  | .binary _ _ _ lhs rhs => by
    rw [Expr.ForRefs, Expr.references, List.forall_mem_append, Expr.forRefs_iff lhs, Expr.forRefs_iff rhs]
  | .call _ _ _ _ _ args => argumentsForRefs_iff args

theorem argumentsForRefs_iff {P : String → Prop} :
    (es : List Expr) → (ArgumentsForRefs P es ↔ ∀ name ∈ argumentReferences es, P name)
  | [] => by simp [ArgumentsForRefs, argumentReferences]
  | e :: es => by
    rw [ArgumentsForRefs, argumentReferences, List.forall_mem_append, Expr.forRefs_iff e, argumentsForRefs_iff es]

end

def Settings.Refers (s : Settings) (a b : String) : Prop :=
  ∃ e, parseNamed s.symbols s.equations a = .ok e ∧ b ∈ e.references

def Settings.ReachesItself (s : Settings) (name : String) : Prop := Relation.TransGen s.Refers name name

lemma Dict.get?_eq_none {β : Type} {d : Dict β} {name : String} : d.get? name = none ↔ name ∉ d.names := by
  rw [Dict.get?, List.lookup_eq_none_iff, Dict.names, List.mem_map, not_exists]
  exact forall_congr' fun x => ⟨fun h hx => by simpa [hx.2] using h hx.1,
    fun h hx => by simpa using fun hname : name = x.1 => h ⟨hx, hname.symm⟩⟩

namespace Index

variable (s : Settings)

def remaining (active : List String) : List String := s.equations.names.filter (· ∉ active)

variable {s} in
lemma remaining_cons_lt {active : List String} {name : String} (hname : name ∈ s.equations.names)
    (hactive : name ∉ active) : (remaining s (name :: active)).length < (remaining s active).length := by
  have hsub : List.Sublist (remaining s (name :: active)) (remaining s active) :=
    List.monotone_filter_right _ fun n hn => by simp_all
  refine Nat.lt_of_le_of_ne hsub.length_le fun hlen => ?_
  have heq : remaining s (name :: active) = remaining s active := hsub.eq_of_length hlen
  have hmem : name ∈ remaining s (name :: active) := heq ▸ by simp [remaining, hname, hactive]
  simp [remaining] at hmem

def visit (active : List String) : String → List String → Collect Unit := fun name bound =>
  if _ : name ∈ active then throw (.parse name (-1) ("cyclic reference to equation " ++ name))
  else if _ : name ∈ s.equations.names then do
    let e ← parseNamed s.symbols s.equations name
    collect s (visit (name :: active)) name bound e
  else throw (.lookup name (-1) ("unknown equation " ++ name))
termination_by (remaining s active).length
decreasing_by exact remaining_cons_lt ‹_› ‹_›

def buildUnbounded : Except Failure Index :=
  s.equations.names.mapM fun name => do
    let (_, r) ← (visit s [] name []).run {}
    return (name, entryOf name r)

variable {s}

lemma treeIn_eq (name : String) : treeIn (parseAll s.symbols s.equations) name =
    if name ∈ s.equations.names then parseNamed s.symbols s.equations name
    else .error (.lookup name (-1) ("unknown equation " ++ name)) := by
  rw [treeIn, parseAll, Dict.get?_map _ fun n _ => parseNamed s.symbols s.equations n]
  cases hget : s.equations.get? name with
  | some src => rw [if_pos (Dict.mem_names_of_get? hget), Option.map_some]
  | none => rw [if_neg (Dict.get?_eq_none.mp hget), Option.map_none]

/-- A way without repetition has at most as many equations as there are. -/
lemma visitEquation_eq_visit {depth : Nat} {active : List String} (hnodup : active.Nodup)
    (hsub : active ⊆ s.equations.names) (hdepth : s.equations.names.length < depth + active.length) :
    visitEquation s (treeIn (parseAll s.symbols s.equations)) depth active = visit s active := by
  induction depth generalizing active with
  | zero =>
    have := (List.subperm_of_subset hnodup hsub).length_le
    omega
  | succ depth ih =>
    funext name bound
    rw [visitEquation, visit, treeIn_eq]
    by_cases hactive : name ∈ active
    · rw [dif_pos hactive, if_pos (by simpa using hactive)]
      rfl
    · rw [dif_neg hactive, if_neg (by simpa using hactive)]
      by_cases hname : name ∈ s.equations.names
      · rw [if_pos hname, dif_pos hname, ih (List.nodup_cons.mpr ⟨hactive, hnodup⟩)
          (List.cons_subset.mpr ⟨hname, hsub⟩) (by rw [List.length_cons]; omega)]
      · rw [if_neg hname, dif_neg hname]
        rfl

theorem build_eq_unbounded (s : Settings) : build s = buildUnbounded s := by
  have hlength : s.equations.names.length = s.equations.length := List.length_map _
  simp only [build, buildUnbounded]
  rw [visitEquation_eq_visit List.nodup_nil (List.nil_subset _) (by rw [hlength, List.length_nil]; omega)]

lemma visit_succeeds {active bound : List String} {name : String} (h : Succeeds (visit s active name bound)) :
    name ∉ active ∧ ∃ e, parseNamed s.symbols s.equations name = .ok e ∧
      e.ForRefs fun b => ∃ bound, Succeeds (visit s (name :: active) b bound) := by
  obtain ⟨r, r', h⟩ := h
  rw [visit] at h
  split at h
  case isTrue => cases h
  case isFalse hactive =>
    split at h
    case isFalse => cases h
    case isTrue =>
      rw [StateT.run_bind] at h
      cases he : parseNamed s.symbols s.equations name with
      | error f => simp [he] at h
      | ok e =>
        rw [he] at h
        exact ⟨hactive, e, rfl, collect_forRefs ⟨r, r', h⟩⟩

lemma succeeds_along {a b : String} (h : Relation.TransGen s.Refers a b) {active bound : List String}
    (ha : Succeeds (visit s active a bound)) : ∃ active' bound', a ∈ active' ∧ Succeeds (visit s active' b bound') := by
  have hstep : ∀ {x y : String} {active bound : List String}, s.Refers x y → Succeeds (visit s active x bound) →
      ∃ bound', Succeeds (visit s (x :: active) y bound') := by
    rintro x y active bound ⟨e, he, hy⟩ hx
    obtain ⟨-, e', he', hrefs⟩ := visit_succeeds hx
    obtain rfl : e' = e := Except.ok.inj (he'.symm.trans he)
    exact (Expr.forRefs_iff e').mp hrefs y hy
  induction h with
  | single hab =>
    obtain ⟨bound', hb⟩ := hstep hab ha
    exact ⟨_, bound', List.mem_cons_self, hb⟩
  | tail _ hbc ih =>
    obtain ⟨active', _, hmem, hb⟩ := ih
    obtain ⟨bound', hc⟩ := hstep hbc hb
    exact ⟨_, bound', List.mem_cons_of_mem _ hmem, hc⟩

theorem not_reachesItself_of_build {ix : Index} (h : build s = .ok ix) (name : String) : ¬ s.ReachesItself name := by
  intro hcycle
  have hname : name ∈ s.equations.names := by
    obtain ⟨b, ⟨e, he, -⟩, -⟩ := Relation.TransGen.head'_iff.mp hcycle
    unfold parseNamed at he
    split at he
    · cases he
    · exact Dict.mem_names_of_get? ‹_›
  rw [build_eq_unbounded] at h
  obtain ⟨x, hx⟩ := exists_of_mapM h hname
  obtain ⟨⟨⟨⟩, r⟩, hr, -⟩ := bind_eq_ok.mp hx
  obtain ⟨active, bound, hmem, hback⟩ := succeeds_along hcycle ⟨_, _, hr⟩
  exact (visit_succeeds hback).1 hmem

def FailsWith (P : Failure → Prop) (x : Collect Unit) : Prop := ∀ r f, x.run r = .error f → P f

section FailsWith

variable {P : Failure → Prop} {x y : Collect Unit} {f : References → References}

lemma FailsWith.bind (hx : FailsWith P x) (hy : FailsWith P y) : FailsWith P (do x; y) := by
  intro r f h
  rw [StateT.run_bind, bind_eq_error] at h
  rcases h with h | ⟨⟨⟨⟩, r'⟩, -, h⟩
  · exact hx r f h
  · exact hy r' f h

lemma failsWith_pure : FailsWith P (pure ()) := fun _ _ h => nomatch h

lemma failsWith_modify : FailsWith P (modify f) := fun _ _ h => nomatch h

lemma failsWith_throw {f : Failure} (h : P f) : FailsWith P (throw f) := by
  rintro _ _ ⟨⟩
  exact h

lemma failsWith_addColumn (hdim : ∀ f : Failure, f.kind = .dimension → P f) (equation dim : String) :
    FailsWith P (addColumn s equation dim) := by
  unfold addColumn
  split
  · exact failsWith_throw (hdim _ rfl)
  · exact failsWith_modify

lemma failsWith_addSubscripts (hdim : ∀ f : Failure, f.kind = .dimension → P f) (equation name : String)
    (bound : List String) (subs : List Subscript) : FailsWith P (addSubscripts s equation name bound subs) := by
  induction subs with
  | nil => exact failsWith_pure
  | cons sub subs ih =>
    refine FailsWith.bind ?_ ih
    unfold addSubscript
    split
    · refine failsWith_modify.bind ?_
      split
      · split
        · exact (failsWith_throw (hdim _ rfl)).bind ((failsWith_addColumn hdim equation _).bind failsWith_modify)
        · exact (failsWith_addColumn hdim equation _).bind failsWith_modify
      · exact failsWith_pure
    · exact failsWith_pure

lemma failsWith_addParam (hdim : ∀ f : Failure, f.kind = .dimension → P f) (equation name : String)
    (isVariable : Bool) (subs : List Subscript) (bound : List String) :
    FailsWith P (addParam s equation name isVariable subs bound) := by
  unfold addParam
  split <;> exact failsWith_modify.bind (failsWith_addSubscripts hdim equation name bound subs)

lemma failsWith_addLoop (hdim : ∀ f : Failure, f.kind = .dimension → P f) (equation dim : String) :
    FailsWith P (addLoop s equation dim) := by
  refine failsWith_modify.bind ?_
  split
  · exact (failsWith_addColumn hdim equation dim).bind failsWith_modify
  · exact failsWith_pure

mutual

theorem failsWith_collect {visit : String → List String → Collect Unit}
    (hdim : ∀ f : Failure, f.kind = .dimension → P f) (equation : String) (bound : List String) :
    (e : Expr) → (∀ name ∈ e.references, ∀ bound, FailsWith P (visit name bound)) →
    FailsWith P (collect s visit equation bound e)
  | .number .., _ => failsWith_pure
  | .param _ name isVariable subs, _ => failsWith_addParam hdim equation name isVariable subs bound
  | .equation _ name, h => failsWith_modify.bind (h name (List.mem_singleton_self name) bound)
  | .negate _ _ arg, h | .group _ arg, h => failsWith_collect hdim equation bound arg h
  | .loop _ _ dim _ _ _ arg, h =>
    (failsWith_addLoop hdim equation dim).bind (failsWith_collect hdim equation (bound ++ [dim]) arg h)
  | .binary _ _ _ lhs rhs, h => by
    obtain ⟨hl, hr⟩ := List.forall_mem_append.mp h
    exact (failsWith_collect hdim equation bound lhs hl).bind (failsWith_collect hdim equation bound rhs hr)
  | .call _ _ _ _ _ args, h => failsWith_collectArgs hdim equation bound args h

theorem failsWith_collectArgs {visit : String → List String → Collect Unit}
    (hdim : ∀ f : Failure, f.kind = .dimension → P f) (equation : String) (bound : List String) :
    (es : List Expr) → (∀ name ∈ argumentReferences es, ∀ bound, FailsWith P (visit name bound)) →
    FailsWith P (collectArgs s visit equation bound es)
  | [], _ => failsWith_pure
  | e :: es, h => by
    obtain ⟨he, hes⟩ := List.forall_mem_append.mp h
    exact (failsWith_collect hdim equation bound e he).bind (failsWith_collectArgs hdim equation bound es hes)

end

end FailsWith

def Blames (s : Settings) (f : Failure) : Prop :=
  (∃ name, s.ReachesItself name) ∨ (∃ name, parseNamed s.symbols s.equations name = .error f) ∨ f.kind = .dimension

lemma failsWith_visit {active : List String} {name : String}
    (hway : ∀ a ∈ active, Relation.TransGen s.Refers a name) (bound : List String) :
    FailsWith (Blames s) (visit s active name bound) := by
  fun_induction visit s active name bound with
  | case1 active name bound hactive => exact failsWith_throw (.inl ⟨name, hway name hactive⟩)
  | case2 active name bound hactive hname ih =>
    intro r f h
    cases he : parseNamed s.symbols s.equations name with
    | error f' =>
      rw [he] at h
      cases h
      exact .inr (.inl ⟨name, he⟩)
    | ok e =>
      rw [he] at h
      refine failsWith_collect (P := Blames s) (fun _ hf => .inr (.inr hf)) name bound e (fun b hb bound => ?_) r f h
      have hrefers : s.Refers name b := ⟨e, he, hb⟩
      exact ih b bound (List.forall_mem_cons.mpr ⟨.single hrefers, fun a ha => (hway a ha).tail hrefers⟩)
  | case3 active name bound hactive hname =>
    refine failsWith_throw (.inr (.inl ⟨name, ?_⟩))
    rw [parseNamed, Dict.get?_eq_none.mpr hname]

theorem blames_of_build {f : Failure} (h : build s = .error f) : Blames s f := by
  rw [build_eq_unbounded] at h
  obtain ⟨name, -, hname⟩ := exists_of_mapM_error h
  rcases bind_eq_error.mp hname with hname | ⟨x, -, hx⟩
  · exact failsWith_visit (List.forall_mem_nil _) [] _ f hname
  · cases hx

end Index

end LandUse
