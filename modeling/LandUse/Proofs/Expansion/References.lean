import LandUse.Expansion.Make
import LandUse.Proofs.Outcome
import Mathlib.Data.List.Perm.Subperm

/-! References have no cycles, so a way along them is no longer than the list of equations. -/

namespace LandUse

open Outcome

namespace Dict

variable {β γ : Type}

lemma get?_map (d : Dict β) (g : String → β → γ) (name : String) :
    get? (d.map fun (n, b) => (n, g n b)) name = (d.get? name).map (g name) := by
  induction d with
  | nil => rfl
  | cons x d ih =>
    obtain ⟨n, b⟩ := x
    by_cases h : name = n
    · subst h
      simp [get?]
    · simpa [get?, List.lookup_cons, beq_false_of_ne h] using ih

variable {d : Dict β} {name : String} {b : β}

lemma mem_of_get? (h : d.get? name = some b) : (name, b) ∈ d := by
  obtain ⟨l, l', rfl, -⟩ := List.lookup_eq_some_iff.mp h
  exact List.mem_append_right _ List.mem_cons_self

lemma mem_names_of_get? (h : d.get? name = some b) : name ∈ d.names := by
  obtain ⟨l, l', rfl, -⟩ := List.lookup_eq_some_iff.mp h
  simp [names]

lemma get?_mapM {ε : Type} {f : String → Except ε (String × β)} (hf : ∀ n x, f n = .ok x → x.1 = n)
    {names : List String} (h : names.mapM f = .ok d) :
    d.get? name = some b ↔ name ∈ names ∧ f name = .ok (name, b) := by
  have hd := forall₂_of_mapM h
  clear h
  induction hd with
  | nil => simp [get?]
  | @cons n x names d hn _ ih =>
    obtain ⟨m, c⟩ := x
    obtain rfl : m = n := hf n _ hn
    by_cases hname : name = m
    · subst hname
      simp [get?, hn]
    · simpa [get?, List.lookup_cons, beq_false_of_ne hname, hname] using ih

lemma get?_cons (m : String) (a : β) (d : Dict β) (n : String) :
    get? ((m, a) :: d) n = if n = m then some a else d.get? n := by
  unfold get?
  by_cases h : n = m
  · rw [if_pos h, h, List.lookup_cons_self]
  · rw [if_neg h, List.lookup_cons, beq_false_of_ne h]

lemma get?_set (d : Dict β) (name : String) (a : β) (n : String) :
    (d.set name a).get? n = if n = name then some a else d.get? n := by
  induction d with
  | nil => exact get?_cons name a [] n
  | cons x d ih =>
    obtain ⟨m, b⟩ := x
    by_cases hm : name = m
    · subst hm
      rw [Dict.set, if_pos (beq_self_eq_true name), get?_cons, get?_cons]
      split <;> rfl
    · rw [Dict.set, if_neg fun h => hm (beq_iff_eq.1 h)]
      by_cases hlt : name < m
      · rw [if_pos hlt]
        exact get?_cons name a _ n
      · rw [if_neg hlt, get?_cons, get?_cons, ih]
        by_cases hn : n = m
        · rw [if_pos hn, if_pos hn, if_neg (hn ▸ Ne.symm hm)]
        · rw [if_neg hn, if_neg hn]

lemma set_cons (n : String) (b : β) (d : Dict β) (name : String) (a : β) :
    Dict.set ((n, b) :: d) name a =
      if name = n then (name, a) :: d
      else if name < n then (name, a) :: (n, b) :: d
      else (n, b) :: Dict.set d name a := by
  rw [Dict.set]
  simp only [beq_iff_eq]

lemma set_comm {name name' : String} (h : name ≠ name') (a b : β) (d : Dict β) :
    (d.set name a).set name' b = (d.set name' b).set name a := by
  induction d with
  | nil =>
    rw [Dict.set, Dict.set, set_cons, set_cons, Dict.set, Dict.set]
    grind
  | cons x d ih =>
    obtain ⟨n, c⟩ := x
    grind [set_cons]

lemma get?_foldl_set {l : List (String × β)} (h : name ∉ l.map (·.1)) (d : Dict β) :
    (l.foldl (fun d (n, a) => d.set n a) d).get? name = d.get? name := by
  induction l generalizing d with
  | nil => rfl
  | cons x l ih =>
    obtain ⟨hx, hl⟩ := not_or.1 (List.mem_cons.not.1 h)
    rw [List.foldl_cons, ih hl, get?_set, if_neg hx]

end Dict

mutual

def Expr.ForRefs (P : String → Prop) : Expr → Prop
  | .number .. | .param .. => True
  | .equation _ name => P name
  | .negate _ _ arg => arg.ForRefs P
  | .binary _ _ _ lhs rhs => lhs.ForRefs P ∧ rhs.ForRefs P
  | .group _ arg => arg.ForRefs P
  | .call _ _ _ _ _ args => ArgumentsForRefs P args
  | .loop _ _ _ _ _ _ arg => arg.ForRefs P

def ArgumentsForRefs (P : String → Prop) : List Expr → Prop
  | [] => True
  | e :: es => e.ForRefs P ∧ ArgumentsForRefs P es

end

mutual

theorem Expr.ForRefs.imp {P Q : String → Prop} (hPQ : ∀ name, P name → Q name) : {e : Expr} → e.ForRefs P → e.ForRefs Q
  | .number .., _ | .param .., _ => trivial
  | .equation _ name, h => hPQ name h
  | .negate _ _ arg, h | .group _ arg, h | .loop _ _ _ _ _ _ arg, h => Expr.ForRefs.imp (e := arg) hPQ h
  | .binary _ _ _ lhs rhs, h => ⟨Expr.ForRefs.imp (e := lhs) hPQ h.1, Expr.ForRefs.imp (e := rhs) hPQ h.2⟩
  | .call .., h => ArgumentsForRefs.imp hPQ h

theorem ArgumentsForRefs.imp {P Q : String → Prop} (hPQ : ∀ name, P name → Q name) :
    {es : List Expr} → ArgumentsForRefs P es → ArgumentsForRefs Q es
  | [], _ => trivial
  | e :: _, h => ⟨Expr.ForRefs.imp (e := e) hPQ h.1, ArgumentsForRefs.imp hPQ h.2⟩

end

namespace Index

variable {s : Settings} {visit : String → List String → Collect Unit} {equation : String}

def Succeeds (x : Collect Unit) : Prop := ∃ r r', x.run r = .ok ((), r')

lemma Succeeds.bind {x y : Collect Unit} (h : Succeeds (do x; y)) : Succeeds x ∧ Succeeds y := by
  obtain ⟨r, r', h⟩ := h
  rw [StateT.run_bind, bind_eq_ok] at h
  obtain ⟨⟨⟨⟩, r₁⟩, hx, hy⟩ := h
  exact ⟨⟨r, r₁, hx⟩, ⟨r₁, r', hy⟩⟩

mutual

theorem collect_forRefs {bound : List String} : {e : Expr} → Succeeds (collect s visit equation bound e) →
    e.ForRefs fun name => ∃ bound, Succeeds (visit name bound)
  | .number .., _ | .param .., _ => trivial
  | .equation .., h => ⟨bound, h.bind.2⟩
  | .negate _ _ arg, h | .group _ arg, h => collect_forRefs (e := arg) h
  | .loop _ _ _ _ _ _ arg, h => collect_forRefs (e := arg) h.bind.2
  | .binary _ _ _ lhs rhs, h => ⟨collect_forRefs (e := lhs) h.bind.1, collect_forRefs (e := rhs) h.bind.2⟩
  | .call .., h => collectArgs_forRefs h

theorem collectArgs_forRefs {bound : List String} : {es : List Expr} →
    Succeeds (collectArgs s visit equation bound es) →
    ArgumentsForRefs (fun name => ∃ bound, Succeeds (visit name bound)) es
  | [], _ => trivial
  | e :: _, h => ⟨collect_forRefs (e := e) h.bind.1, collectArgs_forRefs h.bind.2⟩

end

lemma visitEquation_succeeds {tree : String → Except Failure Expr} {depth : Nat} {active bound : List String}
    {name : String} (h : Succeeds (visitEquation s tree (depth + 1) active name bound)) :
    name ∉ active ∧ ∃ e, tree name = .ok e ∧
      Succeeds (collect s (visitEquation s tree depth (name :: active)) name bound e) := by
  obtain ⟨r, r', h⟩ := h
  unfold visitEquation at h
  split at h
  case isTrue => cases h
  case isFalse hn =>
    rw [StateT.run_bind] at h
    cases he : tree name with
    | error f => simp [he] at h
    | ok e =>
      rw [he] at h
      exact ⟨by simpa using hn, e, rfl, r, r', h⟩

end Index

namespace Program

def Grounded (p : Program) : Nat → String → Prop
  | 0, _ => False
  | depth + 1, name => ∃ e, p.trees.get? name = some e ∧ e.ForRefs (p.Grounded depth)

lemma Grounded.tree {p : Program} {depth : Nat} {name : String} (h : p.Grounded depth name) :
    ∃ e, p.trees.get? name = some e := by
  cases depth with
  | zero => exact h.elim
  | succ depth => exact ⟨h.choose, h.choose_spec.1⟩

structure Indexed (p : Program) : Prop where
  index : Index.build p.settings = .ok p.index
  trees : p.settings.equations.names.mapM (fun name => do
    return (name, ← parseNamed p.settings.symbols p.settings.equations name)) = .ok p.trees
  codes : p.codes = p.trees.map fun (name, e) => (name, Code.ofExpr name e)

theorem make_indexed {s : Settings} {t : Table} {condition : String} {p : Program} {memo : Catalog.Memo}
    (h : make s t condition = .ok (p, memo)) : p.Indexed := by
  simp only [make, bind_eq_ok, pure_eq_ok, Except.ok.injEq, Prod.mk.injEq] at h
  obtain ⟨index, hindex, catalog, -, declared, -, -, -, trees, htrees, rfl, -⟩ := h
  exact ⟨hindex, htrees, rfl⟩

variable {p : Program}

lemma visitEquation_grounded {tree : String → Except Failure Expr} {names : List String}
    (htree : ∀ name e, tree name = .ok e → name ∈ names ∧ p.trees.get? name = some e) {depth : Nat}
    {active bound : List String} {name : String}
    (h : Index.Succeeds (Index.visitEquation p.settings tree depth active name bound))
    (hnodup : active.Nodup) (hsub : active ⊆ names) : p.Grounded (names.length - active.length) name := by
  -- The equations on the way are distinct, so the difference counts those that are left to refer to.
  induction depth generalizing active bound name with
  | zero =>
    obtain ⟨r, r', h⟩ := h
    cases h
  | succ depth ih =>
    obtain ⟨hn, e, he, hc⟩ := Index.visitEquation_succeeds h
    obtain ⟨hmem, hget⟩ := htree name e he
    have hnodup' : (name :: active).Nodup := List.nodup_cons.mpr ⟨hn, hnodup⟩
    have hsub' : name :: active ⊆ names := List.cons_subset.mpr ⟨hmem, hsub⟩
    have hlen : active.length + 1 ≤ names.length := (List.subperm_of_subset hnodup' hsub').length_le
    obtain ⟨n, hn⟩ : ∃ n, names.length - active.length = n + 1 := ⟨names.length - active.length - 1, by omega⟩
    rw [hn]
    refine ⟨e, hget, (Index.collect_forRefs hc).imp ?_⟩
    rintro r ⟨bound, hr⟩
    have hd := ih hr hnodup' hsub'
    rwa [show names.length - (name :: active).length = n by simp only [List.length_cons]; omega] at hd

namespace Indexed

variable {name : String}

lemma get?_trees (hp : p.Indexed) {e : Expr} : p.trees.get? name = some e ↔
    name ∈ p.settings.equations.names ∧ parseNamed p.settings.symbols p.settings.equations name = .ok e := by
  rw [Dict.get?_mapM ?_ hp.trees]
  · simp [bind_eq_ok]
  · intro n x hx
    simp only [bind_eq_ok, pure_eq_ok, Except.ok.injEq] at hx
    obtain ⟨e, -, rfl⟩ := hx
    rfl

lemma get?_codes (hp : p.Indexed) (name : String) : p.codes.get? name = (p.trees.get? name).map (Code.ofExpr name) := by
  rw [hp.codes, Dict.get?_map]

lemma tree_of_treeIn (hp : p.Indexed) {e : Expr}
    (h : treeIn (parseAll p.settings.symbols p.settings.equations) name = .ok e) :
    name ∈ p.settings.equations.names ∧ p.trees.get? name = some e := by
  unfold treeIn at h
  split at h
  case h_1 result hr =>
    rw [parseAll, Dict.get?_map _ (fun n _ => parseNamed _ _ n), Option.map_eq_some_iff] at hr
    obtain ⟨src, hsrc, rfl⟩ := hr
    have hmem := Dict.mem_names_of_get? hsrc
    exact ⟨hmem, hp.get?_trees.mpr ⟨hmem, h⟩⟩
  case h_2 => cases h

theorem grounded (hp : p.Indexed) (hname : name ∈ p.settings.equations.names) : p.Grounded p.trees.length name := by
  obtain ⟨x, hx⟩ := exists_of_mapM hp.index hname
  rw [bind_eq_ok] at hx
  obtain ⟨⟨⟨⟩, r⟩, hr, -⟩ := hx
  have hg := visitEquation_grounded (fun _ _ => hp.tree_of_treeIn) ⟨_, _, hr⟩ List.nodup_nil (List.nil_subset _)
  have hlen := (forall₂_of_mapM hp.trees).length_eq
  rwa [List.length_nil, Nat.sub_zero, hlen] at hg

lemma visited (hp : p.Indexed) {entry : IndexEntry} (h : p.index.entry name = .ok entry) :
    name ∈ p.settings.equations.names ∧
      ∃ r, (Index.visitEquation p.settings (treeIn (parseAll p.settings.symbols p.settings.equations))
        (p.settings.equations.length + 2) [] name []).run {} = .ok ((), r) ∧ entry = Index.entryOf name r := by
  unfold Index.entry at h
  split at h
  case h_2 => cases h
  case h_1 e he =>
    cases h
    rw [Dict.get?_mapM ?_ hp.index] at he
    · obtain ⟨hmem, he⟩ := he
      simp only [bind_eq_ok, pure_eq_ok, Except.ok.injEq, Prod.mk.injEq, true_and] at he
      obtain ⟨⟨⟨⟩, r⟩, hr, rfl⟩ := he
      exact ⟨hmem, r, hr, rfl⟩
    · intro n x hx
      simp only [bind_eq_ok, pure_eq_ok, Except.ok.injEq] at hx
      obtain ⟨x, -, rfl⟩ := hx
      rfl

lemma entry_name (hp : p.Indexed) {entry : IndexEntry} (h : p.index.entry name = .ok entry) :
    name ∈ p.settings.equations.names ∧ entry.name = name := by
  obtain ⟨hmem, r, -, rfl⟩ := hp.visited h
  exact ⟨hmem, rfl⟩

end Indexed

end Program

end LandUse
