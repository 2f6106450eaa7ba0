import LandUse.Proofs.Expansion.Coverage
import LandUse.Proofs.Grammar.Formula

namespace LandUse

open Outcome

structure Dimensions where
  free : List String := []
  loops : List String := []

namespace Dimensions

def select (bound : List String) (d : Dimensions) : Selector → Dimensions
  | .bound dim => if bound.contains dim then d else { d with free := Index.append dim d.free }
  | .option _ => d

def enter (dim : String) (d : Dimensions) : Dimensions :=
  if dim = optionsDimension then d else { d with loops := Index.append dim d.loops }

end Dimensions

mutual

def Formula.dimensions? (bound : List String) (d : Dimensions) : Formula → Option Dimensions
  | .number _ => some d
  | .reference _ _ subs => some (subs.foldl (Dimensions.select bound) d)
  | .equation _ => none
  | .negate arg => arg.dimensions? bound d
  | .binary _ lhs rhs => (lhs.dimensions? bound d).bind fun d => rhs.dimensions? bound d
  | .call _ args => argumentDimensions? bound d args
  | .loop _ dim arg => arg.dimensions? (bound ++ [dim]) (d.enter dim)

def argumentDimensions? (bound : List String) (d : Dimensions) : List Formula → Option Dimensions
  | [] => some d
  | f :: fs => (f.dimensions? bound d).bind fun d => argumentDimensions? bound d fs

end

namespace Index

variable {s : Settings}

def References.dims (r : References) : Dimensions := ⟨r.free, r.loops⟩

def Turns (x : Collect Unit) (d d' : Dimensions) : Prop :=
  ∀ r r', r.dims = d → x.run r = .ok ((), r') → r'.dims = d'

variable {d d' d'' : Dimensions}

lemma Turns.bind {x y : Collect Unit} (hx : Turns x d d') (hy : Turns y d' d'') : Turns (do x; y) d d'' := by
  intro r r' hr h
  rw [StateT.run_bind, bind_eq_ok] at h
  obtain ⟨⟨⟨⟩, r₁⟩, hx', hy'⟩ := h
  exact hy r₁ r' (hx r r₁ hr hx') hy'

lemma turns_pure : Turns (pure ()) d d := by
  rintro r _ hr ⟨⟩
  exact hr

lemma turns_throw (f : Failure) : Turns (throw f) d d' := fun _ _ _ h => nomatch h

lemma Turns.after {f : References → References} {y : Collect Unit} (hf : ∀ r, (f r).dims = r.dims) (hy : Turns y d d') :
    Turns (do modify f; y) d d' := fun r r' hr h => hy (f r) r' ((hf r).trans hr) h

lemma turns_addSubscript (equation name : String) (bound : List String) (sub : Subscript) :
    Turns (addSubscript s equation name bound sub) d (d.select bound sub.selector) := by
  cases sub with
  | option | index => exact turns_pure
  | dim span dim =>
    unfold addSubscript
    refine .after (by intro; rfl) ?_
    by_cases hb : dim ∈ bound
    · have hselect : d.select bound (.bound dim) = d := if_pos (by simp [hb])
      rw [if_neg (by simp [hb]), Subscript.selector, hselect]
      exact turns_pure
    · have hselect : d.select bound (.bound dim) = { d with free := append dim d.free } := if_neg (by simp [hb])
      rw [if_pos (by simp [hb]), Subscript.selector, hselect]
      by_cases hdim : dim = optionsDimension
      · rw [if_pos (by simp [hdim])]
        exact turns_throw _
      · rw [if_neg (by simp [hdim])]
        intro r r' hr h
        rw [StateT.run_bind, bind_eq_ok] at h
        obtain ⟨⟨⟨⟩, r₁⟩, h₁, h₂⟩ := h
        obtain ⟨column, -, rfl⟩ := addColumn_eq h₁
        cases h₂
        rw [← hr]
        rfl

lemma turns_addSubscripts (equation name : String) (bound : List String) (subs : List Subscript) :
    Turns (addSubscripts s equation name bound subs) d ((subs.map Subscript.selector).foldl
      (Dimensions.select bound) d) := by
  induction subs generalizing d with
  | nil => exact turns_pure
  | cons sub subs ih => exact (turns_addSubscript equation name bound sub).bind ih

lemma turns_addParam (equation name : String) (isVariable : Bool) (subs : List Subscript) (bound : List String) :
    Turns (addParam s equation name isVariable subs bound) d ((subs.map Subscript.selector).foldl
      (Dimensions.select bound) d) := by
  cases isVariable with
  | true | false => exact .after (by intro; rfl) (turns_addSubscripts equation name bound subs)

lemma turns_addLoop (equation dim : String) : Turns (addLoop s equation dim) d (d.enter dim) := by
  unfold addLoop Dimensions.enter
  refine .after (by intro; rfl) ?_
  by_cases hdim : dim = optionsDimension
  · rw [if_neg (by simp [hdim]), if_pos hdim]
    exact turns_pure
  · rw [if_pos (by simp [hdim]), if_neg hdim]
    intro r r' hr h
    rw [StateT.run_bind, bind_eq_ok] at h
    obtain ⟨⟨⟨⟩, r₁⟩, h₁, h₂⟩ := h
    obtain ⟨column, -, rfl⟩ := addColumn_eq h₁
    cases h₂
    rw [← hr]
    rfl

mutual

theorem turns_collect {visit : String → List String → Collect Unit} (equation : String) (bound : List String) :
    {d d' : Dimensions} → (e : Expr) → e.formula.dimensions? bound d = some d' →
    Turns (collect s visit equation bound e) d d'
  | _, _, .number .., h => by
    cases h
    exact turns_pure
  | _, _, .param _ name isVariable subs, h => by
    cases h
    exact turns_addParam equation name isVariable subs bound
  | _, _, .negate _ _ arg, h => turns_collect equation bound arg h
  | _, _, .group _ arg, h => turns_collect equation bound arg h
  | _, _, .binary _ _ _ lhs rhs, h => by
    obtain ⟨d₁, h₁, h₂⟩ := Option.bind_eq_some_iff.1 h
    exact (turns_collect equation bound lhs h₁).bind (turns_collect equation bound rhs h₂)
  | _, _, .call _ _ _ _ _ args, h => turns_collectArgs equation bound args h
  | _, _, .loop _ _ dim _ _ _ arg, h =>
    (turns_addLoop equation dim).bind (turns_collect equation (bound ++ [dim]) arg h)

theorem turns_collectArgs {visit : String → List String → Collect Unit} (equation : String) (bound : List String) :
    {d d' : Dimensions} → (es : List Expr) → argumentDimensions? bound d (formulas es) = some d' →
    Turns (collectArgs s visit equation bound es) d d'
  | _, _, [], h => by
    cases h
    exact turns_pure
  | _, _, e :: es, h => by
    obtain ⟨d₁, h₁, h₂⟩ := Option.bind_eq_some_iff.1 h
    exact (turns_collect equation bound e h₁).bind (turns_collectArgs equation bound es h₂)

end

end Index

lemma Program.Indexed.dimensions {p : Program} (hp : p.Indexed) {name : String} {entry : IndexEntry}
    (hentry : p.index.entry name = .ok entry) {e : Expr} (he : p.trees.get? name = some e) {d : Dimensions}
    (hd : e.formula.dimensions? [] {} = some d) :
    entry.free = d.free ∧ entry.loops = d.loops.filter fun dim => !d.free.contains dim := by
  obtain ⟨-, r, hr, rfl⟩ := hp.visited hentry
  obtain ⟨-, e', he', -⟩ := Index.visitEquation_succeeds ⟨_, _, hr⟩
  obtain rfl := Option.some.inj (he.symm.trans (hp.tree_of_treeIn he').2)
  unfold Index.visitEquation at hr
  rw [if_neg (by simp), he'] at hr
  obtain rfl := Index.turns_collect name [] e hd _ _ rfl hr
  exact ⟨rfl, rfl⟩

end LandUse
