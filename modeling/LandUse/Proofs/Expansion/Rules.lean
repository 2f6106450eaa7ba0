import LandUse.Proofs.Expansion.Segments
import LandUse.Proofs.Grammar.Formula
import LandUse.Proofs.Grammar.Names

/-! The rules of expansion: a property of all code needs one case for each of them. -/

namespace LandUse

open Outcome

mutual

def Expr.Applied : Expr → Prop
  | .number .. | .param .. | .equation .. => True
  | .negate _ _ arg | .group _ arg | .loop _ _ _ _ _ _ arg => arg.Applied
  | .binary _ _ _ lhs rhs => lhs.Applied ∧ rhs.Applied
  | .call _ fn _ _ _ args => fn.accepts args.length = true ∧ ArgumentsApplied args

def ArgumentsApplied : List Expr → Prop
  | [] => True
  | e :: es => e.Applied ∧ ArgumentsApplied es

end

lemma argumentsApplied_iff {es : List Expr} : ArgumentsApplied es ↔ ∀ e ∈ es, e.Applied := by
  induction es with
  | nil => simp [ArgumentsApplied]
  | cons e es ih => rw [ArgumentsApplied, ih, List.forall_mem_cons]

lemma Grammar.Derives.applied {c : Parser.Context} {l : Level} {p : Phrase} (h : Derives c l p) (d : Parser.Depth) :
    (p.expr d).Applied := by
  induction h generalizing d with
  | tighter _ _ ih => exact ih d
  | operation mark _ _ _ _ ihp ihq => exact ⟨ihp d, ihq d⟩
  | power mark _ _ ihp ihq => exact ⟨ihp d, ihq d⟩
  | minus sign _ ih | plus sign _ ih => exact ih d
  | group left right _ ih => exact ih d
  | loop _ _ _ _ _ _ _ _ ih => exact ih _
  | @call fn args pos left right _ ha ih =>
    refine ⟨by rwa [Arguments.length_exprs], argumentsApplied_iff.2 ?_⟩
    rw [Arguments.exprs_eq, List.forall_mem_map]
    exact fun p hp => ih p hp _
  | number | decision | parameter | equation => trivial

lemma applied_of_parseNamed {symbols : Symbols} {sources : Dict String} {name : String} {e : Expr}
    (h : parseNamed symbols sources name = .ok e) : e.Applied := by
  obtain ⟨src, ts, p, -, -, hp, rfl⟩ := Grammar.parseNamed_eq_ok h
  exact hp.derives.applied _

lemma Program.Indexed.applied {p : Program} (hp : p.Indexed) {name : String} {e : Expr}
    (he : p.trees.get? name = some e) :
    e.Applied :=
  applied_of_parseNamed (hp.get?_trees.1 he).2

lemma Keyword.header_cases (k : Keyword) (n : Nat) : n = 1 ∧ k.header n = .bare ∨
    n = 2 ∧ k = .sum ∧ k.header n = .fixed .plus ∨ k.header n = .list k.opcode n := by
  unfold header
  by_cases h1 : n = 1
  · exact .inl ⟨h1, if_pos h1⟩
  · rw [if_neg h1]
    by_cases h2 : n = 2 <;> cases k <;> simp [binary?, h2]

namespace Direct

def Iterates (p : Program) (columns : List String) (frame : Frame) (dim : String) (its : List Iteration) : Prop :=
  ∃ memo memo', iterations p columns frame dim memo = (.ok its, memo')

def within (frame : Frame) (dim : String) (it : Iteration) : Frame :=
  { frame with rows := it.rows }.bind dim (some it.value)

variable {α : Type}

def Makes (m : ExpandM α Unit) (P : List (Instr α) → Prop) : Prop :=
  ∀ t t', result m t = (.ok (), t') →
    ∃ code, t'.marks.map (·.instr) = code.reverse ++ t.marks.map (·.instr) ∧ P code

lemma Makes.bind {m m' : ExpandM α Unit} {P Q R : List (Instr α) → Prop} (hm : Makes m P) (hm' : Makes m' Q)
    (h : ∀ c c', P c → Q c' → R (c ++ c')) : Makes (do m; m') R := by
  intro t t' hr
  rw [result_bind] at hr
  rcases hmt : result m t with ⟨e | ⟨⟩, t₁⟩
  · rw [hmt] at hr
    cases hr
  · rw [hmt, proceed_ok] at hr
    obtain ⟨c, hc, hp⟩ := hm t t₁ hmt
    obtain ⟨c', hc', hq⟩ := hm' t₁ t' hr
    refine ⟨c ++ c', ?_, h c c' hp hq⟩
    rw [hc', hc, List.reverse_append, List.append_assoc]

lemma makes_mark (here : Place) (i : Instr α) : Makes (mark here i) (· = [i]) := by
  rintro t _ ⟨⟩
  exact ⟨[i], rfl, rfl⟩

lemma makes_markAll (here : Place) (is : List (Instr α)) : Makes (markAll here is) (· = is) := by
  induction is with
  | nil =>
    rintro t _ ⟨⟩
    exact ⟨[], rfl, rfl⟩
  | cons i is ih => exact (makes_mark here i).bind ih fun c c' hc hc' => by rw [hc, hc', List.singleton_append]

inductive Expands [Scalar α] (p : Program) (columns : List String) : Frame → Formula → List (Instr α) → Prop
  | number {frame : Frame} {value : Float} : Expands p columns frame (.number value) [.num (Scalar.ofFloat value)]
  | reference {frame : Frame} {name : String} {isVariable : Bool} {subs : List Subscript} {i : Instr α} :
      p.reference frame columns name isVariable subs = .ok i →
      Expands p columns frame (.reference name isVariable (subs.map Subscript.selector)) [i]
  | equation {frame : Frame} {name : String} {e : Expr} {code : List (Instr α)} : p.trees.get? name = some e →
      Expands p columns { frame with equation := name } e.formula code → Expands p columns frame (.equation name) code
  | negate {frame : Frame} {arg : Formula} {code : List (Instr α)} : Expands p columns frame arg code →
      Expands p columns frame (.negate arg) (.op .neg :: code)
  | binary {frame : Frame} {op : Operator} {lhs rhs : Formula} {code code' : List (Instr α)} :
      Expands p columns frame lhs code → Expands p columns frame rhs code' →
      Expands p columns frame (.binary op lhs rhs) (.op op.opcode :: (code ++ code'))
  | call {frame : Frame} {fn : Function} {args : List Formula} {codes : List (List (Instr α))} :
      fn.accepts args.length = true → args.length = codes.length →
      (∀ a ∈ args.zip codes, Expands p columns frame a.1 a.2) →
      Expands p columns frame (.call fn args) (callHead fn args.length ++ codes.flatten)
  | empty {frame : Frame} {keyword : Keyword} {dim : String} {arg : Formula} : Iterates p columns frame dim [] →
      keyword.binary?.isSome = true → Expands p columns frame (.loop keyword dim arg) [.num Scalar.zero]
  | loop {frame : Frame} {keyword : Keyword} {dim : String} {arg : Formula} {its : List Iteration}
      {codes : List (List (Instr α))} : Iterates p columns frame dim its → 1 ≤ its.length → its.length = codes.length →
      (∀ a ∈ its.zip codes, Expands p columns (within frame dim a.1) arg a.2) →
      Expands p columns frame (.loop keyword dim arg) ((keyword.header its.length).instrs ++ codes.flatten)

def InTurn {β : Type} (R : β → List (Instr α) → Prop) (bs : List β) (code : List (Instr α)) : Prop :=
  ∃ codes, code = codes.flatten ∧ List.Forall₂ R bs codes

lemma InTurn.nil {β : Type} {R : β → List (Instr α) → Prop} : InTurn R [] [] := ⟨[], rfl, .nil⟩

lemma InTurn.cons {β : Type} {R : β → List (Instr α) → Prop} {b : β} {bs : List β} {code code' : List (Instr α)}
    (h : R b code) (h' : InTurn R bs code') : InTurn R (b :: bs) (code ++ code') := by
  obtain ⟨codes, rfl, hcodes⟩ := h'
  exact ⟨code :: codes, rfl, .cons h hcodes⟩

variable [Scalar α] {p : Program} {columns : List String}

mutual

theorem makes_expand {visit : String → Place → ExpandM α Unit}
    (hvisit : ∀ name here, Makes (visit name here) fun code =>
      ∃ e, p.trees.get? name = some e ∧ Expands p columns here.frame e.formula code) (here : Place) : (e : Expr) →
    e.Applied → Makes (expand p columns visit here e) (Expands p columns here.frame e.formula)
  | .number _ _ value, _ => by
    intro t t' h
    obtain ⟨code, ht, rfl⟩ := makes_mark here _ t t' h
    exact ⟨_, ht, .number⟩
  | .param _ name isVariable subs, _ => by
    intro t t' h
    rw [expand, result_bind, result_ofExcept] at h
    cases hi : (p.reference here.frame columns name isVariable subs : Except Fault (Instr α)) with
    | error e =>
      rw [hi] at h
      cases h
    | ok i =>
      rw [hi, proceed_ok] at h
      obtain ⟨code, ht, rfl⟩ := makes_mark here i t t' h
      exact ⟨_, ht, .reference hi⟩
  | .equation _ name, _ => by
    intro t t' h
    obtain ⟨code, ht, e, he, hcode⟩ := hvisit name (here.referring name) t t' h
    exact ⟨code, ht, .equation he hcode⟩
  | .negate _ _ arg, harg =>
    (makes_mark here _).bind (makes_expand hvisit here arg harg) fun c c' hc hc' => by
      rw [hc]
      exact .negate hc'
  | .binary _ op _ lhs rhs, ⟨hl, hr⟩ => by
    have hoperands : Makes (do expand p columns visit here lhs; expand p columns visit here rhs) fun code =>
        Expands p columns here.frame (.binary op lhs.formula rhs.formula) (.op op.opcode :: code) :=
      (makes_expand hvisit here lhs hl).bind (makes_expand hvisit here rhs hr) fun _ _ hc hc' => .binary hc hc'
    exact (makes_mark here _).bind hoperands fun c c' hc hc' => by
      rw [hc]
      exact hc'
  | .group _ arg, harg => makes_expand hvisit here arg harg
  | .call _ fn _ _ _ args, hargs =>
    (makes_markAll here _).bind (makes_expandArgs hvisit here args hargs.2) fun c c' hc hc' => by
      have hlength : args.length = (formulas args).length := by rw [formulas_eq, List.length_map]
      obtain ⟨codes, rfl, hcodes⟩ := hc'
      rw [hc, hlength]
      exact .call (hlength ▸ hargs.1) hcodes.length_eq fun a ha => (List.forall₂_iff_zip.1 hcodes).2 ha
  | .loop span keyword dim dimSpan level bodySpan body, hbody => by
    intro t t' h
    rw [expand, result_bind, result_askIterations] at h
    rcases hits : iterations p columns here.frame dim t.memo with ⟨e | its, memo⟩
    · rw [hits] at h
      cases h
    · rw [hits, proceed_ok] at h
      cases its with
      | nil =>
        dsimp only at h
        split at h
        · rename_i hk
          obtain ⟨code, ht, rfl⟩ := makes_mark here _ _ t' h
          exact ⟨_, ht, .empty ⟨_, _, hits⟩ hk⟩
        · cases h
      | cons it its =>
        have hbodies : ∀ (its : List Iteration) (n : Nat), Makes ((its.zipIdx n).forM fun (it, i) =>
            expand p columns visit (here.inside dim it i) body)
              (InTurn (fun it => Expands p columns (within here.frame dim it) body.formula) its) := by
          intro its
          induction its with
          | nil =>
            rintro n t _ ⟨⟩
            exact ⟨[], rfl, .nil⟩
          | cons it its ih =>
            intro n
            exact (makes_expand hvisit (here.inside dim it n) body hbody).bind (ih (n + 1))
              fun _ _ hc hc' => .cons hc hc'
        refine (makes_markAll here _).bind (hbodies (it :: its) 1) ?_ { t with memo := memo } t' h
        rintro _ _ rfl ⟨codes, rfl, hcodes⟩
        exact .loop ⟨_, _, hits⟩ (Nat.le_add_left 1 _) hcodes.length_eq fun a ha => (List.forall₂_iff_zip.1 hcodes).2 ha

theorem makes_expandArgs {visit : String → Place → ExpandM α Unit}
    (hvisit : ∀ name here, Makes (visit name here) fun code =>
      ∃ e, p.trees.get? name = some e ∧ Expands p columns here.frame e.formula code) (here : Place) : (es : List Expr) →
    ArgumentsApplied es →
    Makes (expandArgs p columns visit here es) (InTurn (Expands p columns here.frame) (formulas es))
  | [], _ => by
    rintro t _ ⟨⟩
    exact ⟨[], rfl, .nil⟩
  | e :: es, ⟨he, hes⟩ =>
    (makes_expand hvisit here e he).bind (makes_expandArgs hvisit here es hes) fun _ _ hc hc' => .cons hc hc'

end

theorem makes_expandEquation (hp : p.Indexed) (depth : Nat) (name : String) (here : Place) :
    Makes (expandEquation p columns depth name here : ExpandM α Unit) fun code =>
      ∃ e, p.trees.get? name = some e ∧ Expands p columns here.frame e.formula code := by
  -- On the depth of references, which bounds the recursion.
  induction depth generalizing name here with
  | zero => exact fun _ _ h => nomatch h
  | succ depth ih =>
    intro t t' h
    cases he : p.trees.get? name with
    | none =>
      simp only [expandEquation, he] at h
      cases h
    | some e =>
      simp only [expandEquation, he] at h
      obtain ⟨code, ht, hcode⟩ := makes_expand ih here e (hp.applied he) t t' h
      exact ⟨code, ht, e, rfl, hcode⟩

theorem expands_of_expansion (hp : p.Indexed) {depth : Nat} {name : String} {frame : Frame}
    {memo : Catalog.Memo} {t : Trace α}
    (h : expansion p columns depth name frame memo = (.ok (), t)) :
    ∃ e, p.trees.get? name = some e ∧ Expands p columns frame e.formula (t.marks.reverse.map (·.instr)) := by
  obtain ⟨code, ht, hcode⟩ := makes_expandEquation hp depth name ⟨frame, []⟩ _ t h
  rw [List.map_nil, List.append_nil] at ht
  rwa [List.map_reverse, ht, List.reverse_reverse]

end Direct

end LandUse
