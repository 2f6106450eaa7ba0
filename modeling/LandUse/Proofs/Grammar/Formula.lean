import LandUse.Proofs.Grammar.Printing
import LandUse.Proofs.Number.Convert

/-! Formulas: trees without places, parentheses and the spelling of numbers. -/

namespace LandUse

open Text Alphabet Grammar LandUse.Parser

inductive Selector where
  | bound (dim : String)
  | option (index : Nat)

inductive Formula where
  | number (value : Float)
  | reference (name : String) (isVariable : Bool) (subs : List Selector)
  | equation (name : String)
  | negate (arg : Formula)
  | binary (op : Operator) (lhs rhs : Formula)
  | call (fn : Function) (args : List Formula)
  | loop (keyword : Keyword) (dim : String) (arg : Formula)

def Subscript.selector : Subscript → Selector
  | .dim _ name => .bound name
  | .option _ _ i | .index _ i _ => .option i

namespace Selector

def text : Selector → String
  | bound dim => dim
  | option index => toString index

def bracketed (subs : List Selector) : String := String.join (subs.map fun s => "[" ++ s.text ++ "]")

end Selector

mutual

def Expr.formula : Expr → Formula
  | .number _ _ value => .number value
  | .param _ name isVariable subs => .reference name isVariable (subs.map Subscript.selector)
  | .equation _ name => .equation name
  | .negate _ _ arg => .negate arg.formula
  | .binary _ op _ lhs rhs => .binary op lhs.formula rhs.formula
  | .group _ arg => arg.formula
  | .call _ fn _ _ _ args => .call fn (formulas args)
  | .loop _ keyword dim _ _ _ arg => .loop keyword dim arg.formula

def formulas : List Expr → List Formula
  | [] => []
  | e :: es => e.formula :: formulas es

end

lemma formulas_eq (es : List Expr) : formulas es = es.map Expr.formula := by
  induction es with
  | nil => rfl
  | cons e es ih => rw [formulas, ih, List.map_cons]

namespace Grammar

open Token

lemma Brackets.selectors_unplaced (d : Depth) (subs : Brackets) :
    (subs.unplaced.subscripts d).map Subscript.selector = (subs.subscripts d).map Subscript.selector := by
  fun_induction Brackets.length subs with
  | case1 => rfl
  | case2 _ _ _ _ ih | case3 _ _ _ _ _ ih | case4 _ _ _ _ _ ih =>
    simp only [unplaced, subscripts, List.map_cons, ih]
    rfl

mutual

lemma Phrase.formula_unplaced (d : Depth) : (p : Phrase) → (p.unplaced.expr d).formula = (p.expr d).formula
  | .number .. | .equation .. => rfl
  | .group _ body _ => body.formula_unplaced d
  | .loop _ _ _ _ _ _ body _ => by
    simp only [Phrase.unplaced, Phrase.expr, Expr.formula, body.formula_unplaced]
    rfl
  | .call _ _ _ args _ => by
    simp only [Phrase.unplaced, Phrase.expr, Expr.formula, args.formulas_unplaced]
  | .decision _ subs | .parameter _ subs => by
    simp only [Phrase.unplaced, Phrase.expr, Expr.formula, subs.selectors_unplaced]
    rfl
  | .minus _ arg => by
    simp only [Phrase.unplaced, Phrase.expr, Expr.formula, arg.formula_unplaced]
  | .plus _ arg => arg.formula_unplaced d
  | .binary lhs _ _ rhs => by
    simp only [Phrase.unplaced, Phrase.expr, binaryExpr, Expr.formula, lhs.formula_unplaced, rhs.formula_unplaced]

lemma Arguments.formulas_unplaced (d : Depth) : (args : Arguments) →
    formulas (args.unplaced.exprs d) = formulas (args.exprs d)
  | .last arg => by
    simp only [Arguments.unplaced, Arguments.exprs, formulas, arg.formula_unplaced]
  | .more arg _ rest => by
    simp only [Arguments.unplaced, Arguments.exprs, formulas, arg.formula_unplaced, rest.formulas_unplaced]

end

def Expresses (c : Context) (l : Level) (s : String) (f : Formula) : Prop :=
  ∃ q, Derives c l q ∧ Prints q s ∧ ∀ d, (q.expr d).formula = f

def isWordChar (c : Char) : Bool := c.isAlpha || c.isDigit || c == '_'

def IsWord (s : String) : Bool :=
  match s.toList with
  | [] => false
  | c :: cs => isWordChar c && !c.isDigit && cs.all isWordChar

lemma toNat_lt_of_isWordChar {c : Char} (h : isWordChar c = true) : c.toNat < 128 := by
  simp only [isWordChar, Char.isAlpha, Char.isUpper, Char.isLower, Char.isDigit, Bool.or_eq_true, Bool.and_eq_true,
    decide_eq_true_eq, beq_iff_eq, ge_iff_le, UInt32.le_iff_toNat_le] at h
  rcases h with ((h | h) | h) | rfl
  · exact Nat.lt_of_le_of_lt h.2 (by decide)
  · exact Nat.lt_of_le_of_lt h.2 (by decide)
  · exact Nat.lt_of_le_of_lt h.2 (by decide)
  · decide

lemma byte_of_isWordChar {c : Char} (h : isWordChar c = true) : isWordByte (UInt8.ofNat c.toNat) = true ∧
    (c.isDigit = false → isLetterByte (UInt8.ofNat c.toNat) = true) ∧ Char.ofNat (UInt8.ofNat c.toNat).toNat = c := by
  have hall : ∀ n : Fin 128, isWordChar (Char.ofNat n) = true → isWordByte (UInt8.ofNat n) = true ∧
      ((Char.ofNat n).isDigit = false → isLetterByte (UInt8.ofNat n) = true) ∧
      Char.ofNat (UInt8.ofNat n).toNat = Char.ofNat n := by decide +kernel
  have hc := hall ⟨c.toNat, toNat_lt_of_isWordChar h⟩
  simp only [Char.ofNat_toNat] at hc
  exact hc h

variable {c : Context} {l : Level} {s t : String} {f g : Formula}

lemma spelled_word (h : IsWord s = true) : Spelled ⟨.ident, s, 0⟩ := by
  unfold IsWord at h
  split at h
  · cases h
  · rename_i c cs hs
    simp only [Bool.and_eq_true, Bool.not_eq_true', List.all_eq_true] at h
    obtain ⟨⟨hc, hdigit⟩, hcs⟩ := h
    refine ⟨(c :: cs).map fun c => UInt8.ofNat c.toNat, .name ((byte_of_isWordChar hc).2.1 hdigit) ?_, ?_⟩
    · exact List.forall_mem_map.2 fun c hc => (byte_of_isWordChar (hcs c hc)).1
    · have hmap : ∀ ds : List Char, (∀ d ∈ ds, isWordChar d = true) →
          (ds.map fun c => UInt8.ofNat c.toNat).map (fun b => Char.ofNat b.toNat) = ds := by
        intro ds hds
        rw [List.map_map]
        exact (List.map_congr_left fun d hd => (byte_of_isWordChar (hds d hd)).2.2).trans (List.map_id ds)
      rw [ascii, hmap _ (List.forall_mem_cons.2 ⟨hc, hcs⟩), ← hs, String.ofList_toList]

lemma Expresses.loosen {l' : Level} (h : Expresses c l s f) (hl : l'.rank ≤ l.rank) : Expresses c l' s f := by
  obtain ⟨q, hq, hs, hf⟩ := h
  exact ⟨q, hq.loosen hl, hs, hf⟩

lemma expresses_number {x : Float} (h : Spelled ⟨.number x, s, 0⟩) : Expresses c .prim s (.number x) :=
  ⟨.number x ⟨s, 0⟩, .number _ _, fun _ _ hc hl => .spelled h (hc.past _) hl, fun _ => rfl⟩

lemma expresses_equation (h : IsWord s = true) (hvar : c.symbols.variableArity? s = none)
    (hpar : c.symbols.isParameter s = false) (heq : c.symbols.isEquation s = true) (hself : s ≠ c.self) :
    Expresses c .prim s (.equation s) :=
  ⟨.equation ⟨s, 0⟩, .equation hvar hpar heq hself, fun _ _ hc hl => .spelled (spelled_word h) (hc.past _) hl,
    fun _ => rfl⟩

lemma Expresses.group (h : Expresses c .rel s f) : Expresses c .prim ("(" ++ s ++ ")") f := by
  obtain ⟨q, hq, hs, hf⟩ := h
  refine ⟨.group ⟨"(", 0⟩ q ⟨")", 0⟩, .group _ _ hq, fun rest us hc hl => ?_, hf⟩
  simp only [Phrase.tokens, bytes_append, List.append_assoc, List.cons_append, List.nil_append]
  apply Lexes.spelled spelled_lparen (fun _ _ => rfl)
  apply hs _ _ (Closing.cons rfl)
  exact Lexes.spelled spelled_rparen (fun _ _ => rfl) hl

lemma Expresses.binary (hs : Expresses c l s f) {op : Operator} (hop : levelOf op = l) (hl : l ≠ .pow)
    (ht : Expresses c l.tighter t g) : Expresses c l (s ++ (" " ++ op.symbol ++ " ") ++ t) (.binary op f g) := by
  obtain ⟨p, hp, hs, hf⟩ := hs
  obtain ⟨q, hq, ht, hg⟩ := ht
  refine ⟨.binary p op ⟨op.symbol, 0⟩ q, .operation _ hop hl hp hq, fun rest us hc hrest => ?_, fun d => ?_⟩
  · simp only [Phrase.tokens, bytes_append, List.append_assoc, List.cons_append]
    apply hs _ _ (Closing.cons rfl)
    apply Lexes.space
    apply Lexes.spelled (spelled_operator op) (past_cons.2 rfl)
    apply Lexes.space
    exact ht _ _ hc hrest
  · rw [Phrase.expr, binaryExpr, Expr.formula, hf, hg]

lemma Expresses.times (hs : Expresses c .mul s f) (ht : Expresses c .pow t g) :
    Expresses c .mul (s ++ " * " ++ t) (.binary .times f g) := by
  have hsymbol : " * " = " " ++ Operator.times.symbol ++ " " := by decide
  rw [hsymbol]
  exact hs.binary rfl (by decide) ht

lemma Expresses.plus (hs : Expresses c .add s f) (ht : Expresses c .mul t g) :
    Expresses c .add (s ++ " + " ++ t) (.binary .plus f g) := by
  have hsymbol : " + " = " " ++ Operator.plus.symbol ++ " " := by decide
  rw [hsymbol]
  exact hs.binary rfl (by decide) ht

lemma Expresses.minus (hs : Expresses c .add s f) (ht : Expresses c .mul t g) :
    Expresses c .add (s ++ " - " ++ t) (.binary .minus f g) := by
  have hsymbol : " - " = " " ++ Operator.minus.symbol ++ " " := by decide
  rw [hsymbol]
  exact hs.binary rfl (by decide) ht

lemma Expresses.loop {dim : String} (h : Expresses c .rel s f) (keyword : Keyword) (hdim : c.isDimension dim = true)
    (hword : IsWord dim = true) :
    Expresses c .prim (keyword.name ++ "\x7b" ++ dim ++ "\x7d(" ++ s ++ ")") (.loop keyword dim f) := by
  obtain ⟨q, hq, hs, hf⟩ := h
  have hk : IsWord keyword.name = true := by cases keyword <;> decide
  refine ⟨.loop keyword 0 ⟨"\x7b", 0⟩ ⟨dim, 0⟩ ⟨"\x7d", 0⟩ ⟨"(", 0⟩ q ⟨")", 0⟩, .loop _ _ _ _ _ _ hdim hq,
    printed_loop keyword (spelled_word hk) (spelled_word hword) hs, fun d => ?_⟩
  rw [Phrase.expr, Expr.formula, hf]

lemma Expresses.call (h : Expresses c .rel s f) (fn : Function) (hfn : fn.accepts 1 = true) :
    Expresses c .prim (fn.name ++ "(" ++ s ++ ")") (.call fn [f]) := by
  obtain ⟨q, hq, hs, hf⟩ := h
  have hk : IsWord fn.name = true := by cases fn <;> decide
  refine ⟨.call fn 0 ⟨"(", 0⟩ (.last q) ⟨")", 0⟩, .call _ _ _ (List.forall_mem_singleton.2 hq) hfn,
    fun rest us hc hl => ?_,
    fun d => ?_⟩
  · simp only [Phrase.tokens, Arguments.tokens, bytes_append, List.append_assoc, List.cons_append, List.nil_append]
    apply Lexes.spelled (spelled_word hk) (past_cons.2 rfl)
    apply Lexes.spelled spelled_lparen (fun _ _ => rfl)
    apply hs _ _ (Closing.cons rfl)
    exact Lexes.spelled spelled_rparen (fun _ _ => rfl) hl
  · rw [Phrase.expr, Expr.formula, Arguments.exprs, formulas, formulas, hf]

def Known (c : Context) : Selector → Prop
  | .bound dim => IsWord dim = true ∧ c.isDimension dim = true
  | .option index => index < 2 ^ 53

lemma isIndex_of_lt {i : Nat} (h : i < 2 ^ 53) : IsIndex (Number.ofDecimal false i 0) i := by
  rcases Nat.eq_zero_or_pos i with rfl | hi
  · exact isIndex_zero
  · obtain ⟨m, q, hc, hw⟩ := Number.exists_whole hi h
    exact isIndex_whole hw hc hi

def selectorBrackets : List Selector → Brackets
  | [] => .done
  | .bound dim :: subs => .dim ⟨"[", 0⟩ ⟨dim, 0⟩ ⟨"]", 0⟩ (selectorBrackets subs)
  | .option i :: subs =>
    .constant ⟨"[", 0⟩ (.number (Number.ofDecimal false i 0) ⟨toString i, 0⟩) ⟨"]", 0⟩ i (selectorBrackets subs)

lemma length_selectorBrackets (subs : List Selector) : (selectorBrackets subs).length = subs.length := by
  induction subs with
  | nil => rfl
  | cons sub subs ih => cases sub <;> simp only [selectorBrackets, Brackets.length, ih, List.length_cons]

lemma derives_selectorBrackets (subs : List Selector) : ∀ p ∈ (selectorBrackets subs).phrases, Derives c .rel p := by
  induction subs with
  | nil => exact List.forall_mem_nil _
  | cons sub subs ih =>
    cases sub with
    | bound dim => exact ih
    | option i => exact List.forall_mem_cons.2 ⟨(Derives.number _ _).loosen (by decide), ih⟩

variable {subs : List Selector} {name : String}

lemma resolved_selectorBrackets (h : ∀ sub ∈ subs, Known c sub) : (selectorBrackets subs).Resolved c := by
  induction subs with
  | nil => trivial
  | cons sub subs ih =>
    obtain ⟨hsub, hsubs⟩ := List.forall_mem_cons.1 h
    cases sub with
    | bound dim => exact ⟨hsub.2, ih hsubs⟩
    | option i => exact ⟨⟨_, .number _ _, isIndex_of_lt hsub⟩, ih hsubs⟩

lemma selectors_selectorBrackets (d : Depth) (subs : List Selector) :
    ((selectorBrackets subs).subscripts d).map Subscript.selector = subs := by
  induction subs with
  | nil => rfl
  | cons sub subs ih =>
    cases sub <;> simp only [selectorBrackets, Brackets.subscripts, List.map_cons, ih, Subscript.selector]

lemma bracketed_selectorBrackets (d : Depth) (subs : List Selector) :
    Subscript.bracketed ((selectorBrackets subs).subscripts d) = Selector.bracketed subs := by
  induction subs with
  | nil => rfl
  | cons sub subs ih =>
    unfold Subscript.bracketed Selector.bracketed at ih ⊢
    cases sub <;> rw [selectorBrackets, Brackets.subscripts, List.map_cons, String.join_cons, ih, List.map_cons,
      String.join_cons] <;> rfl

lemma lexes_selectorBrackets (d : Depth) (h : ∀ sub ∈ subs, Known c sub) {rest : Bytes} {us : List Token}
    (hc : Closing rest) (hl : Lexes rest us) :
    Past isWordByte (bytes (Subscript.bracketed ((selectorBrackets subs).subscripts d)) ++ rest) ∧
      Lexes (bytes (Subscript.bracketed ((selectorBrackets subs).subscripts d)) ++ rest)
      ((selectorBrackets subs).tokens ++ us) := by
  induction subs with
  | nil => exact ⟨hc.past .ident, hl⟩
  | cons sub subs ih =>
    obtain ⟨hsub, hsubs⟩ := List.forall_mem_cons.1 h
    cases sub with
    | bound dim => exact lexes_bracketed (spelled_word hsub.1) (ih hsubs).2
    | option i => exact lexes_bracketed (spelled_index i) (ih hsubs).2

lemma prints_reference (hname : IsWord name = true) (h : ∀ sub ∈ subs, Known c sub) {q : Phrase}
    (hq : q.tokens = ⟨.ident, name, 0⟩ :: (selectorBrackets subs).tokens) :
    Prints q (name ++ Selector.bracketed subs) := by
  refine printed_reference (spelled_word hname) (fun rest us hc hl => ?_) hq
  rw [← bracketed_selectorBrackets ⟨0, 0⟩]
  exact lexes_selectorBrackets ⟨0, 0⟩ h hc hl

lemma expresses_decision (hname : IsWord name = true) (harity : c.symbols.variableArity? name = some subs.length)
    (h : ∀ sub ∈ subs, Known c sub) :
    Expresses c .prim (name ++ Selector.bracketed subs) (.reference name true subs) := by
  refine ⟨.decision ⟨name, 0⟩ (selectorBrackets subs), .decision ?_ (derives_selectorBrackets subs)
    (resolved_selectorBrackets h), prints_reference hname h rfl, fun d => ?_⟩
  · rwa [length_selectorBrackets]
  · rw [Phrase.expr, Expr.formula, selectors_selectorBrackets]

lemma expresses_parameter (hname : IsWord name = true) (hvar : c.symbols.variableArity? name = none)
    (hpar : c.symbols.isParameter name = true) (h : ∀ sub ∈ subs, Known c sub) :
    Expresses c .prim (name ++ Selector.bracketed subs) (.reference name false subs) := by
  refine ⟨.parameter ⟨name, 0⟩ (selectorBrackets subs), .parameter hvar hpar (derives_selectorBrackets subs)
    (resolved_selectorBrackets h), prints_reference hname h rfl, fun d => ?_⟩
  rw [Phrase.expr, Expr.formula, selectors_selectorBrackets]

lemma parse_of_expresses {symbols : Symbols} {self : String} {src : Bytes}
    (h : Expresses ⟨symbols, self, src⟩ .rel s f) :
    ∃ e, parse symbols self s = .ok e ∧ e.formula = f := by
  obtain ⟨q, hq, hs, hf⟩ := h
  have hlex := hs [] [] (Past.nil _) .done
  rw [List.append_nil, List.append_nil] at hlex
  obtain ⟨q', hu, hparse⟩ := parse_of_lexes hq hlex
  refine ⟨_, hparse, ?_⟩
  rw [← q'.formula_unplaced, hu, q.formula_unplaced, hf]

end Grammar

end LandUse
