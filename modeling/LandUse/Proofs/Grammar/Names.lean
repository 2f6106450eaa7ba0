import LandUse.Equation.Library
import LandUse.Proofs.Catalog.Keys
import LandUse.Proofs.Grammar.Lexemes
import LandUse.Proofs.Grammar.Unique

namespace LandUse

def Subscript.Names (d : String) : Subscript → Prop
  | .dim _ name => name = d
  | _ => False

mutual

def Expr.ForDims (P : String → Prop) : Expr → Prop
  | .number .. | .equation .. => True
  | .param _ _ _ subs => ∀ sub ∈ subs, ∀ d, sub.Names d → P d
  | .negate _ _ arg => arg.ForDims P
  | .binary _ _ _ lhs rhs => lhs.ForDims P ∧ rhs.ForDims P
  | .group _ arg => arg.ForDims P
  | .call _ _ _ _ _ args => ArgumentsForDims P args
  | .loop _ _ dim _ _ _ arg => P dim ∧ arg.ForDims P

def ArgumentsForDims (P : String → Prop) : List Expr → Prop
  | [] => True
  | e :: es => e.ForDims P ∧ ArgumentsForDims P es

end

namespace Grammar

open LandUse.Parser

variable {P : String → Prop}

def ForNames (P : String → Prop) (ts : List Token) : Prop := ∀ t ∈ ts, t.kind = .ident → P t.lexeme

lemma forNames_cons {t : Token} {ts : List Token} :
    ForNames P (t :: ts) ↔ (t.kind = .ident → P t.lexeme) ∧ ForNames P ts :=
  List.forall_mem_cons

lemma forNames_append {ts us : List Token} : ForNames P (ts ++ us) ↔ ForNames P ts ∧ ForNames P us :=
  List.forall_mem_append

lemma forDims_subscripts (d : Depth) : (subs : Brackets) → ForNames P subs.tokens →
    ∀ sub ∈ subs.subscripts d, ∀ dim, sub.Names dim → P dim
  | .done, _ => List.forall_mem_nil _
  | .dim left name right rest, h => by
    simp only [Brackets.tokens, forNames_cons] at h
    refine List.forall_mem_cons.2 ⟨?_, forDims_subscripts d rest h.2.2.2⟩
    rintro _ rfl
    exact h.2.1 trivial
  | .option left name right index rest, h => by
    simp only [Brackets.tokens, forNames_cons] at h
    exact List.forall_mem_cons.2 ⟨fun _ h => h.elim, forDims_subscripts d rest h.2.2.2⟩
  | .constant left value right index rest, h => by
    simp only [Brackets.tokens, forNames_cons, forNames_append] at h
    exact List.forall_mem_cons.2 ⟨fun _ h => h.elim, forDims_subscripts d rest h.2.2.2⟩

mutual

theorem forDims_expr (d : Depth) : (p : Phrase) → ForNames P p.tokens → (p.expr d).ForDims P
  | .number .., _ | .equation .., _ => trivial
  | .group left body right, h => by
    simp only [Phrase.tokens, forNames_cons, forNames_append] at h
    exact forDims_expr d body h.2.1
  | .loop keyword pos brace dim unbrace left body right, h => by
    simp only [Phrase.tokens, forNames_cons, forNames_append] at h
    obtain ⟨-, -, hdim, -, -, hbody, -⟩ := h
    exact ⟨hdim trivial, forDims_expr _ body hbody⟩
  | .call fn pos left args right, h => by
    simp only [Phrase.tokens, forNames_cons, forNames_append] at h
    exact forDims_exprs _ args h.2.2.1
  | .decision name subs, h => by
    simp only [Phrase.tokens, forNames_cons] at h
    exact forDims_subscripts d subs h.2
  | .parameter name subs, h => by
    simp only [Phrase.tokens, forNames_cons] at h
    exact forDims_subscripts d subs h.2
  | .minus sign arg, h => by
    simp only [Phrase.tokens, forNames_cons] at h
    exact forDims_expr d arg h.2
  | .plus sign arg, h => by
    simp only [Phrase.tokens, forNames_cons] at h
    exact forDims_expr d arg h.2
  | .binary lhs op mark rhs, h => by
    simp only [Phrase.tokens, forNames_cons, forNames_append] at h
    exact ⟨forDims_expr d lhs h.1, forDims_expr d rhs h.2.2⟩

theorem forDims_exprs (d : Depth) : (args : Arguments) → ForNames P args.tokens → ArgumentsForDims P (args.exprs d)
  | .last arg, h => ⟨forDims_expr d arg h, trivial⟩
  | .more arg comma rest, h => by
    simp only [Arguments.tokens, forNames_cons, forNames_append] at h
    exact ⟨forDims_expr d arg h.1, forDims_exprs d rest h.2.2⟩

end

lemma plainName_of_spelled {t : Token} (h : t.Spelled) (hk : t.kind = .ident) : PlainName t.lexeme := by
  obtain ⟨lex, hspells, hlex⟩ := h
  rw [hk] at hspells
  have hword : ∀ b ∈ lex, Token.isWordByte b = true := by
    cases hspells with
    | name hb hr => exact List.forall_mem_cons.2 ⟨by simp [Token.isWordByte, hb], hr⟩
    | bracket h => exact absurd h (by unfold Token.bracket?; split <;> simp)
  intro c hc
  rw [hlex, Text.ascii, String.toList_ofList, List.mem_map] at hc
  obtain ⟨b, hb, rfl⟩ := hc
  have hplain : ∀ b : UInt8, Token.isWordByte b = true →
      Char.ofNat b.toNat ≠ zeroChar ∧ Char.ofNat b.toNat ≠ '=' ∧ Char.ofNat b.toNat ≠ '|' := by decide +kernel
  exact hplain b (hword b hb)

lemma parseNamed_eq_ok {symbols : Symbols} {sources : Dict String} {name : String} {e : Expr}
    (h : parseNamed symbols sources name = .ok e) : ∃ src ts p, sources.get? name = some src ∧
      Token.scan (Text.bytes src) = .ok ts ∧ Derivation ⟨symbols, name, Text.bytes src⟩ ts p ∧ p.expr ⟨0, 0⟩ = e := by
  unfold parseNamed at h
  split at h
  · cases h
  · rename_i src hsrc
    split at h
    · rename_i hparse
      cases h
      obtain ⟨ts, hscan, heq⟩ := (parseBytes_eq_ok (c := ⟨symbols, name, Text.bytes src⟩)).1 hparse
      obtain ⟨p, hp, he⟩ := equation_eq_ok.1 heq
      exact ⟨src, ts, p, hsrc, hscan, hp, he⟩
    · cases h

theorem plain_of_parseNamed {symbols : Symbols} {sources : Dict String} {name : String} {e : Expr}
    (h : parseNamed symbols sources name = .ok e) : e.ForDims PlainName := by
  obtain ⟨src, ts, p, -, hscan, hp, rfl⟩ := parseNamed_eq_ok h
  refine forDims_expr _ p fun t ht hk => plainName_of_spelled ?_ hk
  exact (Token.cuts_of_scan hscan).spelled t (hp.tokens ▸ ht)

end Grammar

end LandUse
