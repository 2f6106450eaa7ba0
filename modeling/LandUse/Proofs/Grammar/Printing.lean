import LandUse.Equation.Code
import LandUse.Proofs.Grammar.Numbers
import LandUse.Proofs.Grammar.Placing
import LandUse.Proofs.Grammar.Unique

/-! The text of a tree has parentheses around every operation, and is read as a tree of the same code. -/

namespace LandUse

open Text Alphabet Grammar LandUse.Parser

def Subscript.unplaced : Subscript → Subscript
  | .dim _ name => .dim ⟨0, 0⟩ name
  | .option _ name i => .option ⟨0, 0⟩ name i
  | .index _ value _ => .index ⟨0, 0⟩ value none

/-- Of a subscript it only matters what it selects, not how and where it has been written. -/
def CodeToken.unplaced : CodeToken → CodeToken
  | .param name isVariable subs => .param name isVariable (subs.map Subscript.unplaced)
  | t => t

lemma Subscript.bracketed_unplaced (subs : List Subscript) : bracketed (subs.map unplaced) = bracketed subs := by
  have htext : ∀ s : Subscript, s.unplaced.text = s.text := fun s => by cases s <;> rfl
  rw [bracketed, bracketed, List.map_map]
  exact congrArg String.join (List.map_congr_left fun s _ => by rw [Function.comp_apply, htext])

lemma CodeToken.text_unplaced (t : CodeToken) : t.unplaced.text = t.text := by
  cases t with
  | param name isVariable subs => exact congrArg (name ++ ·) (Subscript.bracketed_unplaced subs)
  | _ => rfl

structure Expr.Alike (e e' : Expr) : Prop where
  text : e.text = e'.text
  code : ∀ j, (e.code j).map CodeToken.unplaced = (e'.code j).map CodeToken.unplaced

namespace Expr.Alike

variable {e e' a a' b b' : Expr}

lemma refl (e : Expr) : e.Alike e := ⟨rfl, fun _ => rfl⟩

lemma symm (h : e.Alike e') : e'.Alike e := ⟨h.text.symm, fun j => (h.code j).symm⟩

lemma trans {e'' : Expr} (h : e.Alike e') (h' : e'.Alike e'') : e.Alike e'' :=
  ⟨h.text.trans h'.text, fun j => (h.code j).trans (h'.code j)⟩

lemma length_code (h : e.Alike e') (j : Nat) : (e.code j).length = (e'.code j).length := by
  simpa only [List.length_map] using congrArg List.length (h.code j)

lemma param {subs subs' : List Subscript} (span span' : Span) (name : String) (isVariable : Bool)
    (h : subs.map Subscript.unplaced = subs'.map Subscript.unplaced) :
    (Expr.param span name isVariable subs).Alike (.param span' name isVariable subs') := by
  constructor
  · rw [Expr.text, Expr.text, ← Subscript.bracketed_unplaced subs, h, Subscript.bracketed_unplaced]
  · intro j
    simp only [Expr.code, List.map_cons, List.map_nil, CodeToken.unplaced, h]

lemma negate (span opSpan span' opSpan' : Span) (h : a.Alike a') :
    (Expr.negate span opSpan a).Alike (.negate span' opSpan' a') := by
  constructor
  · exact congrArg (fun s => "(-" ++ s ++ ")") h.text
  · intro j
    simp only [Expr.code, List.map_cons, h.code]

lemma binary (span opSpan span' opSpan' : Span) (op : Operator) (ha : a.Alike a') (hb : b.Alike b') :
    (Expr.binary span op opSpan a b).Alike (.binary span' op opSpan' a' b') := by
  constructor
  · exact congrArg₂ (fun s t => "(" ++ s ++ " " ++ op.symbol ++ " " ++ t ++ ")") ha.text hb.text
  · intro j
    simp only [Expr.code, List.map_cons, List.map_append, ha.code, ha.length_code, hb.code]

lemma group (span : Span) (h : a.Alike e) : (Expr.group span a).Alike e := by
  constructor
  · exact h.text
  · intro j
    simp only [Expr.code, h.code]

lemma loop (keyword : Keyword) (dim : String) (span dimSpan body span' dimSpan' body' : Span) (level : Nat)
    (h : a.Alike a') :
    (Expr.loop span keyword dim dimSpan level body a).Alike (.loop span' keyword dim dimSpan' level body' a') := by
  constructor
  · exact congrArg (fun s => keyword.name ++ "\x7b" ++ dim ++ "\x7d(" ++ s ++ ")") h.text
  · intro j
    simp only [Expr.code, List.map_cons, h.length_code, h.code]

lemma arguments {as as' : List Expr} (h : List.Forall₂ Alike as as') :
    textList as = textList as' ∧
      ∀ j, (argumentCode j as).map CodeToken.unplaced = (argumentCode j as').map CodeToken.unplaced := by
  induction h with
  | nil => exact ⟨rfl, fun _ => rfl⟩
  | cons he _ ih =>
    refine ⟨congrArg₂ List.cons he.text ih.1, fun j => ?_⟩
    simp only [argumentCode, List.map_append, he.code, he.length_code, ih.2]

lemma call (fn : Function) (span body span' body' : Span) (level level' : Nat) (seps seps' : List Int)
    {as as' : List Expr} (h : List.Forall₂ Alike as as') :
    (Expr.call span fn level body seps as).Alike (.call span' fn level' body' seps' as') := by
  obtain ⟨ht, hc⟩ := arguments h
  constructor
  · exact congrArg (fun ts => fn.name ++ "(" ++ ", ".intercalate ts ++ ")") ht
  · intro j
    simp only [Expr.code, List.map_append, h.length_eq, hc]

end Expr.Alike

namespace Grammar

lemma Brackets.subscripts_unplaced (d : Depth) (subs : Brackets) :
    (subs.unplaced.subscripts d).map Subscript.unplaced = (subs.subscripts d).map Subscript.unplaced := by
  fun_induction Brackets.length subs with
  | case1 => rfl
  | case2 _ _ _ _ ih | case3 _ _ _ _ _ ih | case4 _ _ _ _ _ ih =>
    simp only [unplaced, subscripts, List.map_cons, ih]
    rfl

mutual

lemma Phrase.alike_unplaced (d : Depth) : (p : Phrase) → (p.unplaced.expr d).Alike (p.expr d)
  | .number x mark => ⟨rfl, fun _ => rfl⟩
  | .group left body right => by
    simp only [Phrase.unplaced, Phrase.expr]
    exact .group _ (.symm (.group _ (.symm (body.alike_unplaced d))))
  | .loop keyword pos brace dim unbrace left body right => .loop _ _ _ _ _ _ _ _ _ (body.alike_unplaced _)
  | .call fn pos left args right => .call _ _ _ _ _ _ _ _ _ (args.alike_unplaced _)
  | .decision name subs => .param _ _ _ _ (subs.subscripts_unplaced d)
  | .parameter name subs => .param _ _ _ _ (subs.subscripts_unplaced d)
  | .equation name => ⟨rfl, fun _ => rfl⟩
  | .minus sign arg => .negate _ _ _ _ (arg.alike_unplaced d)
  | .plus sign arg => arg.alike_unplaced d
  | .binary lhs op mark rhs => .binary _ _ _ _ _ (lhs.alike_unplaced d) (rhs.alike_unplaced d)

lemma Arguments.alike_unplaced (d : Depth) :
    (args : Arguments) → List.Forall₂ Expr.Alike (args.unplaced.exprs d) (args.exprs d)
  | .last arg => .cons (arg.alike_unplaced d) .nil
  | .more arg _ rest => .cons (arg.alike_unplaced d) (rest.alike_unplaced d)

end

lemma alike_of_unplaced {p q : Phrase} (h : q.unplaced = p.unplaced) (d : Depth) : (q.expr d).Alike (p.expr d) :=
  (q.alike_unplaced d).symm.trans (h ▸ p.alike_unplaced d)

end Grammar

namespace Token

def isGraphicByte (b : UInt8) : Bool := !isBlankByte b && b.toNat < 128

variable {b : UInt8} {k : TokenKind} {us : List Token}

lemma isGraphicByte_iff : isGraphicByte b = true ↔ isBlankByte b = false ∧ b.toNat < 128 := by
  simp [isGraphicByte]

def isPlainByte (b : UInt8) : Bool := isNumeralByte b || b == 43 || b == 45 || (bracket? b).isSome

lemma plain_byte : ∀ b : UInt8, isPlainByte b = true → isGraphicByte b = true ∧ (b == 94) = false := by decide +kernel

lemma plain_word (h : isWordByte b = true) : isPlainByte b = true := by
  simp [isPlainByte, isNumeralByte, h]

lemma plain_digit (h : isDigitByte b = true) : isPlainByte b = true :=
  plain_word (Bool.or_eq_true_iff.2 (.inr h))

lemma Numeral.plain {bs : Bytes} (h : Numeral bs) : ∀ b ∈ bs, isPlainByte b = true := by
  obtain ⟨whole, point, exponent, rfl, hw, hp, he, -⟩ := h
  intro c hc
  simp only [List.mem_append] at hc
  rcases hc with hc | hc | hc
  · exact plain_digit (hw c hc)
  · rcases hp with rfl | ⟨ds, rfl, hd⟩
    · cases hc
    · rcases List.mem_cons.1 hc with rfl | hc
      · decide
      · exact plain_digit (hd c hc)
  · rcases he with rfl | ⟨e, sign, ds, rfl, he, hs, hd, -⟩
    · cases hc
    · rcases List.mem_cons.1 hc with rfl | hc
      · rcases he with rfl | rfl <;> decide
      rcases List.mem_append.1 hc with hc | hc
      · rcases hs with rfl | rfl | rfl
        · cases hc
        · rw [List.mem_singleton.1 hc]
          decide
        · rw [List.mem_singleton.1 hc]
          decide
      · exact plain_digit (hd c hc)

lemma Spells.byte_cases {lex : Bytes} (h : Spells k lex) :
    (∃ op, k = .operator op ∧ lex = bytes op.symbol) ∨ (∀ op, k ≠ .operator op) ∧ ∀ b ∈ lex, isPlainByte b = true := by
  cases h with
  | name hb hr =>
    refine .inr ⟨nofun, fun c hc => ?_⟩
    rcases List.mem_cons.1 hc with rfl | hc
    · exact plain_word (Bool.or_eq_true_iff.2 (.inl hb))
    · exact plain_word (hr c hc)
  | numeral hn => exact .inr ⟨nofun, hn.plain⟩
  | operator op => exact .inl ⟨op, rfl, rfl⟩
  | bracket hb =>
    refine .inr ⟨?_, fun c hc => ?_⟩
    · rintro op rfl
      exact absurd hb (by unfold bracket?; split <;> simp)
    · rw [List.mem_singleton.1 hc]
      simp [isPlainByte, hb]

lemma Spells.graphic {lex : Bytes} (h : Spells k lex) : ∀ b ∈ lex, isGraphicByte b = true := by
  intro c hc
  rcases h.byte_cases with ⟨op, -, rfl⟩ | ⟨-, hplain⟩
  · have hb := operator_byte (isOperatorByte_symbol op c hc)
    exact isGraphicByte_iff.2 ⟨hb.1.1, hb.2⟩
  · exact (plain_byte c (hplain c hc)).1

lemma Lexes.spelled {s : String} {rest : Bytes} (h : Spelled ⟨k, s, 0⟩) (hr : Past (prolongs k) rest)
    (hl : Lexes rest us) : Lexes (bytes s ++ rest) (⟨k, s, 0⟩ :: us) := by
  obtain ⟨lex, hlex, rfl⟩ := h
  rw [bytes_ascii fun b hb => (isGraphicByte_iff.1 (hlex.graphic b hb)).2]
  exact .token hlex hr hl

lemma spelled_lparen : Spelled ⟨.lparen, "(", 0⟩ := ⟨[40], .bracket rfl, by decide⟩

lemma spelled_rparen : Spelled ⟨.rparen, ")", 0⟩ := ⟨[41], .bracket rfl, by decide⟩

lemma spelled_lbrace : Spelled ⟨.lbrace, "\x7b", 0⟩ := ⟨[123], .bracket rfl, by decide⟩

lemma spelled_rbrace : Spelled ⟨.rbrace, "\x7d", 0⟩ := ⟨[125], .bracket rfl, by decide⟩

lemma spelled_lbracket : Spelled ⟨.lbracket, "[", 0⟩ := ⟨[91], .bracket rfl, by decide⟩

lemma spelled_rbracket : Spelled ⟨.rbracket, "]", 0⟩ := ⟨[93], .bracket rfl, by decide⟩

lemma spelled_comma : Spelled ⟨.comma, ",", 0⟩ := ⟨[44], .bracket rfl, by decide⟩

lemma spelled_operator (op : Operator) : Spelled ⟨.operator op, op.symbol, 0⟩ :=
  ⟨bytes op.symbol, .operator op, (ascii_bytes_symbol op).symm⟩

lemma Lexes.space {rest : Bytes} (h : Lexes rest us) : Lexes (bytes " " ++ rest) us := by
  have hs : bytes " " = [32] := by decide
  rw [hs]
  exact .blank rfl h

lemma Lexes.past_equals {bs : Bytes} {t : Token} (h : Lexes bs (t :: us)) (ht : ∀ op, t.kind ≠ .operator op) :
    Past (· == 61) bs := by
  cases h with
  | blank hb => exact past_cons.2 (blank_byte hb)
  | @token k lex r ts hlex =>
    obtain ⟨b, r, rfl⟩ := List.exists_cons_of_ne_nil hlex.ne_nil
    refine past_cons.2 ?_
    generalize hw : b :: r = w at hlex
    cases hlex with
    | name hb =>
      cases hw
      exact (letter_byte hb).2.1
    | numeral hn =>
      subst hw
      exact (numeral_byte hn.head).2.2.1
    | operator op => exact absurd rfl (ht op)
    | bracket hb =>
      cases hw
      exact (bracket_byte (by rw [hb]; rfl)).2.1

end Token

namespace Grammar

open Token

variable {c : Context}

def Closing (rest : Bytes) : Prop := Past (fun b => !(b == 32 || b == 41 || b == 44 || b == 93)) rest

def Prints (q : Phrase) (s : String) : Prop :=
  ∀ rest us, Closing rest → Lexes rest us → Lexes (bytes s ++ rest) (q.tokens ++ us)

lemma Closing.past {rest : Bytes} (h : Closing rest) (k : TokenKind) : Past (prolongs k) rest := by
  refine h.mono fun b hb => ?_
  simp only [Bool.not_eq_false', Bool.or_eq_true, beq_iff_eq] at hb
  rcases hb with ((rfl | rfl) | rfl) | rfl
  all_goals cases k <;> rfl

lemma spelled_index (i : Nat) : Spelled ⟨.number (Number.ofDecimal false i 0), toString i, 0⟩ := by
  have h := spelled_decimal (Number.digitList i) [] none (fun _ => Number.digit_lt) (by simp)
    (Number.digitList_ne_nil i) (by simp) (by decide)
  have htext : decimalText (Number.digitList i) [] none = toString i := by
    rw [decimalText, Number.digitText_digitList]
    exact String.append_empty
  rwa [List.append_nil, Number.ofDigitList_digitList, htext] at h

lemma isIndex_zero : IsIndex (Number.ofDecimal false 0 0) 0 :=
  ⟨by decide, .inl (by decide +kernel), by decide +kernel⟩

lemma isIndex_whole {m n : Nat} {q : Int} {negative : Bool} (hw : Number.Whole m q n)
    (hc : (Number.Parts.finite negative m q).Canonical) (hn : 0 < n) : IsIndex (Number.ofDecimal false n 0) n := by
  have hx := Number.parts_nearest hw hc hn
  rw [Number.ofDecimal_whole hw hc hn]
  obtain ⟨hi, ht⟩ := Number.truncate_of_whole hx hw
  exact ⟨Number.not_lt_zero hx, .inl hi, by rw [ht, Int.toNat_natCast]⟩

lemma isIndex_ofDecimal {y : Float} {i : Nat} (h : IsIndex y i) : IsIndex (Number.ofDecimal false i 0) i := by
  obtain ⟨-, hwhole, rfl⟩ := h
  cases hy : Number.parts y with
  | nan | infinite => simpa [Number.truncate, hy] using isIndex_zero
  | finite negative m q =>
    have hc := Number.canonical_parts y
    rw [hy] at hc
    have hint : Number.isIntegral y = true := by
      refine hwhole.resolve_right fun hinf => ?_
      obtain ⟨_, hinf⟩ := Number.infinite_of_isInf hinf
      rw [hy] at hinf
      cases hinf
    have hw := Number.whole_truncate hy hint
    by_cases hpos : 0 < Number.truncate y
    · have hn : (Number.truncate y).natAbs = (Number.truncate y).toNat := by omega
      rw [hn] at hw
      exact isIndex_whole hw hc (by omega)
    · rw [Int.toNat_of_nonpos (by omega)]
      exact isIndex_zero

lemma Closing.cons {b : UInt8} {r : Bytes} (h : (b == 32 || b == 41 || b == 44 || b == 93) = true) :
    Closing (b :: r) := by
  rw [Closing, past_cons, h]
  rfl

lemma bracketed_cons (sub : Subscript) (subs : List Subscript) (rest : Bytes) :
    bytes (Subscript.bracketed (sub :: subs)) ++ rest =
      bytes "[" ++ (bytes sub.text ++ (bytes "]" ++ (bytes (Subscript.bracketed subs) ++ rest))) := by
  simp only [Subscript.bracketed, List.map_cons, String.join_cons, bytes_append, List.append_assoc]

lemma lexes_bracketed {k : TokenKind} {sub : Subscript} {subs : List Subscript} {rest : Bytes} {us : List Token}
    (h : Spelled ⟨k, sub.text, 0⟩) (hl : Lexes (bytes (Subscript.bracketed subs) ++ rest) us) :
    Past isWordByte (bytes (Subscript.bracketed (sub :: subs)) ++ rest) ∧
      Lexes (bytes (Subscript.bracketed (sub :: subs)) ++ rest)
        (⟨.lbracket, "[", 0⟩ :: ⟨k, sub.text, 0⟩ :: ⟨.rbracket, "]", 0⟩ :: us) := by
  rw [bracketed_cons]
  refine ⟨fun b hb => ?_, ?_⟩
  · cases hb
    rfl
  · apply Lexes.spelled spelled_lbracket (fun _ _ => rfl)
    apply Lexes.spelled h (Closing.past (Closing.cons rfl) k)
    exact Lexes.spelled spelled_rbracket (fun _ _ => rfl) hl

lemma exists_printed_subscripts (d : Depth) : (subs : Brackets) → subs.Resolved c → (∀ t ∈ subs.tokens, t.Spelled) →
    ∃ bs : Brackets, bs.length = subs.length ∧ (∀ p ∈ bs.phrases, Derives c .rel p) ∧ bs.Resolved c ∧
      (bs.subscripts d).map Subscript.unplaced = (subs.subscripts d).map Subscript.unplaced ∧
      ∀ rest us, Closing rest → Lexes rest us →
        Past isWordByte (bytes (Subscript.bracketed (subs.subscripts d)) ++ rest) ∧
        Lexes (bytes (Subscript.bracketed (subs.subscripts d)) ++ rest) (bs.tokens ++ us)
  | .done, _, _ =>
    ⟨.done, rfl, by simp [Brackets.phrases], trivial, rfl, fun rest us hr hl => ⟨hr.past .ident, hl⟩⟩
  | .dim left name right rest, ⟨hd, hr⟩, hs => by
    obtain ⟨bs, hlen, hp, hres, ht, hl⟩ := exists_printed_subscripts d rest hr fun t h =>
      hs t (by simp [Brackets.tokens, h])
    have hname : Spelled ⟨.ident, name.lexeme, 0⟩ := hs (name.token .ident) (by simp [Brackets.tokens])
    refine ⟨.dim ⟨"[", 0⟩ ⟨name.lexeme, 0⟩ ⟨"]", 0⟩ bs, ?_, hp, ⟨hd, hres⟩, ?_, ?_⟩
    · simp only [Brackets.length, hlen]
    · simp only [Brackets.subscripts, List.map_cons, ht, Subscript.unplaced]
    · exact fun _ _ hc hrest => lexes_bracketed hname (hl _ _ hc hrest).2
  | .option left name right index rest, ⟨hd, ho, hr⟩, hs => by
    obtain ⟨bs, hlen, hp, hres, ht, hl⟩ := exists_printed_subscripts d rest hr fun t h =>
      hs t (by simp [Brackets.tokens, h])
    have hname : Spelled ⟨.ident, name.lexeme, 0⟩ := hs (name.token .ident) (by simp [Brackets.tokens])
    refine ⟨.option ⟨"[", 0⟩ ⟨name.lexeme, 0⟩ ⟨"]", 0⟩ index bs, ?_, hp, ⟨hd, ho, hres⟩, ?_, ?_⟩
    · simp only [Brackets.length, hlen]
    · simp only [Brackets.subscripts, List.map_cons, ht, Subscript.unplaced]
    · exact fun _ _ hc hrest => lexes_bracketed hname (hl _ _ hc hrest).2
  | .constant left value right index rest, ⟨⟨x, hx, hi⟩, hr⟩, hs => by
    obtain ⟨bs, hlen, hp, hres, ht, hl⟩ := exists_printed_subscripts d rest hr fun t h =>
      hs t (by simp [Brackets.tokens, h])
    refine ⟨.constant ⟨"[", 0⟩ (.number (Number.ofDecimal false index 0) ⟨toString index, 0⟩) ⟨"]", 0⟩ index bs, ?_, ?_,
      ⟨⟨_, .number _ _, isIndex_ofDecimal hi⟩, hres⟩, ?_, ?_⟩
    · simp only [Brackets.length, hlen]
    · exact List.forall_mem_cons.2 ⟨(Derives.number _ _).loosen (by decide), hp⟩
    · simp only [Brackets.subscripts, List.map_cons, ht, Subscript.unplaced]
    · exact fun _ _ hc hrest => lexes_bracketed (spelled_index index) (hl _ _ hc hrest).2

variable {q : Phrase} {s : String}

lemma Prints.past_equals {rest : Bytes} {us : List Token} (hq : Derives c .prim q) (h : Prints q s)
    (hc : Closing rest) (hl : Lexes rest us) : Past (· == 61) (bytes s ++ rest) := by
  obtain ⟨t, r, ht⟩ := List.exists_cons_of_length_pos q.tokens_pos
  have hlex := h rest us hc hl
  rw [ht, List.cons_append] at hlex
  refine hlex.past_equals fun op hop => ?_
  refine hq.unsigned.head_ne ⟨t.lexeme, t.pos⟩ op r ?_
  rw [ht, ← hop]

lemma printed_binary {p : Phrase} {t : String} (op : Operator) (hp : Derives c .prim p) (hq : Derives c .prim q)
    (hs : Prints p s) (ht : Prints q t) :
    Derives c .prim (.group ⟨"(", 0⟩ (.binary p op ⟨op.symbol, 0⟩ q) ⟨")", 0⟩) ∧
    Prints (.group ⟨"(", 0⟩ (.binary p op ⟨op.symbol, 0⟩ q) ⟨")", 0⟩)
      ("(" ++ s ++ " " ++ op.symbol ++ " " ++ t ++ ")") := by
  have hrank := Level.rank_le (.ofLeast (rightPrecedence op))
  have hop : op.precedence < Level.prim.bound := by cases op <;> decide
  refine ⟨.group _ _ ((hp.binary _ hop (hq.loosen hrank)).loosen ?_), ?_⟩
  · cases op <;> decide
  intro rest us hc hl
  simp only [Phrase.tokens, bytes_append, List.append_assoc, List.cons_append, List.nil_append]
  apply Lexes.spelled spelled_lparen (fun _ _ => rfl)
  apply hs _ _ (Closing.cons rfl)
  apply Lexes.space
  apply Lexes.spelled (spelled_operator op) (past_cons.2 rfl)
  apply Lexes.space
  apply ht _ _ (Closing.cons rfl)
  exact Lexes.spelled spelled_rparen (fun _ _ => rfl) hl

lemma printed_minus (hq : Derives c .prim q) (hs : Prints q s) :
    Derives c .prim (.group ⟨"(", 0⟩ (.minus ⟨"-", 0⟩ q) ⟨")", 0⟩) ∧
    Prints (.group ⟨"(", 0⟩ (.minus ⟨"-", 0⟩ q) ⟨")", 0⟩) ("(-" ++ s ++ ")") := by
  refine ⟨.group _ _ ((Derives.minus _ (hq.loosen (by decide))).loosen (by decide)), ?_⟩
  intro rest us hc hl
  have hopen : "(-" = "(" ++ Operator.minus.symbol := by decide
  have hclose : Lexes (bytes ")" ++ rest) (⟨.rparen, ")", 0⟩ :: us) := .spelled spelled_rparen (fun _ _ => rfl) hl
  simp only [hopen, Phrase.tokens, bytes_append, List.append_assoc, List.cons_append, List.nil_append]
  apply Lexes.spelled spelled_lparen (fun _ _ => rfl)
  apply Lexes.spelled (spelled_operator .minus) (hs.past_equals hq (Closing.cons rfl) hclose)
  exact hs _ _ (Closing.cons rfl) hclose

lemma printed_loop {dim : String} (keyword : Keyword) (hk : Spelled ⟨.ident, keyword.name, 0⟩)
    (hd : Spelled ⟨.ident, dim, 0⟩) (hs : Prints q s) :
    Prints (.loop keyword 0 ⟨"\x7b", 0⟩ ⟨dim, 0⟩ ⟨"\x7d", 0⟩ ⟨"(", 0⟩ q ⟨")", 0⟩)
      (keyword.name ++ "\x7b" ++ dim ++ "\x7d(" ++ s ++ ")") := by
  intro rest us hc hl
  have hopen : "\x7d(" = "\x7d" ++ "(" := by decide
  simp only [hopen, Phrase.tokens, bytes_append, List.append_assoc, List.cons_append, List.nil_append]
  apply Lexes.spelled hk (past_cons.2 rfl)
  apply Lexes.spelled spelled_lbrace (fun _ _ => rfl)
  apply Lexes.spelled hd (past_cons.2 rfl)
  apply Lexes.spelled spelled_rbrace (fun _ _ => rfl)
  apply Lexes.spelled spelled_lparen (fun _ _ => rfl)
  apply hs _ _ (Closing.cons rfl)
  exact Lexes.spelled spelled_rparen (fun _ _ => rfl) hl

lemma printed_call {fn : Function} {args : Arguments} (hfn : Spelled ⟨.ident, fn.name, 0⟩)
    (hl : ∀ rest us, Closing rest → Lexes rest us → Lexes (bytes s ++ rest) (args.tokens ++ us)) :
    Prints (.call fn 0 ⟨"(", 0⟩ args ⟨")", 0⟩) (fn.name ++ "(" ++ s ++ ")") := by
  intro rest us hc hrest
  simp only [Phrase.tokens, bytes_append, List.append_assoc, List.cons_append, List.nil_append]
  apply Lexes.spelled hfn (past_cons.2 rfl)
  apply Lexes.spelled spelled_lparen (fun _ _ => rfl)
  apply hl _ _ (Closing.cons rfl)
  exact Lexes.spelled spelled_rparen (fun _ _ => rfl) hrest

lemma printed_reference {name : String} {subs : Brackets} (hname : Spelled ⟨.ident, name, 0⟩)
    (hl : ∀ rest us, Closing rest → Lexes rest us →
      Past isWordByte (bytes s ++ rest) ∧ Lexes (bytes s ++ rest) (subs.tokens ++ us))
    (hq : q.tokens = ⟨.ident, name, 0⟩ :: subs.tokens) : Prints q (name ++ s) := by
  intro rest us hc hrest
  obtain ⟨hpast, hlex⟩ := hl rest us hc hrest
  rw [hq, bytes_append, List.append_assoc]
  exact .spelled hname hpast hlex

lemma exists_printed_arguments (d : Depth) : (args : Arguments) → (∀ p ∈ args.phrases, (∀ t ∈ p.tokens, t.Spelled) →
    ∃ q, Derives c .prim q ∧ (q.expr d).Alike (p.expr d) ∧ Prints q (p.expr d).text) → (∀ t ∈ args.tokens, t.Spelled) →
    ∃ as : Arguments, as.phrases.length = args.phrases.length ∧ (∀ p ∈ as.phrases, Derives c .rel p) ∧
      List.Forall₂ Expr.Alike (as.exprs d) (args.exprs d) ∧
      ∀ rest us, Closing rest → Lexes rest us →
        Lexes (bytes (", ".intercalate (Expr.textList (args.exprs d))) ++ rest) (as.tokens ++ us)
  | .last arg, h, hs => by
    obtain ⟨q, hq, ha, hp⟩ := h arg List.mem_cons_self hs
    refine ⟨.last q, rfl, ?_, .cons ha .nil, ?_⟩
    · exact List.forall_mem_singleton.2 (hq.loosen (by decide))
    · intro rest us hc hl
      simpa [Arguments.exprs, Expr.textList, Arguments.tokens] using hp rest us hc hl
  | .more arg comma rest, h, hs => by
    obtain ⟨q, hq, ha, hp⟩ := h arg List.mem_cons_self fun t ht => hs t (by simp [Arguments.tokens, ht])
    obtain ⟨as, hlen, hd, has, hl⟩ := exists_printed_arguments d rest (fun p hp => h p (List.mem_cons_of_mem _ hp))
      fun t ht => hs t (by simp [Arguments.tokens, ht])
    refine ⟨.more q ⟨",", 0⟩ as, ?_, ?_, .cons ha has, ?_⟩
    · simp only [Arguments.phrases, List.length_cons, hlen]
    · exact List.forall_mem_cons.2 ⟨hq.loosen (by decide), hd⟩
    · intro tail us hc htail
      have hne : Expr.textList (rest.exprs d) ≠ [] := by cases rest <;> exact List.cons_ne_nil _ _
      have hsep : ", " = "," ++ " " := by decide
      simp only [Arguments.exprs, Expr.textList, String.intercalate_cons_of_ne_nil hne, Arguments.tokens]
      rw [bytes_append, bytes_append, hsep, bytes_append]
      simp only [List.append_assoc, List.cons_append]
      apply hp _ _ (Closing.cons rfl)
      apply Lexes.spelled spelled_comma (fun _ _ => rfl)
      apply Lexes.space
      rw [← hsep]
      exact hl tail us hc htail

lemma exists_printed {l : Level} {p : Phrase} (h : Derives c l p) : ∀ (d : Depth), (∀ t ∈ p.tokens, t.Spelled) →
    ∃ q, Derives c .prim q ∧ (q.expr d).Alike (p.expr d) ∧ Prints q (p.expr d).text := by
  induction h with
  | tighter hl _ ih => exact ih
  | @operation l p op q mark hop hl _ _ ihp ihq =>
    intro d hs
    obtain ⟨p', hp, ha, hpp⟩ := ihp d fun t ht => hs t (by simp [Phrase.tokens, ht])
    obtain ⟨q', hq, hb, hpq⟩ := ihq d fun t ht => hs t (by simp [Phrase.tokens, ht])
    obtain ⟨hd, hprints⟩ := printed_binary op hp hq hpp hpq
    exact ⟨_, hd, .group _ (.binary _ _ _ _ _ ha hb), hprints⟩
  | @power p q mark _ _ ihp ihq =>
    intro d hs
    obtain ⟨p', hp, ha, hpp⟩ := ihp d fun t ht => hs t (by simp [Phrase.tokens, ht])
    obtain ⟨q', hq, hb, hpq⟩ := ihq d fun t ht => hs t (by simp [Phrase.tokens, ht])
    obtain ⟨hd, hprints⟩ := printed_binary .pow hp hq hpp hpq
    exact ⟨_, hd, .group _ (.binary _ _ _ _ _ ha hb), hprints⟩
  | @minus p sign _ ih =>
    intro d hs
    obtain ⟨q, hq, ha, hp⟩ := ih d fun t ht => hs t (by simp [Phrase.tokens, ht])
    obtain ⟨hd, hprints⟩ := printed_minus hq hp
    exact ⟨_, hd, .group _ (.negate _ _ _ _ ha), hprints⟩
  | @plus p sign _ ih =>
    intro d hs
    exact ih d fun t ht => hs t (by simp [Phrase.tokens, ht])
  | number x mark =>
    intro d hs
    have hx : Spelled ⟨.number x, mark.lexeme, 0⟩ := hs (mark.token (.number x)) (by simp [Phrase.tokens])
    exact ⟨.number x ⟨mark.lexeme, 0⟩, .number _ _, ⟨rfl, fun _ => rfl⟩, fun _ _ hc hl => .spelled hx (hc.past _) hl⟩
  | @group p left right _ ih =>
    intro d hs
    obtain ⟨q, hq, ha, hp⟩ := ih d fun t ht => hs t (by simp [Phrase.tokens, ht])
    refine ⟨q, hq, .symm (.group _ ha.symm), ?_⟩
    simpa only [Phrase.expr, Expr.text] using hp
  | @loop p dim keyword pos brace unbrace left right hd _ ih =>
    intro d hs
    obtain ⟨q, hq, ha, hp⟩ := ih { d with loops := d.loops + 1 } fun t ht => hs t (by simp [Phrase.tokens, ht])
    have hk : Spelled ⟨.ident, keyword.name, 0⟩ := hs ⟨.ident, keyword.name, pos⟩ (by simp [Phrase.tokens])
    have hdim : Spelled ⟨.ident, dim.lexeme, 0⟩ := hs (dim.token .ident) (by simp [Phrase.tokens])
    exact ⟨.loop keyword 0 ⟨"\x7b", 0⟩ ⟨dim.lexeme, 0⟩ ⟨"\x7d", 0⟩ ⟨"(", 0⟩ q ⟨")", 0⟩,
      .loop _ _ _ _ _ _ hd (hq.loosen (by decide)), .loop _ _ _ _ _ _ _ _ _ ha, printed_loop keyword hk hdim hp⟩
  | @call fn args pos left right _ hacc ih =>
    intro d hs
    obtain ⟨as, hlen, hd, ha, hl⟩ := exists_printed_arguments { d with calls := d.calls + 1 } args
      (fun p hp => ih p hp _) fun t ht => hs t (by simp [Phrase.tokens, ht])
    have hfn : Spelled ⟨.ident, fn.name, 0⟩ := hs ⟨.ident, fn.name, pos⟩ (by simp [Phrase.tokens])
    refine ⟨.call fn 0 ⟨"(", 0⟩ as ⟨")", 0⟩, .call _ _ _ hd (hlen ▸ hacc), .call _ _ _ _ _ _ _ _ _ ha, ?_⟩
    rw [Phrase.expr, Expr.text]
    exact printed_call hfn hl
  | @decision name subs hn _ hr _ =>
    intro d hs
    obtain ⟨bs, hlen, hp, hres, ht, hl⟩ := exists_printed_subscripts d subs hr fun t h =>
      hs t (by simp [Phrase.tokens, h])
    have hname : Spelled ⟨.ident, name.lexeme, 0⟩ := hs (name.token .ident) (by simp [Phrase.tokens])
    refine ⟨.decision ⟨name.lexeme, 0⟩ bs, .decision (by rw [hn, hlen]) hp hres, .param _ _ _ _ ht, ?_⟩
    rw [Phrase.expr, Expr.text]
    exact printed_reference hname hl rfl
  | @parameter name subs hn hpar _ hr _ =>
    intro d hs
    obtain ⟨bs, hlen, hp, hres, ht, hl⟩ := exists_printed_subscripts d subs hr fun t h =>
      hs t (by simp [Phrase.tokens, h])
    have hname : Spelled ⟨.ident, name.lexeme, 0⟩ := hs (name.token .ident) (by simp [Phrase.tokens])
    refine ⟨.parameter ⟨name.lexeme, 0⟩ bs, .parameter hn hpar hp hres, .param _ _ _ _ ht, ?_⟩
    rw [Phrase.expr, Expr.text]
    exact printed_reference hname hl rfl
  | @equation name hn hpar heq hne =>
    intro d hs
    have hname : Spelled ⟨.ident, name.lexeme, 0⟩ := hs (name.token .ident) (by simp [Phrase.tokens])
    exact ⟨.equation ⟨name.lexeme, 0⟩, .equation hn hpar heq hne, ⟨rfl, fun _ => rfl⟩,
      fun _ _ hc hl => .spelled hname (hc.past _) hl⟩

lemma unplaced_unplaced (ts : List Token) : (ts.map Token.unplaced).map Token.unplaced = ts.map Token.unplaced :=
  List.map_map

lemma exists_derivation {symbols : Symbols} {self : String} {src bs : Bytes}
    (hq : Derives ⟨symbols, self, src⟩ .rel q) (hl : Lexes bs (q.tokens.map Token.unplaced)) :
    ∃ ts q', Token.scan bs = .ok ts ∧ Derivation ⟨symbols, self, bs⟩ ts q' ∧ q'.unplaced = q.unplaced := by
  obtain ⟨ts, hscan, hts⟩ := scan_of_lexes hl
  obtain ⟨q', ht, hu⟩ := q.exists_placed ts (by rw [Phrase.tokens_unplaced, hts])
  exact ⟨ts, q', hscan, ⟨hq.placed hu, ht⟩, hu⟩

lemma parse_of_lexes {symbols : Symbols} {self : String} {src : Bytes} (hq : Derives ⟨symbols, self, src⟩ .rel q)
    (hl : Lexes (bytes s) q.tokens) :
    ∃ q' : Phrase, q'.unplaced = q.unplaced ∧ parse symbols self s = .ok (q'.expr ⟨0, 0⟩) := by
  obtain ⟨us, -, hus⟩ := scan_of_lexes hl
  rw [← hus, ← unplaced_unplaced, hus] at hl
  obtain ⟨ts, q', hscan, hd, hu⟩ := exists_derivation hq hl
  exact ⟨q', hu, (parseBytes_eq_ok (c := ⟨symbols, self, bytes s⟩)).2 ⟨ts, hscan, equation_eq_ok.2 ⟨q', hd, rfl⟩⟩⟩

end Grammar

/-- Reading the text of an equation that has been read gives an equation of the same text and the same code. -/
theorem text_reads_back (symbols : Symbols) (self : String) (src : Bytes) (e : Expr)
    (h : parseBytes symbols self src = .ok e) :
    ∃ e', parse symbols self e.text = .ok e' ∧ e'.text = e.text ∧
      (Code.ofExpr self e').tokens.map CodeToken.unplaced = (Code.ofExpr self e).tokens.map CodeToken.unplaced ∧
      (Code.ofExpr self e').text = (Code.ofExpr self e).text := by
  let c : Context := ⟨symbols, self, src⟩
  obtain ⟨ts, hscan, he⟩ := (parseBytes_eq_ok (c := c)).1 h
  obtain ⟨p, hp, rfl⟩ := equation_eq_ok.1 he
  have hspelled : ∀ t ∈ p.tokens, t.Spelled := hp.tokens ▸ (Token.cuts_of_scan hscan).spelled
  obtain ⟨q, hq, halike, hprints⟩ := exists_printed hp.derives ⟨0, 0⟩ hspelled
  have hlex := hprints [] [] (Token.Past.nil _) .done
  rw [List.append_nil, List.append_nil] at hlex
  obtain ⟨q', hu, hparse⟩ := parse_of_lexes (hq.loosen (by decide)) hlex
  have hsame := (alike_of_unplaced hu ⟨0, 0⟩).trans halike
  refine ⟨_, hparse, hsame.text, hsame.code 0, ?_⟩
  have htexts (c : Code) : c.tokens.map CodeToken.text = (c.tokens.map CodeToken.unplaced).map CodeToken.text := by
    rw [List.map_map]
    exact List.map_congr_left fun t _ => t.text_unplaced.symm
  rw [Code.text, Code.text, htexts, htexts]
  exact congrArg (fun ts => " ".intercalate (ts.map CodeToken.text)) (hsame.code 0)

theorem computed_index_reads_back : ∃ e,
    parseBytes parametersOnly "e" (bytes "-x[9 / +3] ^ -sum\x7bOPTIONS\x7d(a[OPTIONS] * .5e1)") = .ok e ∧
    e.text = "(-(x[3] ^ (-sum\x7bOPTIONS\x7d((a[OPTIONS] * .5e1)))))" ∧
    ∃ e', parse parametersOnly "e" e.text = .ok e' ∧ e'.text = e.text ∧
      (Code.ofExpr "e" e').tokens.map CodeToken.unplaced = (Code.ofExpr "e" e).tokens.map CodeToken.unplaced ∧
      (Code.ofExpr "e" e').text = (Code.ofExpr "e" e).text := by
  have hrun : (parseBytes parametersOnly "e" (bytes "-x[9 / +3] ^ -sum\x7bOPTIONS\x7d(a[OPTIONS] * .5e1)")).toOption.any
      (·.text == "(-(x[3] ^ (-sum\x7bOPTIONS\x7d((a[OPTIONS] * .5e1)))))") = true := by decide +kernel
  obtain ⟨e, he, htext⟩ := Outcome.exists_of_any hrun
  exact ⟨e, he, beq_iff_eq.1 htext, text_reads_back _ _ _ e he⟩

end LandUse
