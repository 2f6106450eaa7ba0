import LandUse.Proofs.Reversal.Backward
import LandUse.Proofs.Reversal.Layout

namespace LandUse

open Text Alphabet

namespace Token

variable {src : Bytes} {t u f l : Token} {ts us : List Token}

lemma Laid.cons (h : Laid src (t :: ts)) : t.Stands src ∧ Laid src ts ∧ ∀ u ∈ ts.head?, Precedes src t u := by
  obtain ⟨ht, hts⟩ := List.forall_mem_cons.1 h.stands
  obtain ⟨hhead, hchain⟩ := List.isChain_cons.1 h.chain
  exact ⟨ht, ⟨hts, hchain⟩, hhead⟩

lemma Laid.append (h : Laid src (ts ++ us)) :
    Laid src ts ∧ Laid src us ∧ ∀ t ∈ ts.getLast?, ∀ u ∈ us.head?, Precedes src t u := by
  obtain ⟨hts, hus⟩ := List.forall_mem_append.1 h.stands
  obtain ⟨hct, hcu, hboth⟩ := List.isChain_append.1 h.chain
  exact ⟨⟨hts, hct⟩, ⟨hus, hcu⟩, hboth⟩

lemma Laid.front (h : Laid src (ts ++ us)) : Laid src ts := h.append.1

structure Between (src : Bytes) (t : Token) (ts : List Token) (u f l : Token) : Prop where
  left : Precedes src t f
  laid : Laid src ts
  right : Precedes src l u

lemma Laid.between (h : Laid src (t :: (ts ++ u :: us))) (hf : ts.head? = some f) (hl : ts.getLast? = some l) :
    t.Stands src ∧ Between src t ts u f l ∧ Laid src (u :: us) := by
  obtain ⟨ht, hrest, hhead⟩ := h.cons
  obtain ⟨hts, hus, hlast⟩ := hrest.append
  exact ⟨ht, ⟨hhead f (by rw [List.head?_append, hf]; rfl), hts, hlast l hl u rfl⟩, hus⟩

lemma Between.spread (h : Between src t ts u f l)
    (hf : ts.head? = some f) (hl : ts.getLast? = some l) : Spread (slice src t.past u.pos) (ts.map unplaced) := by
  cases ts with
  | nil => cases hf
  | cons v ts =>
    cases hf
    obtain ⟨hle, hspread⟩ := h.laid.spread l hl
    have hleft := h.left.le
    rw [← slice_append src (hleft.trans hle) h.right.le, ← slice_append src hleft hle]
    have hall := (h.left.spread.append hspread).append h.right.spread
    rwa [List.nil_append, List.append_nil] at hall

lemma Laid.le_of_mem (h : Laid src (f :: ts)) : ∀ t ∈ f :: ts, f.pos ≤ t.pos := by
  induction ts generalizing f with
  | nil => simp
  | cons u ts ih =>
    obtain ⟨hf, hrest, hhead⟩ := h.cons
    intro t ht
    rcases List.mem_cons.1 ht with rfl | ht
    · exact le_rfl
    · exact (hf.lt_past.le.trans (hhead u rfl).le).trans (ih hrest t ht)

lemma Laid.past_le_of_mem (h : Laid src ts) (hl : ts.getLast? = some l) : ∀ t ∈ ts, t.past ≤ l.past := by
  induction ts with
  | nil => simp
  | cons f ts ih =>
    obtain ⟨hf, hrest, hhead⟩ := h.cons
    intro t ht
    cases ts with
    | nil =>
      obtain rfl := List.mem_singleton.1 ht
      cases hl
      exact le_rfl
    | cons u ts =>
      rw [List.getLast?_cons_cons] at hl
      have hall := ih hrest hl
      rcases List.mem_cons.1 ht with rfl | ht
      · have hu := hrest.stands u List.mem_cons_self
        exact ((hhead u rfl).le.trans hu.lt_past.le).trans (hall u List.mem_cons_self)
      · exact hall t ht

lemma Laid.mem_range (h : Laid src ts) (hf : ts.head? = some f) (hl : ts.getLast? = some l) (ht : t ∈ ts) :
    f.pos ≤ t.pos ∧ t.pos < t.past ∧ t.past ≤ l.past := by
  refine ⟨?_, (h.stands t ht).lt_past, h.past_le_of_mem hl t ht⟩
  cases ts with
  | nil => cases hf
  | cons v ts =>
    cases hf
    exact h.le_of_mem t ht

end Token

namespace Grammar

open LandUse.Parser Token

def Brackets.final (t : Token) : Brackets → Token
  | .done => t
  | .dim _ _ right rest | .option _ _ right _ rest | .constant _ _ right _ rest => rest.final (right.token .rbracket)

def Phrase.first : Phrase → Token
  | .number x mark => mark.token (.number x)
  | .group left _ _ => left.token .lparen
  | .loop keyword pos _ _ _ _ _ _ => ⟨.ident, keyword.name, pos⟩
  | .call fn pos _ _ _ => ⟨.ident, fn.name, pos⟩
  | .decision name _ | .parameter name _ | .equation name => name.token .ident
  | .minus sign _ => sign.token (.operator .minus)
  | .plus sign _ => sign.token (.operator .plus)
  | .binary lhs _ _ _ => lhs.first

def Phrase.final : Phrase → Token
  | .number x mark => mark.token (.number x)
  | .group _ _ right | .loop _ _ _ _ _ _ _ right | .call _ _ _ _ right => right.token .rparen
  | .decision name subs | .parameter name subs => subs.final (name.token .ident)
  | .equation name => name.token .ident
  | .minus _ arg | .plus _ arg => arg.final
  | .binary _ _ _ rhs => rhs.final

def Arguments.first : Arguments → Token
  | .last arg | .more arg _ _ => arg.first

def Arguments.final : Arguments → Token
  | .last arg => arg.final
  | .more _ _ rest => rest.final

lemma Brackets.getLast?_tokens : (subs : Brackets) → (t : Token) → (t :: subs.tokens).getLast? = some (subs.final t)
  | .done, _ => rfl
  | .dim _ _ right rest, _ | .option _ _ right _ rest, _ => by
    simp only [Brackets.tokens, List.getLast?_cons_cons]
    exact rest.getLast?_tokens _
  | .constant _ value right _ rest, _ => by
    rw [Brackets.tokens, List.getLast?_cons_cons, ← List.cons_append, List.getLast?_append, rest.getLast?_tokens]
    rfl

lemma Phrase.head?_tokens (p : Phrase) : p.tokens.head? = some p.first := by
  fun_induction Phrase.first p with
  | case10 lhs op mark rhs ih =>
    rw [Phrase.tokens, List.head?_append, ih]
    rfl
  | _ => rfl

lemma Phrase.getLast?_tokens (p : Phrase) : p.tokens.getLast? = some p.final := by
  fun_induction Phrase.final p with
  | case1 x mark => rfl
  | case2 left body right => exact List.getLast?_concat (l := left.token .lparen :: body.tokens)
  | case3 =>
    simp only [Phrase.tokens, List.getLast?_cons_cons]
    exact List.getLast?_concat (l := _ :: _)
  | case4 =>
    simp only [Phrase.tokens, List.getLast?_cons_cons]
    exact List.getLast?_concat (l := _ :: _)
  | case5 name subs => exact subs.getLast?_tokens _
  | case6 name subs => exact subs.getLast?_tokens _
  | case7 name => rfl
  | case8 sign arg ih =>
    rw [Phrase.tokens, List.getLast?_cons, ih]
    rfl
  | case9 sign arg ih =>
    rw [Phrase.tokens, List.getLast?_cons, ih]
    rfl
  | case10 lhs op mark rhs ih =>
    rw [Phrase.tokens, List.getLast?_append, List.getLast?_cons, ih]
    rfl

lemma Arguments.head?_tokens (args : Arguments) : args.tokens.head? = some args.first := by
  cases args with
  | last arg => exact arg.head?_tokens
  | more arg comma rest =>
    rw [Arguments.tokens, List.head?_append, arg.head?_tokens]
    rfl

lemma Arguments.getLast?_tokens (args : Arguments) : args.tokens.getLast? = some args.final := by
  fun_induction Arguments.final args with
  | case1 arg => exact arg.getLast?_tokens
  | case2 arg comma rest ih =>
    rw [Arguments.tokens, List.getLast?_append, List.getLast?_cons, ih]
    rfl

/-! ### No two tokens of a phrase run together -/

lemma Brackets.joins_final {t : Token} (ht : ∀ op, joins t.kind (.operator op) = false) (op : Operator)
    (subs : Brackets) : joins (subs.final t).kind (.operator op) = false := by
  fun_induction Brackets.final t subs with
  | case1 t => exact ht op
  | case2 t _ _ _ _ ih => exact ih fun _ => rfl
  | case3 t _ _ _ _ _ ih => exact ih fun _ => rfl
  | case4 t _ _ _ _ _ ih => exact ih fun _ => rfl

lemma Phrase.joins_final (op : Operator) : (p : Phrase) → joins p.final.kind (.operator op) = false
  | .number .. | .group .. | .loop .. | .call .. | .equation _ => rfl
  | .decision _ subs | .parameter _ subs => subs.joins_final (fun _ => rfl) op
  | .minus _ arg | .plus _ arg => arg.joins_final op
  | .binary _ _ _ rhs => rhs.joins_final op

lemma Phrase.joins_first (op : Operator) (p : Phrase) : joins (.operator op) p.first.kind = false := by
  fun_induction Phrase.first p with
  | case10 lhs op mark rhs ih => exact ih
  | _ => rfl

lemma apart_between {t u f l : Token} {ts us : List Token} (hf : ts.head? = some f) (hl : ts.getLast? = some l)
    (ht : joins t.kind f.kind = false) (hts : Apart ts) (hu : joins l.kind u.kind = false) (hus : Apart (u :: us)) :
    Apart (t :: (ts ++ u :: us)) := by
  refine List.isChain_cons.2 ⟨fun x hx => ?_, List.isChain_append.2 ⟨hts, hus, fun x hx y hy => ?_⟩⟩
  · rw [List.head?_append, hf] at hx
    cases hx
    exact ht
  · rw [hl] at hx
    cases hx
    cases hy
    exact hu

lemma joins_rparen (k : TokenKind) : joins k .rparen = false := by cases k <;> rfl

lemma joins_rbracket (k : TokenKind) : joins k .rbracket = false := by cases k <;> rfl

lemma joins_comma (k : TokenKind) : joins k .comma = false := by cases k <;> rfl

mutual

lemma Phrase.apart : (p : Phrase) → Apart p.tokens
  | .number .. | .equation _ => .singleton _
  | .group _ body _ =>
    apart_between body.head?_tokens body.getLast?_tokens rfl body.apart (joins_rparen _) (.singleton _)
  | .loop _ _ _ _ _ _ body _ =>
    .cons_cons rfl <| .cons_cons rfl <| .cons_cons rfl <| .cons_cons rfl <|
      apart_between body.head?_tokens body.getLast?_tokens rfl body.apart (joins_rparen _) (.singleton _)
  | .call _ _ _ args _ =>
    .cons_cons rfl <|
      apart_between args.head?_tokens args.getLast?_tokens rfl args.apart (joins_rparen _) (.singleton _)
  | .decision _ subs | .parameter _ subs => subs.apart _ rfl
  | .minus _ arg | .plus _ arg => by
    refine List.isChain_cons.2 ⟨fun t ht => ?_, arg.apart⟩
    rw [arg.head?_tokens] at ht
    cases ht
    exact arg.joins_first _
  | .binary lhs op mark rhs => by
    refine List.isChain_append.2 ⟨lhs.apart, List.isChain_cons.2 ⟨fun t ht => ?_, rhs.apart⟩, fun t ht u hu => ?_⟩
    · rw [rhs.head?_tokens] at ht
      cases ht
      exact rhs.joins_first op
    · rw [lhs.getLast?_tokens] at ht
      cases ht
      cases hu
      exact lhs.joins_final op

lemma Arguments.apart : (args : Arguments) → Apart args.tokens
  | .last arg => arg.apart
  | .more arg comma rest => by
    refine List.isChain_append.2 ⟨arg.apart, List.isChain_cons.2 ⟨fun _ _ => rfl, rest.apart⟩, fun t _ u hu => ?_⟩
    cases hu
    exact joins_comma _

lemma Brackets.apart : (subs : Brackets) → (t : Token) → joins t.kind .lbracket = false → Apart (t :: subs.tokens)
  | .done, _, _ => .singleton _
  | .dim _ _ _ rest, _, ht | .option _ _ _ _ rest, _, ht =>
    .cons_cons ht <| .cons_cons rfl <| .cons_cons rfl <| rest.apart _ rfl
  | .constant _ value _ _ rest, _, ht =>
    .cons_cons ht <|
      apart_between value.head?_tokens value.getLast?_tokens rfl value.apart (joins_rbracket _) (rest.apart _ rfl)

end

/-! ### Where elements end -/

end Grammar

namespace Element

def isPower : Element → Bool
  | .operator symbol _ unary _ _ => !unary && symbol == Operator.pow.symbol
  | _ => false

structure Ends (e : Element) (t : Token) : Prop where
  stop : e.span.stop = (t.past : Int) - 1
  power : e.kind = .operator → (e.isPower = true ↔ t.kind = .operator .pow)

end Element

namespace Grammar

open LandUse.Parser Token

variable {src : Bytes}

lemma last_eq {t : Token} (h : t.Stands src) : (t.last : Int) = (t.past : Int) - 1 := by
  have := h.lt_past
  unfold Token.past at this ⊢
  unfold Token.last
  omega

lemma pos_eq {t : Token} {b : UInt8} (h : t.Stands src) (hb : bracket? b = some t.kind) :
    (t.pos : Int) = (t.past : Int) - 1 := by
  rw [(h.byte hb).1]
  omega

lemma laid_binary {lhs rhs : Phrase} {op : Operator} {mark : Mark}
    (h : Laid src (Phrase.binary lhs op mark rhs).tokens) :
    Laid src lhs.tokens ∧ Between src lhs.final [mark.token (.operator op)] rhs.first (mark.token (.operator op))
      (mark.token (.operator op)) ∧ Laid src rhs.tokens := by
  obtain ⟨hlhs, hrest, hboth⟩ := Laid.append h
  obtain ⟨hmark, hrhs, hhead⟩ := hrest.cons
  exact ⟨hlhs, ⟨hboth _ lhs.getLast?_tokens _ rfl, ⟨by simpa using hmark, .singleton _⟩,
    hhead _ rhs.head?_tokens⟩, hrhs⟩

lemma laid_group {body : Phrase} {left right : Mark} (h : Laid src (Phrase.group left body right).tokens) :
    (left.token .lparen).Stands src ∧
      Between src (left.token .lparen) body.tokens (right.token .rparen) body.first body.final ∧
        (right.token .rparen).Stands src := by
  obtain ⟨hl, hb, hr⟩ := Laid.between h body.head?_tokens body.getLast?_tokens
  exact ⟨hl, hb, hr.cons.1⟩

lemma Phrase.first_lt (p : Phrase) (h : Laid src p.tokens) : p.first.pos < p.final.past := by
  have hrange := h.mem_range p.head?_tokens p.getLast?_tokens (List.mem_of_getLast? p.getLast?_tokens)
  exact hrange.1.trans_lt hrange.2.1

lemma Arguments.first_lt (args : Arguments) (h : Laid src args.tokens) : args.first.pos < args.final.past := by
  have hrange := h.mem_range args.head?_tokens args.getLast?_tokens (List.mem_of_getLast? args.getLast?_tokens)
  exact hrange.1.trans_lt hrange.2.1

lemma Brackets.stop_eq : (subs : Brackets) → {t : Token} → Laid src (t :: subs.tokens) →
    subs.stop ((t.past : Int) - 1) = ((subs.final t).past : Int) - 1
  | .done, _, _ => rfl
  | .dim _ _ _ rest, _, h | .option _ _ _ _ rest, _, h => by
    have hrest := h.cons.2.1.cons.2.1.cons.2.1
    have hright := pos_eq (b := 93) hrest.cons.1 rfl
    rw [Brackets.stop, Brackets.final, ← rest.stop_eq hrest, ← hright]
  | .constant _ value _ _ rest, _, h => by
    obtain ⟨-, -, hrest⟩ := h.cons.2.1.between value.head?_tokens value.getLast?_tokens
    have hright := pos_eq (b := 93) hrest.cons.1 rfl
    rw [Brackets.stop, Brackets.final, ← rest.stop_eq hrest, ← hright]

lemma Phrase.stop_span (d : Depth) : (p : Phrase) → Laid src p.tokens → (p.expr d).span.stop = (p.final.past : Int) - 1
  | .number _ _, h | .equation _, h => last_eq h.cons.1
  | .group _ _ _, h => pos_eq (b := 41) (laid_group h).2.2 rfl
  | .loop _ _ _ _ _ _ _ right, h | .call _ _ _ _ right, h => by
    have hright : (right.token .rparen).Stands src := h.stands _ (by simp [Phrase.tokens])
    exact pos_eq (b := 41) hright rfl
  | .decision name subs, h | .parameter name subs, h => by
    rw [Phrase.expr, Expr.span, last_eq (t := name.token .ident) h.cons.1, subs.stop_eq h]
    rfl
  | .minus _ arg, h | .plus _ arg, h => arg.stop_span d h.cons.2.1
  | .binary _ _ _ rhs, h => rhs.stop_span d (laid_binary h).2.2

lemma Phrase.start_span (d : Depth) : (p : Phrase) → p.PlusFree → (p.expr d).span.start = p.first.pos
  | .number .., _ | .group .., _ | .loop .., _ | .call .., _ | .decision .., _ | .parameter .., _ | .equation _, _
  | .minus .., _ => rfl
  | .binary lhs _ _ _, hp => lhs.start_span d hp.1

lemma Phrase.start_range (d : Depth) : (p : Phrase) → Laid src p.tokens →
    (p.first.pos : Int) ≤ (p.expr d).span.start ∧ (p.expr d).span.start < p.final.past
  | .plus sign arg, h => by
    obtain ⟨hsign, harg, hhead⟩ := Laid.cons h
    have hle := hsign.lt_past.le.trans (hhead _ arg.head?_tokens).le
    have hstart := arg.start_range d harg
    exact ⟨(Int.ofNat_le.2 hle).trans hstart.1, hstart.2⟩
  | .binary lhs op mark rhs, h => by
    have hfinal := h.past_le_of_mem (Phrase.getLast?_tokens _) lhs.final
      (by simp [Phrase.tokens, List.mem_of_getLast? lhs.getLast?_tokens])
    have hstart := lhs.start_range d (laid_binary h).1
    exact ⟨hstart.1, hstart.2.trans_le (Int.ofNat_le.2 hfinal)⟩
  | .number .., h | .group .., h | .loop .., h | .call .., h | .decision .., h | .parameter .., h | .equation _, h
  | .minus .., h => ⟨le_rfl, Int.ofNat_lt.2 (Phrase.first_lt _ h)⟩

lemma Phrase.span (d : Depth) (p : Phrase) (h : Laid src p.tokens) (hp : p.PlusFree) :
    (p.expr d).span = ⟨p.first.pos, (p.final.past : Int) - 1⟩ := by
  rw [← p.start_span d hp, ← p.stop_span d h]

structure Inside (ts : List Token) (f : Token) (e : Element) : Prop where
  start : (f.pos : Int) ≤ e.span.start
  ends : ∃ t ∈ ts, e.Ends t

lemma Inside.mono {ts us : List Token} {f g : Token} {e : Element} (h : Inside ts f e) (hts : ∀ t ∈ ts, t ∈ us)
    (hf : g.pos ≤ f.pos) : Inside us g e := by
  obtain ⟨t, ht, he⟩ := h.ends
  exact ⟨by have := h.start; omega, t, hts t ht, he⟩

lemma Inside.range {ts : List Token} {f l : Token} {e : Element} (h : Inside ts f e) (hts : Laid src ts)
    (hf : ts.head? = some f) (hl : ts.getLast? = some l) :
    (f.pos : Int) ≤ e.span.start ∧ (f.pos : Int) ≤ e.span.stop ∧ e.span.stop < l.past := by
  obtain ⟨t, ht, he⟩ := h.ends
  have := hts.mem_range hf hl ht
  have := he.stop
  exact ⟨h.start, by omega, by omega⟩

lemma mem_kept {x : Expr} {e : Element} (h : e ∈ keptElements (keptExpr x)) : e ∈ x.elements := by
  cases x with
  | number => cases h
  | _ => exact h

lemma isPower_operator (op : Operator) (code : Opcode) (span operand : Span) :
    (Element.operator op.symbol code false span operand).isPower = true ↔ TokenKind.operator op = .operator .pow := by
  have hsymbol : (op.symbol == Operator.pow.symbol) = decide (op = .pow) := by cases op <;> decide
  rw [Element.isPower, hsymbol, TokenKind.operator.injEq]
  simp

mutual

lemma Phrase.inside (d : Depth) : (p : Phrase) → Laid src p.tokens →
    ∀ e ∈ (p.expr d).elements, Inside p.tokens p.first e
  | .number x mark, h, e, he | .equation mark, h, e, he => by
    obtain rfl := List.mem_singleton.1 he
    exact ⟨le_rfl, _, List.mem_singleton_self _, last_eq h.cons.1, nofun⟩
  | .group left body right, h, e, he => by
    have hbody := (laid_group h).2.1
    have hle := hbody.left.le
    have hlt := (laid_group h).1.lt_past
    refine (body.inside d hbody.laid e he).mono (fun t ht => ?_) (hlt.le.trans hle)
    simp [Phrase.tokens, ht]
  | .loop keyword pos brace dim unbrace left body right, h, e, he => by
    have hrest := h.cons.2.1.cons.2.1.cons.2.1.cons.2.1
    obtain ⟨hleft, hbody, hright⟩ := hrest.between body.head?_tokens body.getLast?_tokens
    rcases List.mem_cons.1 he with rfl | he
    · exact ⟨le_rfl, right.token .rparen, by simp [Phrase.tokens], pos_eq (b := 41) hright.cons.1 rfl, nofun⟩
    · have hle := Laid.le_of_mem h (left.token .lparen) (by simp)
      refine (body.inside _ hbody.laid e he).mono (fun t ht => by simp [Phrase.tokens, ht]) ?_
      exact hle.trans (hleft.lt_past.le.trans hbody.left.le)
  | .call fn pos left args right, h, e, he => by
    obtain ⟨hleft, hbody, hright⟩ := h.cons.2.1.between args.head?_tokens args.getLast?_tokens
    rcases List.mem_cons.1 he with rfl | he
    · exact ⟨le_rfl, right.token .rparen, by simp [Phrase.tokens], pos_eq (b := 41) hright.cons.1 rfl, nofun⟩
    · have hle := Laid.le_of_mem h (left.token .lparen) (by simp)
      refine (args.inside _ hbody.laid e he).mono (fun t ht => by simp [Phrase.tokens, ht]) ?_
      exact hle.trans (hleft.lt_past.le.trans hbody.left.le)
  | .decision name subs, h, e, he | .parameter name subs, h, e, he => by
    rcases List.mem_cons.1 he with rfl | he
    · refine ⟨le_rfl, _, List.mem_of_getLast? (subs.getLast?_tokens (name.token .ident)), ?_, nofun⟩
      rw [Element.span, last_eq (t := name.token .ident) h.cons.1, subs.stop_eq h]
    · exact (subs.inside d h e he).mono (fun t ht => List.mem_cons_of_mem _ ht) le_rfl
  | .minus sign arg, h, e, he => by
    obtain ⟨hsign, harg, hhead⟩ := Laid.cons h
    rcases List.mem_cons.1 he with rfl | he
    · refine ⟨le_rfl, arg.final, List.mem_cons_of_mem _ (List.mem_of_getLast? arg.getLast?_tokens), ?_, fun _ => ?_⟩
      · rw [Element.span, arg.stop_span d harg]
      · have hfinal := arg.joins_final .eq
        exact ⟨nofun, fun hkind => absurd hfinal (by rw [hkind]; decide)⟩
    · have hle := (hhead _ arg.head?_tokens).le
      exact (arg.inside d harg e he).mono (fun t ht => List.mem_cons_of_mem _ ht) (hsign.lt_past.le.trans hle)
  | .plus sign arg, h, e, he => by
    obtain ⟨hsign, harg, hhead⟩ := Laid.cons h
    have hle := (hhead _ arg.head?_tokens).le
    exact (arg.inside d harg e he).mono (fun t ht => List.mem_cons_of_mem _ ht) (hsign.lt_past.le.trans hle)
  | .binary lhs op mark rhs, h, e, he => by
    obtain ⟨hlhs, hmark, hrhs⟩ := laid_binary h
    have hf : ∀ t ∈ (Phrase.binary lhs op mark rhs).tokens, lhs.first.pos ≤ t.pos := fun t ht =>
      (Laid.mem_range h (Phrase.head?_tokens _) (Phrase.getLast?_tokens _) ht).1
    rcases List.mem_cons.1 he with rfl | he
    · have hm : mark.token (.operator op) ∈ (Phrase.binary lhs op mark rhs).tokens := by simp [Phrase.tokens]
      refine ⟨Int.ofNat_le.2 (hf _ hm), _, hm, last_eq (h.stands _ hm), fun _ => ?_⟩
      exact isPower_operator op _ _ _
    · rcases List.mem_append.1 he with he | he
      · exact (lhs.inside d hlhs e he).mono (fun t ht => by simp [Phrase.tokens, ht]) le_rfl
      · refine (rhs.inside d hrhs e he).mono (fun t ht => by simp [Phrase.tokens, ht]) (hf _ ?_)
        simp [Phrase.tokens, List.mem_of_head? rhs.head?_tokens]

lemma Arguments.inside (d : Depth) : (args : Arguments) → Laid src args.tokens →
    ∀ e ∈ argumentElements (args.exprs d), Inside args.tokens args.first e
  | .last arg, h, e, he => by
    rw [Arguments.exprs, argumentElements, argumentElements, List.append_nil] at he
    exact arg.inside d h e he
  | .more arg comma rest, h, e, he => by
    obtain ⟨harg, hrest, -⟩ := Laid.append h
    rcases List.mem_append.1 he with he | he
    · exact (arg.inside d harg e he).mono (fun t ht => by simp [Arguments.tokens, ht]) le_rfl
    · refine (rest.inside d hrest.cons.2.1 e he).mono (fun t ht => by simp [Arguments.tokens, ht]) ?_
      refine (Laid.mem_range h (Arguments.head?_tokens _) (Arguments.getLast?_tokens _) ?_).1
      simp [Arguments.tokens, List.mem_of_head? rest.head?_tokens]

lemma Brackets.inside (d : Depth) : (subs : Brackets) → {t : Token} → Laid src (t :: subs.tokens) →
    ∀ e ∈ subscriptElements (subs.subscripts d), Inside subs.tokens t e
  | .done, _, _, _, he => by cases he
  | .dim _ _ right rest, t, h, e, he | .option _ _ right _ rest, t, h, e, he => by
    refine (rest.inside d h.cons.2.1.cons.2.1.cons.2.1 e he).mono (fun t ht => by simp [Brackets.tokens, ht]) ?_
    exact h.le_of_mem (right.token .rbracket) (by simp [Brackets.tokens])
  | .constant left value right _ rest, t, h, e, he => by
    obtain ⟨-, hvalue, hrest⟩ := h.cons.2.1.between value.head?_tokens value.getLast?_tokens
    rcases List.mem_append.1 he with he | he
    · refine (value.inside d hvalue.laid e (mem_kept he)).mono (fun t ht => by simp [Brackets.tokens, ht]) ?_
      exact h.le_of_mem _ (by simp [Brackets.tokens, List.mem_of_head? value.head?_tokens])
    · refine (rest.inside d hrest e he).mono (fun t ht => by simp [Brackets.tokens, ht]) ?_
      exact h.le_of_mem (right.token .rbracket) (by simp [Brackets.tokens])

end

lemma Phrase.range (d : Depth) {p : Phrase} (h : Laid src p.tokens) {e : Element}
    (he : e ∈ (p.expr d).elements) :
    (p.first.pos : Int) ≤ e.span.start ∧ (p.first.pos : Int) ≤ e.span.stop ∧ e.span.stop < p.final.past :=
  (p.inside d h e he).range h p.head?_tokens p.getLast?_tokens

lemma Arguments.range (d : Depth) {args : Arguments} (h : Laid src args.tokens) {e : Element}
    (he : e ∈ argumentElements (args.exprs d)) :
    (args.first.pos : Int) ≤ e.span.start ∧ (args.first.pos : Int) ≤ e.span.stop ∧ e.span.stop < args.final.past :=
  (args.inside d h e he).range h args.head?_tokens args.getLast?_tokens

lemma Brackets.range (d : Depth) {t : Token} : {subs : Brackets} → Laid src (t :: subs.tokens) →
    {e : Element} → e ∈ subscriptElements (subs.subscripts d) →
      (t.past : Int) < e.span.start ∧ (t.past : Int) < e.span.stop ∧ e.span.stop + 1 < (subs.final t).past
  | .done, _, _, he => by cases he
  | .dim left name right rest, h, e, he | .option left name right _ rest, h, e, he => by
    obtain ⟨-, htokens, hhead⟩ := h.cons
    have hleft := (hhead (left.token .lbracket) rfl).le
    have hright := Laid.le_of_mem htokens (right.token .rbracket) (by simp)
    have hrest := htokens.cons.2.1.cons.2.1
    have hlt := hrest.cons.1.lt_past
    have hrange := rest.range d hrest he
    rw [Brackets.final]
    omega
  | .constant left value right _ rest, h, e, he => by
    obtain ⟨-, htokens, hhead⟩ := h.cons
    have hleft := (hhead (left.token .lbracket) rfl).le
    obtain ⟨hstands, hvalue, hrest⟩ := htokens.between value.head?_tokens value.getLast?_tokens
    have hlt := hrest.cons.1.lt_past
    have hstart := hstands.lt_past.trans_le hvalue.left.le
    have hend := hvalue.right.le
    have hfinal := hrest.past_le_of_mem (rest.getLast?_tokens _) _ List.mem_cons_self
    have hfirst := (hvalue.laid.mem_range value.head?_tokens value.getLast?_tokens
      (List.mem_of_getLast? value.getLast?_tokens))
    rw [Brackets.final]
    rcases List.mem_append.1 he with he | he
    · have hrange := value.range d hvalue.laid (mem_kept he)
      omega
    · have hrange := rest.range d hrest he
      omega

lemma Phrase.sign_at_end (d : Depth) : (p : Phrase) → Laid src p.tokens → p.PlusFree → ∀ e ∈ (p.expr d).elements,
    e.isSign = true → e.span.stop = (p.final.past : Int) - 1 → (p.isMinus = true ∧ e.span.start = p.first.pos) ∨
      ∃ u ∈ p.tokens, (∃ op, u.kind = .operator op) ∧ ∃ f, Precedes src u f ∧ e.span.start = f.pos
  | .number x mark, _, _, e, he, hsign, _ | .equation mark, _, _, e, he, hsign, _ => by
    obtain rfl := List.mem_singleton.1 he
    cases hsign
  | .group left body right, h, hp, e, he, _, hstop => by
    obtain ⟨-, hbody, hright⟩ := laid_group h
    have hrange := body.range d hbody.laid he
    have hle := hbody.right.le
    have hpast := pos_eq (b := 41) hright rfl
    change e.span.stop = ((right.token .rparen).past : Int) - 1 at hstop
    omega
  | .loop keyword pos brace dim unbrace left body right, h, hp, e, he, hsign, hstop => by
    obtain ⟨-, hbody, hright⟩ :=
      h.cons.2.1.cons.2.1.cons.2.1.cons.2.1.between body.head?_tokens body.getLast?_tokens
    rcases List.mem_cons.1 he with rfl | he
    · cases hsign
    · have hrange := body.range _ hbody.laid he
      have hle := hbody.right.le
      have hpast := pos_eq (b := 41) hright.cons.1 rfl
      change e.span.stop = ((right.token .rparen).past : Int) - 1 at hstop
      omega
  | .call fn pos left args right, h, hp, e, he, hsign, hstop => by
    obtain ⟨-, hbody, hright⟩ := h.cons.2.1.between args.head?_tokens args.getLast?_tokens
    rcases List.mem_cons.1 he with rfl | he
    · cases hsign
    · have hrange := args.range _ hbody.laid he
      have hle := hbody.right.le
      have hpast := pos_eq (b := 41) hright.cons.1 rfl
      change e.span.stop = ((right.token .rparen).past : Int) - 1 at hstop
      omega
  | .decision name subs, h, hp, e, he, hsign, hstop | .parameter name subs, h, hp, e, he, hsign, hstop => by
    rcases List.mem_cons.1 he with rfl | he
    · cases hsign
    · have hrange := subs.range d h he
      change e.span.stop = ((subs.final (name.token .ident)).past : Int) - 1 at hstop
      omega
  | .minus sign arg, h, hp, e, he, hsign, hstop => by
    obtain ⟨-, harg, hhead⟩ := Laid.cons h
    rcases List.mem_cons.1 he with rfl | he
    · exact .inl ⟨rfl, rfl⟩
    · right
      rcases arg.sign_at_end d harg hp e he hsign hstop with ⟨-, hstart⟩ | ⟨u, hu, hop⟩
      · exact ⟨_, List.mem_cons_self, ⟨_, rfl⟩, arg.first, hhead _ arg.head?_tokens, hstart⟩
      · exact ⟨u, List.mem_cons_of_mem _ hu, hop⟩
  | .binary lhs op mark rhs, h, hp, e, he, hsign, hstop => by
    obtain ⟨hlhs, hmark, hrhs⟩ := laid_binary h
    rcases List.mem_cons.1 he with rfl | he
    · cases hsign
    rcases List.mem_append.1 he with he | he
    · have hrange := lhs.range d hlhs he
      have hle := hmark.left.le
      have hlt := (hmark.laid.stands _ (List.mem_singleton_self _)).lt_past
      have hle' := hmark.right.le
      have := (hrhs.mem_range rhs.head?_tokens rhs.getLast?_tokens (List.mem_of_getLast? rhs.getLast?_tokens))
      change e.span.stop = (rhs.final.past : Int) - 1 at hstop
      omega
    · right
      rcases rhs.sign_at_end d hrhs hp.2 e he hsign hstop with ⟨-, hstart⟩ | ⟨u, hu, hop⟩
      · exact ⟨_, by simp [Phrase.tokens], ⟨op, rfl⟩, rhs.first, hmark.right, hstart⟩
      · exact ⟨u, by simp [Phrase.tokens, hu], hop⟩

end Grammar

end LandUse
