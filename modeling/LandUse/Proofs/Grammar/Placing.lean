import LandUse.Proofs.Grammar.Lexemes
import LandUse.Proofs.Grammar.Phrase

namespace LandUse.Grammar

open LandUse.Parser

variable {symbols : Symbols} {self : String} {src src' : Text.Bytes}

def Mark.unplaced (m : Mark) : Mark := { m with pos := 0 }

mutual

def Phrase.unplaced : Phrase → Phrase
  | .number x mark => .number x mark.unplaced
  | .group left body right => .group left.unplaced body.unplaced right.unplaced
  | .loop keyword _ brace dim unbrace left body right =>
    .loop keyword 0 brace.unplaced dim.unplaced unbrace.unplaced left.unplaced body.unplaced right.unplaced
  | .call fn _ left args right => .call fn 0 left.unplaced args.unplaced right.unplaced
  | .decision name subs => .decision name.unplaced subs.unplaced
  | .parameter name subs => .parameter name.unplaced subs.unplaced
  | .equation name => .equation name.unplaced
  | .minus sign arg => .minus sign.unplaced arg.unplaced
  | .plus sign arg => .plus sign.unplaced arg.unplaced
  | .binary lhs op mark rhs => .binary lhs.unplaced op mark.unplaced rhs.unplaced

def Arguments.unplaced : Arguments → Arguments
  | .last arg => .last arg.unplaced
  | .more arg comma rest => .more arg.unplaced comma.unplaced rest.unplaced

def Brackets.unplaced : Brackets → Brackets
  | .done => .done
  | .dim left name right rest => .dim left.unplaced name.unplaced right.unplaced rest.unplaced
  | .option left name right index rest => .option left.unplaced name.unplaced right.unplaced index rest.unplaced
  | .constant left value right index rest =>
    .constant left.unplaced value.unplaced right.unplaced index rest.unplaced

end

mutual

lemma Phrase.tokens_unplaced : (p : Phrase) → p.unplaced.tokens = p.tokens.map Token.unplaced
  | .number .. | .equation .. => rfl
  | .group _ body _ | .loop _ _ _ _ _ _ body _ => by
    simp only [Phrase.unplaced, Phrase.tokens, List.map_cons, List.map_append, body.tokens_unplaced]
    rfl
  | .call _ _ _ args _ => by
    simp only [Phrase.unplaced, Phrase.tokens, List.map_cons, List.map_append, args.tokens_unplaced]
    rfl
  | .decision _ subs | .parameter _ subs => by
    simp only [Phrase.unplaced, Phrase.tokens, List.map_cons, subs.tokens_unplaced]
    rfl
  | .minus _ arg | .plus _ arg => by
    simp only [Phrase.unplaced, Phrase.tokens, List.map_cons, arg.tokens_unplaced]
    rfl
  | .binary lhs _ _ rhs => by
    simp only [Phrase.unplaced, Phrase.tokens, List.map_cons, List.map_append, lhs.tokens_unplaced, rhs.tokens_unplaced]
    rfl

lemma Arguments.tokens_unplaced : (args : Arguments) → args.unplaced.tokens = args.tokens.map Token.unplaced
  | .last arg => arg.tokens_unplaced
  | .more arg _ rest => by
    simp only [Arguments.unplaced, Arguments.tokens, List.map_cons, List.map_append, arg.tokens_unplaced,
      rest.tokens_unplaced]
    rfl

lemma Brackets.tokens_unplaced : (subs : Brackets) → subs.unplaced.tokens = subs.tokens.map Token.unplaced
  | .done => rfl
  | .dim _ _ _ rest | .option _ _ _ _ rest => by
    simp only [Brackets.unplaced, Brackets.tokens, List.map_cons, rest.tokens_unplaced]
    rfl
  | .constant _ value _ _ rest => by
    simp only [Brackets.unplaced, Brackets.tokens, List.map_cons, List.map_append, value.tokens_unplaced,
      rest.tokens_unplaced]
    rfl

end

lemma Mark.exists_placed {t : Token} {m : Mark} {k : TokenKind} (h : t.unplaced = m.unplaced.token k) :
    ∃ m' : Mark, m'.token k = t ∧ m'.unplaced = m.unplaced := by
  obtain ⟨kind, lexeme, pos⟩ := t
  obtain ⟨rfl, rfl, -⟩ := Token.mk.inj h
  exact ⟨⟨m.lexeme, pos⟩, rfl, rfl⟩

mutual

theorem Phrase.exists_placed : (p : Phrase) → (ts : List Token) → ts.map Token.unplaced = p.unplaced.tokens →
    ∃ q : Phrase, q.tokens = ts ∧ q.unplaced = p.unplaced
  | .number x mark, ts, h => by
    simp only [Phrase.unplaced, Phrase.tokens, List.map_eq_cons_iff, List.map_eq_nil_iff] at h ⊢
    obtain ⟨t, _, rfl, ht, rfl⟩ := h
    obtain ⟨m, rfl, hm⟩ := Mark.exists_placed ht
    exact ⟨.number x m, rfl, by rw [Phrase.unplaced, hm]⟩
  | .group left body right, ts, h => by
    simp only [Phrase.unplaced, Phrase.tokens, List.map_eq_cons_iff, List.map_eq_append_iff, List.map_eq_nil_iff] at h
    obtain ⟨t, _, rfl, ht, bs, _, rfl, hb, u, _, rfl, hu, rfl⟩ := h
    obtain ⟨l, rfl, hl⟩ := Mark.exists_placed ht
    obtain ⟨r, rfl, hr⟩ := Mark.exists_placed hu
    obtain ⟨q, rfl, hq⟩ := body.exists_placed _ hb
    exact ⟨.group l q r, rfl, by simp only [Phrase.unplaced, hl, hr, hq]⟩
  | .loop keyword pos brace dim unbrace left body right, ts, h => by
    simp only [Phrase.unplaced, Phrase.tokens, List.map_eq_cons_iff, List.map_eq_append_iff, List.map_eq_nil_iff] at h
    obtain ⟨t, _, rfl, ht, t1, _, rfl, h1, t2, _, rfl, h2, t3, _, rfl, h3, t4, _, rfl, h4, bs, _, rfl, hb,
      u, _, rfl, hu, rfl⟩ := h
    obtain ⟨m1, rfl, e1⟩ := Mark.exists_placed h1
    obtain ⟨m2, rfl, e2⟩ := Mark.exists_placed h2
    obtain ⟨m3, rfl, e3⟩ := Mark.exists_placed h3
    obtain ⟨m4, rfl, e4⟩ := Mark.exists_placed h4
    obtain ⟨r, rfl, hr⟩ := Mark.exists_placed hu
    obtain ⟨q, rfl, hq⟩ := body.exists_placed _ hb
    obtain ⟨kind, lexeme, place⟩ := t
    obtain ⟨rfl, rfl, -⟩ := Token.mk.inj ht
    exact ⟨.loop keyword place m1 m2 m3 m4 q r, rfl, by simp only [Phrase.unplaced, e1, e2, e3, e4, hr, hq]⟩
  | .call fn pos left args right, ts, h => by
    simp only [Phrase.unplaced, Phrase.tokens, List.map_eq_cons_iff, List.map_eq_append_iff, List.map_eq_nil_iff] at h
    obtain ⟨t, _, rfl, ht, t1, _, rfl, h1, bs, _, rfl, hb, u, _, rfl, hu, rfl⟩ := h
    obtain ⟨l, rfl, hl⟩ := Mark.exists_placed h1
    obtain ⟨r, rfl, hr⟩ := Mark.exists_placed hu
    obtain ⟨as, rfl, ha⟩ := args.exists_placed _ hb
    obtain ⟨kind, lexeme, place⟩ := t
    obtain ⟨rfl, rfl, -⟩ := Token.mk.inj ht
    exact ⟨.call fn place l as r, rfl, by simp only [Phrase.unplaced, hl, hr, ha]⟩
  | .decision name subs, ts, h => by
    simp only [Phrase.unplaced, Phrase.tokens, List.map_eq_cons_iff] at h
    obtain ⟨t, _, rfl, ht, hb⟩ := h
    obtain ⟨m, rfl, hm⟩ := Mark.exists_placed ht
    obtain ⟨bs, rfl, hs⟩ := subs.exists_placed _ hb
    exact ⟨.decision m bs, rfl, by simp only [Phrase.unplaced, hm, hs]⟩
  | .parameter name subs, ts, h => by
    simp only [Phrase.unplaced, Phrase.tokens, List.map_eq_cons_iff] at h
    obtain ⟨t, _, rfl, ht, hb⟩ := h
    obtain ⟨m, rfl, hm⟩ := Mark.exists_placed ht
    obtain ⟨bs, rfl, hs⟩ := subs.exists_placed _ hb
    exact ⟨.parameter m bs, rfl, by simp only [Phrase.unplaced, hm, hs]⟩
  | .equation name, ts, h => by
    simp only [Phrase.unplaced, Phrase.tokens, List.map_eq_cons_iff, List.map_eq_nil_iff] at h
    obtain ⟨t, _, rfl, ht, rfl⟩ := h
    obtain ⟨m, rfl, hm⟩ := Mark.exists_placed ht
    exact ⟨.equation m, rfl, by rw [Phrase.unplaced, hm, Phrase.unplaced]⟩
  | .minus sign arg, ts, h => by
    simp only [Phrase.unplaced, Phrase.tokens, List.map_eq_cons_iff] at h
    obtain ⟨t, _, rfl, ht, hb⟩ := h
    obtain ⟨m, rfl, hm⟩ := Mark.exists_placed ht
    obtain ⟨q, rfl, hq⟩ := arg.exists_placed _ hb
    exact ⟨.minus m q, rfl, by simp only [Phrase.unplaced, hm, hq]⟩
  | .plus sign arg, ts, h => by
    simp only [Phrase.unplaced, Phrase.tokens, List.map_eq_cons_iff] at h
    obtain ⟨t, _, rfl, ht, hb⟩ := h
    obtain ⟨m, rfl, hm⟩ := Mark.exists_placed ht
    obtain ⟨q, rfl, hq⟩ := arg.exists_placed _ hb
    exact ⟨.plus m q, rfl, by simp only [Phrase.unplaced, hm, hq]⟩
  | .binary lhs op mark rhs, ts, h => by
    simp only [Phrase.unplaced, Phrase.tokens, List.map_eq_append_iff, List.map_eq_cons_iff] at h
    obtain ⟨as, _, rfl, ha, t, bs, rfl, ht, hb⟩ := h
    obtain ⟨p, rfl, hp⟩ := lhs.exists_placed _ ha
    obtain ⟨m, rfl, hm⟩ := Mark.exists_placed ht
    obtain ⟨q, rfl, hq⟩ := rhs.exists_placed _ hb
    exact ⟨.binary p op m q, rfl, by simp only [Phrase.unplaced, hp, hm, hq]⟩

theorem Arguments.exists_placed : (args : Arguments) → (ts : List Token) →
    ts.map Token.unplaced = args.unplaced.tokens → ∃ as : Arguments, as.tokens = ts ∧ as.unplaced = args.unplaced
  | .last arg, ts, h => by
    obtain ⟨q, rfl, hq⟩ := arg.exists_placed _ h
    exact ⟨.last q, rfl, by simp only [Arguments.unplaced, hq]⟩
  | .more arg comma rest, ts, h => by
    simp only [Arguments.unplaced, Arguments.tokens, List.map_eq_append_iff, List.map_eq_cons_iff] at h
    obtain ⟨as, _, rfl, ha, t, bs, rfl, ht, hb⟩ := h
    obtain ⟨p, rfl, hp⟩ := arg.exists_placed _ ha
    obtain ⟨m, rfl, hm⟩ := Mark.exists_placed ht
    obtain ⟨as, rfl, hq⟩ := rest.exists_placed _ hb
    exact ⟨.more p m as, rfl, by simp only [Arguments.unplaced, hp, hm, hq]⟩

theorem Brackets.exists_placed : (subs : Brackets) → (ts : List Token) →
    ts.map Token.unplaced = subs.unplaced.tokens → ∃ bs : Brackets, bs.tokens = ts ∧ bs.unplaced = subs.unplaced
  | .done, ts, h => by
    obtain rfl := List.map_eq_nil_iff.1 h
    exact ⟨.done, rfl, rfl⟩
  | .dim left name right rest, ts, h => by
    simp only [Brackets.unplaced, Brackets.tokens, List.map_eq_cons_iff] at h
    obtain ⟨t1, _, rfl, h1, t2, _, rfl, h2, t3, _, rfl, h3, hb⟩ := h
    obtain ⟨m1, rfl, e1⟩ := Mark.exists_placed h1
    obtain ⟨m2, rfl, e2⟩ := Mark.exists_placed h2
    obtain ⟨m3, rfl, e3⟩ := Mark.exists_placed h3
    obtain ⟨bs, rfl, hs⟩ := rest.exists_placed _ hb
    exact ⟨.dim m1 m2 m3 bs, rfl, by simp only [Brackets.unplaced, e1, e2, e3, hs]⟩
  | .option left name right index rest, ts, h => by
    simp only [Brackets.unplaced, Brackets.tokens, List.map_eq_cons_iff] at h
    obtain ⟨t1, _, rfl, h1, t2, _, rfl, h2, t3, _, rfl, h3, hb⟩ := h
    obtain ⟨m1, rfl, e1⟩ := Mark.exists_placed h1
    obtain ⟨m2, rfl, e2⟩ := Mark.exists_placed h2
    obtain ⟨m3, rfl, e3⟩ := Mark.exists_placed h3
    obtain ⟨bs, rfl, hs⟩ := rest.exists_placed _ hb
    exact ⟨.option m1 m2 m3 index bs, rfl, by simp only [Brackets.unplaced, e1, e2, e3, hs]⟩
  | .constant left value right index rest, ts, h => by
    simp only [Brackets.unplaced, Brackets.tokens, List.map_eq_append_iff, List.map_eq_cons_iff] at h
    obtain ⟨t1, _, rfl, h1, as, _, rfl, ha, t3, _, rfl, h3, hb⟩ := h
    obtain ⟨m1, rfl, e1⟩ := Mark.exists_placed h1
    obtain ⟨q, rfl, hq⟩ := value.exists_placed _ ha
    obtain ⟨m3, rfl, e3⟩ := Mark.exists_placed h3
    obtain ⟨bs, rfl, hs⟩ := rest.exists_placed _ hb
    exact ⟨.constant m1 q m3 index bs, rfl, by simp only [Brackets.unplaced, e1, hq, e3, hs]⟩

end

lemma Mark.lexeme_eq {m m' : Mark} (h : m.unplaced = m'.unplaced) : m.lexeme = m'.lexeme := by
  show m.unplaced.lexeme = m'.unplaced.lexeme
  rw [h]

lemma Arguments.phrases_unplaced : (args : Arguments) → args.unplaced.phrases = args.phrases.map Phrase.unplaced
  | .last _ => rfl
  | .more _ _ rest => by simp only [unplaced, phrases, List.map_cons, rest.phrases_unplaced]

lemma Brackets.phrases_unplaced : (subs : Brackets) → subs.unplaced.phrases = subs.phrases.map Phrase.unplaced
  | .done => rfl
  | .dim _ _ _ rest | .option _ _ _ _ rest => by simp only [unplaced, phrases, rest.phrases_unplaced]
  | .constant _ _ _ _ rest => by simp only [unplaced, phrases, List.map_cons, rest.phrases_unplaced]

lemma Brackets.length_unplaced : (subs : Brackets) → subs.unplaced.length = subs.length
  | .done => rfl
  | .dim _ _ _ rest | .option _ _ _ _ rest | .constant _ _ _ _ rest => by
    simp only [unplaced, length, rest.length_unplaced]

lemma Denotes.placed {p q : Phrase} {x : Float} (h : Denotes p x) (hq : q.unplaced = p.unplaced) : Denotes q x := by
  induction h generalizing q with
  | number x mark =>
    cases q <;> simp only [Phrase.unplaced, reduceCtorEq, Phrase.number.injEq] at hq
    exact hq.1 ▸ .number _ _
  | group left right _ ih =>
    cases q <;> simp only [Phrase.unplaced, reduceCtorEq, Phrase.group.injEq] at hq
    exact .group _ _ (ih hq.2.1)
  | plus sign _ ih =>
    cases q <;> simp only [Phrase.unplaced, reduceCtorEq, Phrase.plus.injEq] at hq
    exact .plus _ (ih hq.2)
  | minus sign _ hy ih =>
    cases q <;> simp only [Phrase.unplaced, reduceCtorEq, Phrase.minus.injEq] at hq
    exact .minus _ (ih hq.2) hy
  | binary mark _ _ hz ihp ihq =>
    cases q <;> simp only [Phrase.unplaced, reduceCtorEq, Phrase.binary.injEq] at hq
    obtain ⟨h1, rfl, -, h2⟩ := hq
    exact .binary _ (ihp h1) (ihq h2) hz

lemma Brackets.Resolved.placed : {subs bs : Brackets} → subs.Resolved ⟨symbols, self, src⟩ →
    bs.unplaced = subs.unplaced → bs.Resolved ⟨symbols, self, src'⟩
  | .done, bs, _, hb => by
    cases bs <;> simp only [unplaced, reduceCtorEq] at hb
    trivial
  | .dim left name right rest, bs, ⟨hd, hr⟩, hb => by
    cases bs <;> simp only [unplaced, reduceCtorEq, dim.injEq] at hb
    refine ⟨?_, hr.placed hb.2.2.2⟩
    rw [Mark.lexeme_eq hb.2.1]
    exact hd
  | .option left name right index rest, bs, ⟨hd, hi, hr⟩, hb => by
    cases bs <;> simp only [unplaced, reduceCtorEq, option.injEq] at hb
    refine ⟨?_, ?_, hr.placed hb.2.2.2.2⟩
    · rw [Mark.lexeme_eq hb.2.1]
      exact hd
    · rw [Mark.lexeme_eq hb.2.1, hb.2.2.2.1]
      exact hi
  | .constant left value right index rest, bs, ⟨⟨x, hx, hi⟩, hr⟩, hb => by
    cases bs <;> simp only [unplaced, reduceCtorEq, constant.injEq] at hb
    exact ⟨⟨x, hx.placed hb.2.1, hb.2.2.2.1 ▸ hi⟩, hr.placed hb.2.2.2.2⟩

lemma Derives.placed {l : Level} {p q : Phrase} (h : Derives ⟨symbols, self, src⟩ l p)
    (hq : q.unplaced = p.unplaced) : Derives ⟨symbols, self, src'⟩ l q := by
  have hall : ∀ {ps qs : List Phrase}, qs.map Phrase.unplaced = ps.map Phrase.unplaced →
      (∀ p ∈ ps, ∀ q : Phrase, q.unplaced = p.unplaced → Derives ⟨symbols, self, src'⟩ .rel q) →
      ∀ q ∈ qs, Derives ⟨symbols, self, src'⟩ .rel q := by
    intro ps qs hmap hp q hq
    obtain ⟨p, hp', he⟩ := List.mem_map.1 (hmap ▸ List.mem_map_of_mem hq)
    exact hp p hp' q he.symm
  induction h generalizing q with
  | tighter hl _ ih => exact .tighter hl (ih hq)
  | operation mark hop hl _ _ ihp ihq =>
    cases q <;> simp only [Phrase.unplaced, reduceCtorEq, Phrase.binary.injEq] at hq
    obtain ⟨h1, rfl, -, h2⟩ := hq
    exact .operation _ hop hl (ihp h1) (ihq h2)
  | power mark _ _ ihp ihq =>
    cases q <;> simp only [Phrase.unplaced, reduceCtorEq, Phrase.binary.injEq] at hq
    obtain ⟨h1, rfl, -, h2⟩ := hq
    exact .power _ (ihp h1) (ihq h2)
  | minus sign _ ih =>
    cases q <;> simp only [Phrase.unplaced, reduceCtorEq, Phrase.minus.injEq] at hq
    exact .minus _ (ih hq.2)
  | plus sign _ ih =>
    cases q <;> simp only [Phrase.unplaced, reduceCtorEq, Phrase.plus.injEq] at hq
    exact .plus _ (ih hq.2)
  | number x mark =>
    cases q <;> simp only [Phrase.unplaced, reduceCtorEq, Phrase.number.injEq] at hq
    exact .number _ _
  | group left right _ ih =>
    cases q <;> simp only [Phrase.unplaced, reduceCtorEq, Phrase.group.injEq] at hq
    exact .group _ _ (ih hq.2.1)
  | loop keyword pos brace unbrace left right hd _ ih =>
    cases q <;> simp only [Phrase.unplaced, reduceCtorEq, Phrase.loop.injEq] at hq
    refine .loop _ _ _ _ _ _ ?_ (ih hq.2.2.2.2.2.2.1)
    rw [Mark.lexeme_eq hq.2.2.2.1]
    exact hd
  | @call fn args pos left right _ ha ih =>
    cases q <;> simp only [Phrase.unplaced, reduceCtorEq, Phrase.call.injEq] at hq
    obtain ⟨rfl, -, -, he, -⟩ := hq
    have hmap := congrArg Arguments.phrases he
    rw [Arguments.phrases_unplaced, Arguments.phrases_unplaced] at hmap
    refine .call _ _ _ (hall hmap fun p hp q => ih p hp) ?_
    rw [← List.length_map (f := Phrase.unplaced), hmap, List.length_map]
    exact ha
  | @decision name subs hn _ hr ih =>
    cases q <;> simp only [Phrase.unplaced, reduceCtorEq, Phrase.decision.injEq] at hq
    have hmap := congrArg Brackets.phrases hq.2
    rw [Brackets.phrases_unplaced, Brackets.phrases_unplaced] at hmap
    refine .decision ?_ (hall hmap fun p hp q => ih p hp) (hr.placed hq.2)
    rw [Mark.lexeme_eq hq.1, hn, ← subs.length_unplaced, ← hq.2, Brackets.length_unplaced]
  | @parameter name subs hn hpar _ hr ih =>
    cases q <;> simp only [Phrase.unplaced, reduceCtorEq, Phrase.parameter.injEq] at hq
    have hmap := congrArg Brackets.phrases hq.2
    rw [Brackets.phrases_unplaced, Brackets.phrases_unplaced] at hmap
    refine .parameter ?_ ?_ (hall hmap fun p hp q => ih p hp) (hr.placed hq.2)
    · rw [Mark.lexeme_eq hq.1, hn]
    · rw [Mark.lexeme_eq hq.1, hpar]
  | @equation name hn hpar heq hne =>
    cases q <;> simp only [Phrase.unplaced, reduceCtorEq, Phrase.equation.injEq] at hq
    have hm := Mark.lexeme_eq hq
    exact .equation (by rw [hm, hn]) (by rw [hm, hpar]) (by rw [hm, heq]) (by rwa [hm])

end LandUse.Grammar
