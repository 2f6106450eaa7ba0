import LandUse.Proofs.Reversal.Phrases

namespace LandUse

open Text Alphabet Grammar LandUse.Parser Token

variable {symbols : Symbols} {self : String} {src : Bytes} {ts : List Token} {p q : Phrase}

/-! ### One reversal -/

def Grammar.Phrase.reversal (p : Phrase) (self : String) (src : Bytes) : Reversal :=
  ⟨src, .ofExpr self true (p.expr ⟨0, 0⟩)⟩

lemma sound_reversal (h : Laid src p.tokens) : (p.reversal self src).Sound := by
  intro pos e he
  rw [Phrase.reversal, endingAt_ofExpr, List.mem_filter, beq_iff_eq] at he
  obtain ⟨t, ht, hends⟩ := (p.inside _ h e he.1).ends
  exact ⟨he.2, t, h.stands t ht, hends⟩

lemma own_reversal (h : Laid src p.tokens) :
    (p.reversal self src).Own 0 p.first.pos p.final.past (p.expr ⟨0, 0⟩).elements := by
  have hstart : ∀ e ∈ (p.expr ⟨0, 0⟩).elements, ((0 : Nat) : Int) ≤ e.span.start := by
    intro e he
    have := (p.range _ h he).1
    omega
  refine ⟨hstart, fun k _ _ => endingAt_ofExpr _ _ _, fun k _ _ => ?_⟩
  rw [Phrase.reversal, endingAt_ofExpr]
  exact List.filter_eq_self.2 fun e he => by simpa using hstart e (List.mem_of_mem_filter he)

lemma parseBytes_of_derivation (hscan : Token.scan src = .ok ts) (hp : Derivation ⟨symbols, self, src⟩ ts p) :
    parseBytes symbols self src = .ok (p.expr ⟨0, 0⟩) :=
  (parseBytes_eq_ok (c := ⟨symbols, self, src⟩)).2 ⟨ts, hscan, equation_eq_ok.2 ⟨p, hp, rfl⟩⟩

lemma exists_reversed (hscan : Token.scan src = .ok ts) (hp : Derivation ⟨symbols, self, src⟩ ts p)
    (hfree : p.PlusFree) :
    ∃ out, reverseBytes symbols self src = .ok out ∧ Spread out ((p.backward false false).map unplaced) := by
  obtain ⟨hlaid, hfirst, hlast, -⟩ := (cuts_of_scan hscan).laid [] rfl rfl
  rw [← hp.tokens, p.head?_tokens] at hfirst
  rw [← hp.tokens, p.getLast?_tokens] at hlast
  rw [← hp.tokens] at hlaid
  have hend := (hlaid.stands _ (List.mem_of_getLast? p.getLast?_tokens)).past_le
  have hsound : (p.reversal self src).Sound := sound_reversal hlaid
  obtain ⟨out, hout, hspread⟩ := (Reversal.turnsPhrase_and hsound ⟨0, 0⟩ p hlaid hfree).1.yields hsound hlaid
    (own_reversal hlaid) hfirst (Nat.zero_le _) hlast hend le_rfl
  have hrange : reverseRange src (.ofExpr self true (p.expr ⟨0, 0⟩)) 0 (src.length - 1) = .ok out :=
    hout (p.reversal self src).fuel (by
      change 3 * (src.length - 0) + 2 ≤ 8 * (src.length + 2)
      omega)
  refine ⟨out, ?_, hspread⟩
  rw [reverseBytes, parseBytes_of_derivation hscan hp]
  simp only [hrange]

lemma apart_unplaced (h : Apart ts) : Apart (ts.map unplaced) := by
  rw [Apart, List.isChain_map]
  exact h

lemma exists_derivation_of_spread {out : Bytes} (hq : Derives ⟨symbols, self, src⟩ .rel q)
    (h : Spread out (q.tokens.map unplaced)) :
    ∃ ts q', Token.scan out = .ok ts ∧ Derivation ⟨symbols, self, out⟩ ts q' ∧ q'.unplaced = q.unplaced :=
  exists_derivation hq (h.lexes (apart_unplaced q.apart))

structure ReversedTwice (symbols : Symbols) (name : String) (src : Bytes) (p : Phrase) (once twice : Bytes)
    (us : List Token) (e e' : Expr) : Prop where
  first : reverseBytes symbols name src = .ok once
  tokens : Token.scan once = .ok us
  backward : us.map unplaced = (p.backward false false).map unplaced
  reads : parseBytes symbols name once = .ok e
  second : reverseBytes symbols name once = .ok twice
  trimmed : Spread twice ((p.trimmed false false).tokens.map unplaced)
  again : parseBytes symbols name twice = .ok e'
  text : e'.text = (p.expr ⟨0, 0⟩).text

theorem exists_reversedTwice (hscan : Token.scan src = .ok ts) (hp : Derivation ⟨symbols, self, src⟩ ts p)
    (hfree : p.PlusFree) (hindex : p.EachIndex (Phrase.TurnsIndex ⟨symbols, self, src⟩)) :
    ∃ once twice us e e', ReversedTwice symbols self src p once twice us e e' := by
  obtain ⟨q, hq, ht⟩ := hp.derives.exists_turned hfree hindex (Level.admits_false _)
  obtain ⟨once, hfirst, hspread⟩ := exists_reversed hscan hp hfree
  rw [← ht.tokens] at hspread
  obtain ⟨us, q', hscan', hq', hu⟩ := exists_derivation_of_spread hq hspread
  have hfree' : q'.PlusFree := q'.plusFree_unplaced.1 (hu ▸ q.plusFree_unplaced.2 ht.plusFree)
  obtain ⟨twice, hsecond, hspread'⟩ := exists_reversed hscan' hq' hfree'
  have htrimmed : Derives ⟨symbols, self, src⟩ .rel (p.trimmed false false) := hp.derives.trimmed (Level.admits_false _)
  rw [← Phrase.backward_unplaced, hu, Phrase.backward_unplaced, ht.back] at hspread'
  obtain ⟨us', p', hscan'', hp', hu'⟩ := exists_derivation_of_spread htrimmed hspread'
  refine ⟨once, twice, us, _, _, hfirst, hscan', ?_, parseBytes_of_derivation hscan' hq', hsecond, hspread',
    parseBytes_of_derivation hscan'' hp', ?_⟩
  · rw [← hq'.tokens, ← Phrase.tokens_unplaced, hu, Phrase.tokens_unplaced, ht.tokens]
  · exact ((alike_of_unplaced hu' ⟨0, 0⟩).trans (p.alike_trimmed ⟨0, 0⟩ false false)).text

/-! ### What gets lost -/

namespace Grammar

mutual

def Phrase.dropped (before after : Bool) : Phrase → Nat
  | .number .. | .equation _ => 0
  | .group _ body _ => body.dropped false false + if body.isMinus && before && !after then 1 else 0
  | .loop _ _ _ _ _ _ body _ | .minus _ body => body.dropped false false
  | .call _ _ _ args _ => args.dropped
  | .decision _ subs | .parameter _ subs => subs.dropped
  | .plus _ arg => arg.dropped false after
  | .binary lhs op _ rhs => lhs.dropped before (op = .pow) + rhs.dropped (op = .pow) after

def Arguments.dropped : Arguments → Nat
  | .last arg => arg.dropped false false
  | .more arg _ rest => arg.dropped false false + rest.dropped

def Brackets.dropped : Brackets → Nat
  | .done => 0
  | .dim _ _ _ rest | .option _ _ _ _ rest => rest.dropped
  | .constant _ value _ _ rest => value.dropped false false + rest.dropped

end

def width (ts : List Token) : Nat := (ts.map (·.lexeme.length)).sum

@[simp] lemma width_nil : width [] = 0 := rfl

@[simp] lemma width_cons (t : Token) (ts : List Token) : width (t :: ts) = t.lexeme.length + width ts := rfl

@[simp] lemma width_append (ts us : List Token) : width (ts ++ us) = width ts + width us := by
  simp [width]

lemma Mark.lexeme_bracket {m : Mark} {k : TokenKind} {b : UInt8} (h : (m.token k).Spelled) (hb : bracket? b = some k) :
    m.lexeme = ascii [b] := by
  obtain ⟨lex, hlex, hlexeme⟩ := h
  rw [← hlex.eq_byte hb]
  exact hlexeme

lemma group_lexemes {left right : Mark} {body : Phrase} (h : ∀ t ∈ (Phrase.group left body right).tokens, t.Spelled) :
    left.lexeme = "(" ∧ right.lexeme = ")" :=
  ⟨Mark.lexeme_bracket (b := 40) (h (left.token .lparen) (by simp [Phrase.tokens])) rfl,
    Mark.lexeme_bracket (b := 41) (h (right.token .rparen) (by simp [Phrase.tokens])) rfl⟩

mutual

lemma Phrase.width_trimmed : (p : Phrase) → (before after : Bool) → (∀ t ∈ p.tokens, t.Spelled) →
    width (p.trimmed before after).tokens + 2 * p.dropped before after = width p.tokens
  | .number .., _, _, _ | .equation _, _, _, _ => rfl
  | .group left body right, before, after, h => by
    have hbody := body.width_trimmed false false fun t ht => h t (by simp [Phrase.tokens, ht])
    obtain ⟨hleft, hright⟩ := group_lexemes h
    have hone : "(".length = 1 ∧ ")".length = 1 := ⟨rfl, rfl⟩
    rw [Phrase.trimmed, Phrase.dropped]
    split_ifs <;> simp [Phrase.tokens, Phrase.enclosed, openParen, closeParen, hleft, hright] <;> omega
  | .loop _ _ _ _ _ _ body _, _, _, h => by
    have hbody := body.width_trimmed false false fun t ht => h t (by simp [Phrase.tokens, ht])
    simp [Phrase.trimmed, Phrase.dropped, Phrase.tokens]
    omega
  | .call _ _ _ args _, _, _, h => by
    have hargs := args.width_trimmed fun t ht => h t (by simp [Phrase.tokens, ht])
    simp [Phrase.trimmed, Phrase.dropped, Phrase.tokens]
    omega
  | .decision _ subs, _, _, h | .parameter _ subs, _, _, h => by
    have hsubs := subs.width_trimmed fun t ht => h t (by simp [Phrase.tokens, ht])
    simp [Phrase.trimmed, Phrase.dropped, Phrase.tokens]
    omega
  | .minus _ arg, _, _, h => by
    have harg := arg.width_trimmed false false fun t ht => h t (by simp [Phrase.tokens, ht])
    simp [Phrase.trimmed, Phrase.dropped, Phrase.tokens]
    omega
  | .plus _ arg, _, after, h => by
    have harg := arg.width_trimmed false after fun t ht => h t (by simp [Phrase.tokens, ht])
    simp [Phrase.trimmed, Phrase.dropped, Phrase.tokens]
    omega
  | .binary lhs op _ rhs, before, after, h => by
    have hlhs := lhs.width_trimmed before (op = .pow) fun t ht => h t (by simp [Phrase.tokens, ht])
    have hrhs := rhs.width_trimmed (op = .pow) after fun t ht => h t (by simp [Phrase.tokens, ht])
    simp [Phrase.trimmed, Phrase.dropped, Phrase.tokens]
    omega

lemma Arguments.width_trimmed : (args : Arguments) → (∀ t ∈ args.tokens, t.Spelled) →
    width args.trimmed.tokens + 2 * args.dropped = width args.tokens
  | .last arg, h => arg.width_trimmed false false h
  | .more arg _ rest, h => by
    have harg := arg.width_trimmed false false fun t ht => h t (by simp [Arguments.tokens, ht])
    have hrest := rest.width_trimmed fun t ht => h t (by simp [Arguments.tokens, ht])
    simp [Arguments.trimmed, Arguments.dropped, Arguments.tokens]
    omega

lemma Brackets.width_trimmed : (subs : Brackets) → (∀ t ∈ subs.tokens, t.Spelled) →
    width subs.trimmed.tokens + 2 * subs.dropped = width subs.tokens
  | .done, _ => rfl
  | .dim _ _ _ rest, h | .option _ _ _ _ rest, h => by
    have hrest := rest.width_trimmed fun t ht => h t (by simp [Brackets.tokens, ht])
    simp [Brackets.trimmed, Brackets.dropped, Brackets.tokens]
    omega
  | .constant _ value _ _ rest, h => by
    have hvalue := value.width_trimmed false false fun t ht => h t (by simp [Brackets.tokens, ht])
    have hrest := rest.width_trimmed fun t ht => h t (by simp [Brackets.tokens, ht])
    simp [Brackets.trimmed, Brackets.dropped, Brackets.tokens]
    omega

end

mutual

lemma Phrase.tokens_trimmed : (p : Phrase) → (before after : Bool) → (∀ t ∈ p.tokens, t.Spelled) →
    p.dropped before after = 0 → (p.trimmed before after).tokens.map unplaced = p.tokens.map unplaced
  | .number .., _, _, _, _ | .equation _, _, _, _, _ => rfl
  | .group left body right, before, after, h, hd => by
    rw [Phrase.dropped, Nat.add_eq_zero_iff] at hd
    have hbody := body.tokens_trimmed false false (fun t ht => h t (by simp [Phrase.tokens, ht])) hd.1
    obtain ⟨hleft, hright⟩ := group_lexemes h
    rw [Phrase.trimmed, if_neg fun hdrop => by simp [hdrop] at hd]
    have hopen : (left.token .lparen).unplaced = (openParen.token .lparen).unplaced :=
      by simp [unplaced, hleft, openParen]
    have hclose : (right.token .rparen).unplaced = (closeParen.token .rparen).unplaced := by
      simp [unplaced, hright, closeParen]
    simp only [Phrase.tokens, Phrase.enclosed, List.map_cons, List.map_append, hbody, List.map_nil, hopen, hclose]
  | .loop _ _ _ _ _ _ body _, _, _, h, hd => by
    have hbody := body.tokens_trimmed false false (fun t ht => h t (by simp [Phrase.tokens, ht])) hd
    simp only [Phrase.trimmed, Phrase.tokens, List.map_cons, List.map_append, hbody]
  | .call _ _ _ args _, _, _, h, hd => by
    have hargs := args.tokens_trimmed (fun t ht => h t (by simp [Phrase.tokens, ht])) hd
    simp only [Phrase.trimmed, Phrase.tokens, List.map_cons, List.map_append, hargs]
  | .decision _ subs, _, _, h, hd | .parameter _ subs, _, _, h, hd => by
    have hsubs := subs.tokens_trimmed (fun t ht => h t (by simp [Phrase.tokens, ht])) hd
    simp only [Phrase.trimmed, Phrase.tokens, List.map_cons, hsubs]
  | .minus _ arg, _, _, h, hd => by
    have harg := arg.tokens_trimmed false false (fun t ht => h t (by simp [Phrase.tokens, ht])) hd
    simp only [Phrase.trimmed, Phrase.tokens, List.map_cons, harg]
  | .plus _ arg, _, after, h, hd => by
    have harg := arg.tokens_trimmed false after (fun t ht => h t (by simp [Phrase.tokens, ht])) hd
    simp only [Phrase.trimmed, Phrase.tokens, List.map_cons, harg]
  | .binary lhs op _ rhs, before, after, h, hd => by
    rw [Phrase.dropped, Nat.add_eq_zero_iff] at hd
    have hlhs := lhs.tokens_trimmed before (op = .pow) (fun t ht => h t (by simp [Phrase.tokens, ht])) hd.1
    have hrhs := rhs.tokens_trimmed (op = .pow) after (fun t ht => h t (by simp [Phrase.tokens, ht])) hd.2
    simp only [Phrase.trimmed, Phrase.tokens, List.map_cons, List.map_append, hlhs, hrhs]

lemma Arguments.tokens_trimmed : (args : Arguments) → (∀ t ∈ args.tokens, t.Spelled) → args.dropped = 0 →
    args.trimmed.tokens.map unplaced = args.tokens.map unplaced
  | .last arg, h, hd => arg.tokens_trimmed false false h hd
  | .more arg _ rest, h, hd => by
    rw [Arguments.dropped, Nat.add_eq_zero_iff] at hd
    have harg := arg.tokens_trimmed false false (fun t ht => h t (by simp [Arguments.tokens, ht])) hd.1
    have hrest := rest.tokens_trimmed (fun t ht => h t (by simp [Arguments.tokens, ht])) hd.2
    simp only [Arguments.trimmed, Arguments.tokens, List.map_cons, List.map_append, harg, hrest]

lemma Brackets.tokens_trimmed : (subs : Brackets) → (∀ t ∈ subs.tokens, t.Spelled) → subs.dropped = 0 →
    subs.trimmed.tokens.map unplaced = subs.tokens.map unplaced
  | .done, _, _ => rfl
  | .dim _ _ _ rest, h, hd | .option _ _ _ _ rest, h, hd => by
    have hrest := rest.tokens_trimmed (fun t ht => h t (by simp [Brackets.tokens, ht])) hd
    simp only [Brackets.trimmed, Brackets.tokens, List.map_cons, hrest]
  | .constant _ value _ _ rest, h, hd => by
    rw [Brackets.dropped, Nat.add_eq_zero_iff] at hd
    have hvalue := value.tokens_trimmed false false (fun t ht => h t (by simp [Brackets.tokens, ht])) hd.1
    have hrest := rest.tokens_trimmed (fun t ht => h t (by simp [Brackets.tokens, ht])) hd.2
    simp only [Brackets.trimmed, Brackets.tokens, List.map_cons, List.map_append, hvalue, hrest]

end

/-! ### Indices that are numbers -/

def Phrase.IsNumber : Phrase → Prop
  | .number .. => True
  | _ => False

variable {c : Context}

lemma Brackets.turnsIndex : (subs : Brackets) → subs.Resolved c → subs.EachIndex Phrase.IsNumber →
    subs.EachIndex (Phrase.TurnsIndex c)
  | .done, _, _ => trivial
  | .dim _ _ _ rest, ⟨_, hr⟩, h => rest.turnsIndex hr h
  | .option _ _ _ _ rest, ⟨_, _, hr⟩, h => rest.turnsIndex hr h
  | .constant _ value _ index rest, ⟨⟨x, hx, hi⟩, hr⟩, ⟨hn, h⟩ => by
    refine ⟨?_, rest.turnsIndex hr h⟩
    cases value with
    | number y mark => exact ⟨.number y mark, x, index, (Derives.number y mark).loosen (by decide), rfl, hx, hi⟩
    | _ => exact hn.elim

lemma Derives.turnsIndex {l : Level} {p : Phrase} (h : Derives c l p) :
    p.EachIndex Phrase.IsNumber → p.EachIndex (Phrase.TurnsIndex c) := by
  induction h with
  | tighter _ _ ih => exact ih
  | operation _ _ _ _ _ ihp ihq | power _ _ _ ihp ihq => exact fun hi => ⟨ihp hi.1, ihq hi.2⟩
  | minus _ _ ih | plus _ _ ih | group _ _ _ ih | loop _ _ _ _ _ _ _ _ ih => exact ih
  | number | equation => exact fun _ => trivial
  | @call _ args _ _ _ _ _ ih => exact fun hi => args.eachIndex_iff.2 fun p hp => ih p hp (args.eachIndex_iff.1 hi p hp)
  | @decision _ subs _ _ hr | @parameter _ subs _ _ _ hr => exact subs.turnsIndex hr

end Grammar

def negatedPower : Phrase :=
  .binary
    (.minus ⟨"-", 0⟩ (.binary (.parameter ⟨"a", 1⟩ .done) .pow ⟨"^", 3⟩
      (.group ⟨"(", 5⟩ (.minus ⟨"-", 6⟩ (.parameter ⟨"b", 7⟩ .done)) ⟨")", 8⟩)))
    .times ⟨"*", 10⟩
    (.parameter ⟨"c", 12⟩
      (.constant ⟨"[", 13⟩ (.number (Number.ofDecimal false 2 0) ⟨"2", 14⟩) ⟨"]", 15⟩ 2 .done))

lemma derives_negatedPower (src : Bytes) : Derives ⟨parametersOnly, "e", src⟩ .rel negatedPower := by
  have hindex : IsIndex (Number.ofDecimal false 2 0) 2 :=
    ⟨by decide +kernel, .inl (by decide +kernel), by decide +kernel⟩
  have hname : ∀ m : Mark, Derives ⟨parametersOnly, "e", src⟩ .prim (.parameter m .done) := fun m =>
    .parameter rfl rfl (List.forall_mem_nil _) trivial
  have hsign : Derives ⟨parametersOnly, "e", src⟩ .pow (.minus ⟨"-", 6⟩ (.parameter ⟨"b", 7⟩ .done)) :=
    .minus _ ((hname _).loosen (by decide))
  have hpower := Derives.minus ⟨"-", 0⟩ (.power ⟨"^", 3⟩ (hname ⟨"a", 1⟩)
    ((Derives.group ⟨"(", 5⟩ ⟨")", 8⟩ (hsign.loosen (by decide))).loosen (by decide)))
  refine (Derives.operation (l := .mul) _ rfl (by decide) (hpower.loosen (by decide)) ?_).loosen (by decide)
  refine (Derives.parameter rfl rfl ?_ ?_).loosen (by decide)
  · exact List.forall_mem_singleton.2 ((Derives.number _ _).loosen (by decide))
  · exact ⟨⟨_, .number _ _, hindex⟩, trivial⟩

lemma scan_negatedPower : Token.scan (bytes "-a ^ (-b) * c[2]") = .ok negatedPower.tokens := rfl

lemma derivation_negatedPower :
    Derivation ⟨parametersOnly, "e", bytes "-a ^ (-b) * c[2]"⟩ negatedPower.tokens negatedPower :=
  ⟨derives_negatedPower _, rfl⟩

/-- Reversed twice an equation is read as the same expression. -/
theorem reversed_twice_reads_alike (symbols : Symbols) (self : String) (src : Bytes) (e : Expr)
    (hparse : parseBytes symbols self src = .ok e) :
    ∃ ts p, Token.scan src = .ok ts ∧ Derivation ⟨symbols, self, src⟩ ts p ∧
      (p.PlusFree → p.EachIndex Phrase.IsNumber →
        ∃ once us e' twice e'', reverseBytes symbols self src = .ok once ∧
          Token.scan once = .ok us ∧ us.map unplaced = (p.backward false false).map unplaced ∧
          (words (us.map unplaced)).Perm (words (ts.map unplaced)) ∧
          parseBytes symbols self once = .ok e' ∧ reverseBytes symbols self once = .ok twice ∧
          parseBytes symbols self twice = .ok e'' ∧ e''.text = e.text) := by
  obtain ⟨ts, p, hscan, hp, rfl⟩ := derivation_of_parseBytes hparse
  refine ⟨ts, p, hscan, hp, fun hfree hnumbers => ?_⟩
  obtain ⟨once, twice, us, e', e'', h⟩ := exists_reversedTwice hscan hp hfree (hp.derives.turnsIndex hnumbers)
  refine ⟨once, us, e', twice, e'', h.first, h.tokens, h.backward, ?_, h.reads, h.second, h.again, h.text⟩
  rw [h.backward, words_unplaced, words_unplaced, ← hp.tokens]
  exact (p.perm_backward false false).map unplaced

theorem negated_power_reads_alike : ∃ ts e, Token.scan (bytes "-a ^ (-b) * c[2]") = .ok ts ∧
    parseBytes parametersOnly "e" (bytes "-a ^ (-b) * c[2]") = .ok e ∧
    Derivation ⟨parametersOnly, "e", bytes "-a ^ (-b) * c[2]"⟩ ts negatedPower ∧ negatedPower.PlusFree ∧
    negatedPower.EachIndex Phrase.IsNumber ∧
    ∃ once us e' twice e'', reverseBytes parametersOnly "e" (bytes "-a ^ (-b) * c[2]") = .ok once ∧
      Token.scan once = .ok us ∧ us.map unplaced = (negatedPower.backward false false).map unplaced ∧
      (words (us.map unplaced)).Perm (words (ts.map unplaced)) ∧
      parseBytes parametersOnly "e" once = .ok e' ∧ reverseBytes parametersOnly "e" once = .ok twice ∧
      parseBytes parametersOnly "e" twice = .ok e'' ∧ e''.text = e.text := by
  have hparse := parseBytes_of_derivation scan_negatedPower derivation_negatedPower
  have hfree : negatedPower.PlusFree := ⟨⟨trivial, trivial⟩, trivial, trivial⟩
  have hnumbers : negatedPower.EachIndex Phrase.IsNumber := ⟨⟨trivial, trivial⟩, trivial, trivial⟩
  obtain ⟨ts, p, hscan, hp, h⟩ := reversed_twice_reads_alike _ _ _ _ hparse
  cases scan_negatedPower.symm.trans hscan
  obtain rfl := hp.unique derivation_negatedPower
  exact ⟨_, _, hscan, hparse, hp, hfree, hnumbers, h hfree hnumbers⟩

/-- Reversed twice an equation is the same text, blanks aside, exactly if no parentheses are dropped. -/
theorem reversed_twice_iff_none_dropped (symbols : Symbols) (self : String) (src : Bytes) (e : Expr)
    (hparse : parseBytes symbols self src = .ok e) :
    ∃ ts p, Token.scan src = .ok ts ∧ Derivation ⟨symbols, self, src⟩ ts p ∧
      (p.PlusFree → p.EachIndex (Phrase.TurnsIndex ⟨symbols, self, src⟩) →
        ∃ once e' twice, reverseBytes symbols self src = .ok once ∧ parseBytes symbols self once = .ok e' ∧
          reverseBytes symbols self once = .ok twice ∧
          ascii (solid twice) = String.join ((p.trimmed false false).tokens.map (·.lexeme)) ∧
          (solid twice = solid src ↔ p.dropped false false = 0)) := by
  obtain ⟨ts, p, hscan, hp, rfl⟩ := derivation_of_parseBytes hparse
  refine ⟨ts, p, hscan, hp, fun hfree hindex => ?_⟩
  obtain ⟨once, twice, us, e', e'', h⟩ := exists_reversedTwice hscan hp hfree hindex
  have hcuts := cuts_of_scan hscan
  have hspelled : ∀ t ∈ p.tokens, t.Spelled := hp.tokens ▸ hcuts.spelled
  have hlexemes : ∀ us : List Token, (us.map unplaced).map (·.lexeme) = us.map (·.lexeme) := fun us => by
    rw [List.map_map]
    rfl
  have hsrc := hcuts.spread.text
  have htwice := h.trimmed.text
  rw [← hp.tokens, hlexemes] at hsrc
  rw [hlexemes] at htwice
  refine ⟨once, e', twice, h.first, h.reads, h.second, htwice, fun hsame => ?_, fun hnone => ascii_injective ?_⟩
  · have hwidth := p.width_trimmed false false hspelled
    have hlength := congrArg String.length (htwice.symm.trans ((congrArg ascii hsame).trans hsrc))
    rw [String.length_join, String.length_join, List.map_map, List.map_map] at hlength
    change width _ = width _ at hlength
    omega
  · rw [htwice, hsrc, ← hlexemes, p.tokens_trimmed false false hspelled hnone, hlexemes]

theorem negated_power_not_restored : ∃ ts e, Token.scan (bytes "-a ^ (-b) * c[2]") = .ok ts ∧
    parseBytes parametersOnly "e" (bytes "-a ^ (-b) * c[2]") = .ok e ∧
    Derivation ⟨parametersOnly, "e", bytes "-a ^ (-b) * c[2]"⟩ ts negatedPower ∧ negatedPower.PlusFree ∧
    negatedPower.EachIndex (Phrase.TurnsIndex ⟨parametersOnly, "e", bytes "-a ^ (-b) * c[2]"⟩) ∧
    ∃ once e' twice, reverseBytes parametersOnly "e" (bytes "-a ^ (-b) * c[2]") = .ok once ∧
      parseBytes parametersOnly "e" once = .ok e' ∧ reverseBytes parametersOnly "e" once = .ok twice ∧
      ascii (solid twice) = "-a^-b*c[2]" ∧ solid twice ≠ solid (bytes "-a ^ (-b) * c[2]") := by
  have hparse := parseBytes_of_derivation scan_negatedPower derivation_negatedPower
  have hfree : negatedPower.PlusFree := ⟨⟨trivial, trivial⟩, trivial, trivial⟩
  have hindex := derivation_negatedPower.derives.turnsIndex ⟨⟨trivial, trivial⟩, trivial, trivial⟩
  obtain ⟨ts, p, hscan, hp, h⟩ := reversed_twice_iff_none_dropped _ _ _ _ hparse
  cases scan_negatedPower.symm.trans hscan
  obtain rfl := hp.unique derivation_negatedPower
  obtain ⟨once, e', twice, hfirst, hreads, hsecond, htext, hiff⟩ := h hfree hindex
  have hdropped : negatedPower.dropped false false = 1 := rfl
  refine ⟨_, _, hscan, hparse, hp, hfree, hindex, once, e', twice, hfirst, hreads, hsecond, htext.trans rfl,
    fun hsame => ?_⟩
  rw [hiff, hdropped] at hsame
  cases hsame

end LandUse
