import LandUse.Proofs.Grammar.Sound

/-! A phrase of `n` tokens takes at most `6 * n` steps, and a climb behind it has lost at most `n` of them. -/

namespace LandUse.Grammar

open LandUse.Parser Outcome

variable {c : Context}

def closes : TokenKind → Bool
  | .operator _ | .rparen | .rbrace | .rbracket | .comma | .eof => true
  | _ => false

def Closed (ts : List Token) : Prop := ∀ t r, ts = t :: r → closes t.kind

/-- The climb behind a phrase is what is left of reading an expression that starts with it. -/
def Complete (c : Context) (l : Level) (p : Phrase) : Prop :=
  ∀ ⦃d least rest fuel⦄, least ≤ l.rank → Stops l.bound rest → Closed rest → 6 * p.tokens.length ≤ fuel →
    ∃ fuel', fuel ≤ fuel' + p.tokens.length ∧
      expression c fuel d least (p.tokens ++ rest) = climb c fuel' d least (p.expr d) rest

lemma closed_nil : Closed [] := fun _ _ h => nomatch h

lemma closed_cons {t : Token} (h : closes t.kind) (ts : List Token) : Closed (t :: ts) := by
  rintro _ _ ⟨⟩
  exact h

lemma stops_nil (n : Nat) : Stops n [] := fun _ _ _ _ h => nomatch h

variable {n fuel i : Nat} {rest r : List Token} {d : Depth} {p : Phrase} {l : Level} {x : Float} {name : Mark}
    {bs : Brackets}

lemma stops_cons {t : Token} (h : ∀ op, t.kind ≠ .operator op) (ts : List Token) : Stops n (t :: ts) := by
  rintro op _ _ _ ⟨⟩
  exact (h op rfl).elim

lemma stops_operator {op : Operator} (h : op.precedence < n) (mark : Mark) (ts : List Token) :
    Stops n (mark.token (.operator op) :: ts) := by
  rintro _ _ _ _ ⟨⟩
  exact h

lemma Level.rank_le_bound (l : Level) : l.rank ≤ l.bound := by cases l <;> decide

lemma Phrase.tokens_pos (p : Phrase) : 0 < p.tokens.length := by
  cases p <;> simp only [Phrase.tokens, List.length_append, List.length_cons] <;> omega

lemma climb_stops {least : Nat} {e : Expr} (h : Stops least rest) (hf : 0 < fuel) :
    climb c fuel d least e rest = .ok (e, rest) := by
  obtain ⟨fuel, rfl⟩ : ∃ f, fuel = f + 1 := ⟨fuel - 1, by omega⟩
  unfold Parser.climb
  split
  · next op lexeme pos r => rw [if_pos (h op lexeme pos r rfl)]
  · rfl

lemma Complete.reads {l : Level} {p : Phrase} (h : Complete c l p) {d : Depth} {least : Nat} {rest : List Token}
    {fuel : Nat} (hl : least ≤ l.rank) (hs : Stops least rest) (hc : Closed rest)
    (hf : 6 * p.tokens.length ≤ fuel) : expression c fuel d least (p.tokens ++ rest) = .ok (p.expr d, rest) := by
  obtain ⟨fuel', hf', he⟩ := h hl (hs.mono (Nat.le_trans hl l.rank_le_bound)) hc hf
  have := p.tokens_pos
  rw [he, climb_stops hs (by omega)]

lemma complete_of_primary {p : Phrase} (ho : ∀ t r, p.tokens = t :: r → ∀ op, t.kind ≠ .operator op)
    (h : ∀ d rest fuel, Closed rest → 6 * p.tokens.length ≤ fuel + 2 →
      primary c fuel d (p.tokens ++ rest) = .ok (p.expr d, rest)) : Complete c .prim p := by
  intro d least rest fuel _ _ hc hf
  have hp := p.tokens_pos
  obtain ⟨fuel, rfl⟩ : ∃ f, fuel = f + 2 := ⟨fuel - 2, by omega⟩
  refine ⟨fuel + 1, by omega, ?_⟩
  have hs : signed c (fuel + 1) d (p.tokens ++ rest) = primary c fuel d (p.tokens ++ rest) := by
    obtain ⟨t, ts, ht⟩ := List.exists_cons_of_length_pos hp
    rw [ht, List.cons_append]
    apply Parser.signed.eq_4
    · rintro lexeme pos r ⟨⟩
      exact ho _ _ ht _ rfl
    · rintro lexeme pos r ⟨⟩
      exact ho _ _ ht _ rfl
  rw [Parser.expression, hs, h d rest fuel hc hf, ok_bind]

lemma expect_token (mark : Mark) (what : TokenKind) (rest : List Token) :
    c.expect what (mark.token what :: rest) = .ok (mark.token what, rest) := by
  simp [Context.expect]

lemma complete_tighter (hl : l ≠ .prim) (h : Complete c l.tighter p) : Complete c l p := by
  intro d least rest fuel hr hs hc hf
  have ht := Level.rank_tighter hl
  have hb : l.bound ≤ l.tighter.bound := by cases l <;> decide
  exact h (by omega) (hs.mono hb) hc hf

lemma complete_operation {q : Phrase} {op : Operator} (mark : Mark) (hop : op.precedence < l.bound)
    (hr : (levelOf op).rank ≤ l.rank) {l' : Level} (hl' : rightPrecedence op ≤ l'.rank) (hp : Complete c l p)
    (hq : Complete c l' q) : Complete c (levelOf op) (.binary p op mark q) := by
  intro d least rest fuel hl hs hc hf
  simp only [Phrase.tokens, List.length_append, List.length_cons] at hf ⊢
  have hrank := rank_levelOf op
  obtain ⟨fuel₁, hf₁, he₁⟩ := @hp d least (mark.token (.operator op) :: (q.tokens ++ rest)) fuel (by omega)
    (stops_operator hop mark _) (closed_cons rfl _) (by omega)
  obtain ⟨fuel₁, rfl⟩ : ∃ f, fuel₁ = f + 1 := ⟨fuel₁ - 1, by omega⟩
  have he₂ : expression c fuel₁ d (rightPrecedence op) (q.tokens ++ rest) = .ok (q.expr d, rest) :=
    hq.reads hl' (bound_levelOf op ▸ hs) hc (by omega)
  refine ⟨fuel₁, by omega, ?_⟩
  rw [List.append_assoc, List.cons_append, he₁, Parser.climb, if_neg (by omega), he₂, ok_bind]
  rfl

lemma complete_sign (h : Complete c .pow p) (hs : Stops 4 rest) (hc : Closed rest) (hf : 6 * p.tokens.length ≤ fuel) :
    expression c fuel d Operator.signPrecedence (p.tokens ++ rest) = .ok (p.expr d, rest) :=
  h.reads (by decide) hs hc hf

lemma complete_minus (sign : Mark) (h : Complete c .pow p) : Complete c .pow (.minus sign p) := by
  intro d least rest fuel hl hs hc hf
  simp only [Phrase.tokens, List.length_cons] at hf ⊢
  obtain ⟨fuel, rfl⟩ : ∃ f, fuel = f + 2 := ⟨fuel - 2, by omega⟩
  refine ⟨fuel + 1, by omega, ?_⟩
  rw [List.cons_append, Parser.expression, Parser.signed, complete_sign h hs hc (by omega)]
  rfl

lemma complete_plus (sign : Mark) (h : Complete c .pow p) : Complete c .pow (.plus sign p) := by
  intro d least rest fuel hl hs hc hf
  simp only [Phrase.tokens, List.length_cons] at hf ⊢
  obtain ⟨fuel, rfl⟩ : ∃ f, fuel = f + 2 := ⟨fuel - 2, by omega⟩
  refine ⟨fuel + 1, by omega, ?_⟩
  rw [List.cons_append, Parser.expression, Parser.signed, complete_sign h hs hc (by omega)]
  rfl

lemma complete_number (x : Float) (mark : Mark) : Complete c .prim (.number x mark) := by
  apply complete_of_primary
  · rintro _ _ ⟨⟩ _ ⟨⟩
  · intro d rest fuel hc hf
    obtain ⟨fuel, rfl⟩ : ∃ f, fuel = f + 1 := ⟨fuel - 1, by simp only [Phrase.tokens, List.length_cons] at hf; omega⟩
    simp only [Phrase.tokens, List.cons_append, List.nil_append, Parser.primary]
    rw [if_neg]
    · rfl
    · -- what follows is neither a number nor a name
      cases rest with
      | nil => simp [Context.peek, Token.endAt]
      | cons t r =>
        have ht := hc t r rfl
        simp only [Context.peek, List.headD_cons]
        split <;> simp_all [closes]

lemma complete_group (left right : Mark) (h : Complete c .rel p) : Complete c .prim (.group left p right) := by
  apply complete_of_primary
  · rintro _ _ ⟨⟩ _ ⟨⟩
  · intro d rest fuel hc hf
    simp only [Phrase.tokens, List.length_cons, List.length_append, List.length_nil] at hf
    obtain ⟨fuel, rfl⟩ : ∃ f, fuel = f + 1 := ⟨fuel - 1, by omega⟩
    have he : expression c fuel d 0 (p.tokens ++ right.token .rparen :: rest) =
        .ok (p.expr d, right.token .rparen :: rest) :=
      h.reads (by decide) (stops_cons (by simp) _) (closed_cons rfl _) (by omega)
    simp only [Phrase.tokens, List.cons_append, List.append_assoc, List.nil_append, Parser.primary, he, ok_bind,
      expect_token]
    rfl

lemma ofName_keyword (k : Keyword) : Keyword.ofName? k.name = some k := by cases k <;> decide

lemma ofName_function (f : Function) : Function.ofName? f.name = some f := by cases f <;> decide

lemma complete_loop {dim : Mark} (keyword : Keyword) (pos : Nat) (brace unbrace left right : Mark)
    (hd : c.isDimension dim.lexeme = true) (h : Complete c .rel p) :
    Complete c .prim (.loop keyword pos brace dim unbrace left p right) := by
  apply complete_of_primary
  · rintro _ _ ⟨⟩ _ ⟨⟩
  · intro d rest fuel hc hf
    simp only [Phrase.tokens, List.length_cons, List.length_append, List.length_nil] at hf
    obtain ⟨fuel, rfl⟩ : ∃ f, fuel = f + 2 := ⟨fuel - 2, by omega⟩
    have he : expression c fuel { d with loops := d.loops + 1 } 0 (p.tokens ++ right.token .rparen :: rest) =
        .ok (p.expr { d with loops := d.loops + 1 }, right.token .rparen :: rest) :=
      h.reads (by decide) (stops_cons (by simp) _) (closed_cons rfl _) (by omega)
    simp only [Phrase.tokens, List.cons_append, List.append_assoc, List.nil_append, Parser.primary, Parser.loop,
      ofName_keyword, expect_token, ok_bind, hd, Bool.not_true, Bool.false_eq_true, if_false, he]
    rfl

lemma arguments_complete : (args : Arguments) → (∀ p ∈ args.phrases, Complete c .rel p) → ∀ d fuel (right : Mark) r,
    6 * args.tokens.length + 1 ≤ fuel → arguments c fuel d (args.tokens ++ right.token .rparen :: r) =
      .ok ((args.exprs d, args.seps), right.token .rparen :: r)
  | .last arg, h, d, fuel, right, r, hf => by
    obtain ⟨fuel, rfl⟩ : ∃ f, fuel = f + 1 := ⟨fuel - 1, by omega⟩
    have ha : expression c fuel d 0 (arg.tokens ++ right.token .rparen :: r) =
        .ok (arg.expr d, right.token .rparen :: r) :=
      (h arg (by simp [Arguments.phrases])).reads (by decide) (stops_cons (by simp) _) (closed_cons rfl _)
        (by simpa [Arguments.tokens] using hf)
    simp only [Arguments.tokens, Parser.arguments, ha, ok_bind]
    rfl
  | .more arg comma rest, h, d, fuel, right, r, hf => by
    simp only [Arguments.tokens, List.length_append, List.length_cons] at hf
    obtain ⟨fuel, rfl⟩ : ∃ f, fuel = f + 1 := ⟨fuel - 1, by omega⟩
    have ha : expression c fuel d 0 (arg.tokens ++ comma.token .comma :: (rest.tokens ++ right.token .rparen :: r)) =
        .ok (arg.expr d, comma.token .comma :: (rest.tokens ++ right.token .rparen :: r)) :=
      (h arg (by simp [Arguments.phrases])).reads (by decide) (stops_cons (by simp) _) (closed_cons rfl _) (by omega)
    have hr := arguments_complete rest (fun p hp => h p (by simp [Arguments.phrases, hp])) d fuel right r (by omega)
    simp only [Arguments.tokens, List.append_assoc, List.cons_append, Parser.arguments, ha, ok_bind, hr]
    rfl

lemma Phrase.head_ne_rparen : (p : Phrase) → ∃ t r, p.tokens = t :: r ∧ t.kind ≠ .rparen
  | .binary lhs _ _ _ => by
    obtain ⟨t, r, ht, hk⟩ := lhs.head_ne_rparen
    exact ⟨t, _, by rw [Phrase.tokens, ht, List.cons_append], hk⟩
  | .number .. | .group .. | .loop .. | .call .. | .decision .. | .parameter .. | .equation .. | .minus ..
  | .plus .. => ⟨_, _, rfl, by simp⟩

lemma Arguments.head_ne_rparen (args : Arguments) : ∃ t r, args.tokens = t :: r ∧ t.kind ≠ .rparen := by
  cases args with
  | last arg => exact arg.head_ne_rparen
  | more arg comma rest =>
    obtain ⟨t, r, ht, hk⟩ := arg.head_ne_rparen
    exact ⟨t, _, by rw [Arguments.tokens, ht, List.cons_append], hk⟩

lemma complete_call {fn : Function} {args : Arguments} (pos : Nat) (left right : Mark)
    (h : ∀ p ∈ args.phrases, Complete c .rel p) (ha : fn.accepts args.phrases.length = true) :
    Complete c .prim (.call fn pos left args right) := by
  apply complete_of_primary
  · rintro _ _ ⟨⟩ _ ⟨⟩
  · intro d rest fuel hc hf
    simp only [Phrase.tokens, List.length_cons, List.length_append, List.length_nil] at hf
    obtain ⟨fuel, rfl⟩ : ∃ f, fuel = f + 2 := ⟨fuel - 2, by omega⟩
    have he := arguments_complete args h { d with calls := d.calls + 1 } fuel right rest (by omega)
    obtain ⟨t, ts, ht, hk⟩ := args.head_ne_rparen
    rw [← Arguments.length_exprs { d with calls := d.calls + 1 }] at ha
    simp only [Phrase.tokens, List.cons_append, List.append_assoc, List.nil_append, Parser.primary, Parser.call,
      ofName_function]
    split
    · next hts =>
      rw [ht, List.cons_append, List.cons.injEq] at hts
      exact (hk (congrArg Token.kind hts.1)).elim
    · simp only [he, ok_bind, expect_token, ha, Bool.not_true, Bool.false_eq_true, if_false]
      rfl

lemma Denotes.constant (h : Denotes p x) (d : Depth) : c.constant (p.expr d) = .ok x := by
  induction h with
  | number x mark => rfl
  | group left right _ ih => exact ih
  | plus sign _ ih => exact ih
  | minus sign _ hv ih => simp only [Phrase.expr, Context.constant, ih, ok_bind, hv]
  | binary mark _ _ hv ihp ihq => simp only [Phrase.expr, binaryExpr, Context.constant, ihp, ihq, ok_bind, hv]

lemma Denotes.head_ne_ident (h : Denotes p x) : ∃ t r, p.tokens = t :: r ∧ t.kind ≠ .ident := by
  induction h with
  | number x mark => exact ⟨_, _, rfl, by simp⟩
  | group left right _ ih => exact ⟨_, _, rfl, by simp⟩
  | plus sign _ ih => exact ⟨_, _, rfl, by simp⟩
  | minus sign _ hv ih => exact ⟨_, _, rfl, by simp⟩
  | binary mark _ _ hv ih _ =>
    obtain ⟨t, r, ht, hk⟩ := ih
    exact ⟨t, _, by rw [Phrase.tokens, ht, List.cons_append], hk⟩

lemma constantIndex_of_denotes (h : Denotes p x) (hi : IsIndex x i) (d : Depth) :
    c.constantIndex (p.expr d) = .ok i := by
  simp only [Context.constantIndex, h.constant, ok_bind]
  rw [if_neg]
  · simp [hi.2.2]
  · rw [Bool.or_eq_true, not_or, decide_eq_true_eq, Bool.not_eq_true', Bool.not_eq_false, Bool.or_eq_true]
    exact ⟨hi.1, hi.2.1⟩

lemma subscript_constant {value : Phrase} (h : Complete c .rel value) (hx : Denotes value x) (hi : IsIndex x i)
    (left right : Mark) (hf : 6 * value.tokens.length ≤ fuel) :
    subscript c (fuel + 1) d left.pos (value.tokens ++ right.token .rbracket :: r) =
      .ok ((.index ⟨left.pos + 1, right.pos - 1⟩ i (keptExpr (value.expr d)), right.pos), r) := by
  have he : expression c fuel d 0 (value.tokens ++ right.token .rbracket :: r) =
      .ok (value.expr d, right.token .rbracket :: r) :=
    h.reads (by decide) (stops_cons (by simp) _) (closed_cons rfl _) hf
  obtain ⟨t, ts, ht, hk⟩ := hx.head_ne_ident
  rw [Parser.subscript.eq_3, he, ok_bind]
  · simp only [constantIndex_of_denotes hx hi, ok_bind, expect_token]
    rfl
  · rintro name pos lexeme close r' hr
    rw [ht, List.cons_append, List.cons.injEq] at hr
    exact hk (congrArg Token.kind hr.1)

lemma subscript_dim (left : Mark) (right : Mark) (hn : c.isDimension name.lexeme = true) :
    subscript c (fuel + 1) d left.pos (name.token .ident :: right.token .rbracket :: r) =
      .ok ((.dim ⟨left.pos + 1, right.pos - 1⟩ name.lexeme, right.pos), r) := by
  simp [Parser.subscript, Context.namedSubscript, hn]

lemma subscript_option (left : Mark) (right : Mark) (hn : c.isDimension name.lexeme = false)
    (hi : c.symbols.optionIndex? name.lexeme = some i) :
    subscript c (fuel + 1) d left.pos (name.token .ident :: right.token .rbracket :: r) =
      .ok ((.option ⟨left.pos + 1, right.pos - 1⟩ name.lexeme i, right.pos), r) := by
  simp [Parser.subscript, Context.namedSubscript, hn, hi]

structure Opens (c : Context) (d : Depth) (bs : Brackets) (left : Mark) (ts : List Token) (sub : Subscript)
    (close : Int) (tail : Brackets) : Prop where
  tokens : bs.tokens = left.token .lbracket :: (ts ++ tail.tokens)
  length : bs.length = tail.length + 1
  subscripts : bs.subscripts d = sub :: tail.subscripts d
  stop : ∀ stop, bs.stop stop = tail.stop close
  phrases : ∀ p ∈ tail.phrases, p ∈ bs.phrases
  resolved : tail.Resolved c
  reads : ∀ r fuel, 6 * ts.length ≤ fuel → subscript c (fuel + 1) d left.pos (ts ++ r) = .ok ((sub, close), r)

lemma opens_of_length (hn : bs.length = n + 1) (h : ∀ p ∈ bs.phrases, Complete c .rel p) (hr : bs.Resolved c)
    (d : Depth) : ∃ left ts sub close tail, Opens c d bs left ts sub close tail := by
  cases bs with
  | done => simp [Brackets.length] at hn
  | dim left name right tail =>
    exact ⟨left, [name.token .ident, right.token .rbracket], _, _, tail, rfl, rfl, rfl, fun _ => rfl,
      fun p hp => hp, hr.2, fun r fuel _ => subscript_dim left right hr.1⟩
  | option left name right i tail =>
    exact ⟨left, [name.token .ident, right.token .rbracket], _, _, tail, rfl, rfl, rfl, fun _ => rfl,
      fun p hp => hp, hr.2.2, fun r fuel _ => subscript_option left right hr.1 hr.2.1⟩
  | constant left value right i tail =>
    obtain ⟨⟨x, hx, hi⟩, hr⟩ := hr
    refine ⟨left, value.tokens ++ [right.token .rbracket], _, _, tail, ?_, rfl, rfl, fun _ => rfl,
      fun p hp => List.mem_cons_of_mem _ hp, hr, fun r fuel hf => ?_⟩
    · simp [Brackets.tokens]
    · rw [List.append_assoc]
      simp only [List.length_append] at hf
      exact subscript_constant (h value List.mem_cons_self) hx hi left right (by omega)

lemma Brackets.eq_done (h : bs.length = 0) : bs = .done := by
  cases bs <;> simp_all [Brackets.length]

lemma subscripts_complete (h : ∀ p ∈ bs.phrases, Complete c .rel p) (hr : bs.Resolved c) (d : Depth) (fuel : Nat)
    (stop : Int) (hc : Closed rest) (hf : 6 * bs.tokens.length + 1 ≤ fuel) :
    subscripts c fuel d stop (bs.tokens ++ rest) = .ok ((bs.subscripts d, bs.stop stop), rest) := by
  generalize hn : bs.length = n
  induction n generalizing bs fuel stop with
  | zero =>
    obtain rfl := Brackets.eq_done hn
    obtain ⟨fuel, rfl⟩ : ∃ f, fuel = f + 1 := ⟨fuel - 1, by omega⟩
    simp only [Brackets.tokens, List.nil_append]
    rw [Parser.subscripts.eq_3]
    · rfl
    · rintro lexeme pos r rfl
      simpa [closes] using hc _ _ rfl
  | succ n ih =>
    obtain ⟨left, ts, sub, close, tail, ho⟩ := opens_of_length hn h hr d
    simp only [ho.tokens, List.length_cons, List.length_append] at hf
    obtain ⟨fuel, rfl⟩ : ∃ f, fuel = f + 2 := ⟨fuel - 2, by omega⟩
    have ht := ih (fun p hp => h p (ho.phrases p hp)) ho.resolved (fuel + 1) close (by omega)
      (by have := ho.length; omega)
    simp only [ho.tokens, List.cons_append, List.append_assoc, Parser.subscripts, ho.reads _ fuel (by omega), ok_bind,
      ht, ho.subscripts, ho.stop]
    rfl

lemma exactSubscripts_complete (h : ∀ p ∈ bs.phrases, Complete c .rel p) (hr : bs.Resolved c) (d : Depth) (id : Token)
    {arity : Nat} (got fuel : Nat) (stop : Int) (ha : got + bs.length = arity) (hf : 6 * bs.tokens.length + 1 ≤ fuel) :
    exactSubscripts c fuel d id arity got stop (bs.tokens ++ rest) = .ok ((bs.subscripts d, bs.stop stop), rest) := by
  generalize hn : bs.length = n
  induction n generalizing bs fuel stop got with
  | zero =>
    obtain rfl := Brackets.eq_done hn
    obtain ⟨fuel, rfl⟩ : ∃ f, fuel = f + 1 := ⟨fuel - 1, by omega⟩
    unfold Parser.exactSubscripts
    rw [if_pos (by omega)]
    rfl
  | succ n ih =>
    obtain ⟨left, ts, sub, close, tail, ho⟩ := opens_of_length hn h hr d
    have hlen := ho.length
    simp only [ho.tokens, List.length_cons, List.length_append] at hf
    obtain ⟨fuel, rfl⟩ : ∃ f, fuel = f + 2 := ⟨fuel - 2, by omega⟩
    have ht := ih (fun p hp => h p (ho.phrases p hp)) ho.resolved (got + 1) (fuel + 1) close (by omega) (by omega)
      (by omega)
    rw [ho.tokens, List.cons_append, List.append_assoc, Parser.exactSubscripts, if_neg (by omega)]
    simp only [ho.reads _ fuel (by omega), ok_bind, ht, ho.subscripts, ho.stop]
    rfl

lemma primary_name (h : ∀ t r, rest = t :: r → t.kind ≠ .lbrace ∧ t.kind ≠ .lparen) (d : Depth) (fuel : Nat) :
    primary c (fuel + 1) d (name.token .ident :: rest) = reference c fuel d (name.token .ident) rest := by
  apply Parser.primary.eq_6
  · rintro lexeme pos r rfl
    exact (h _ _ rfl).1 rfl
  · rintro lexeme pos r rfl
    exact (h _ _ rfl).2 rfl

lemma Closed.not_opening (hc : Closed rest) : ∀ t r, rest = t :: r → t.kind ≠ .lbrace ∧ t.kind ≠ .lparen := by
  rintro t r rfl
  have := hc t r rfl
  constructor <;> intro hk <;> simp [hk, closes] at this

lemma Brackets.not_opening (bs : Brackets) (hc : Closed rest) :
    ∀ t r, bs.tokens ++ rest = t :: r → t.kind ≠ .lbrace ∧ t.kind ≠ .lparen := by
  cases bs with
  | done => simpa [Brackets.tokens] using hc.not_opening
  | dim | option | constant =>
    rintro t r ⟨⟩
    simp

lemma complete_decision (hv : c.symbols.variableArity? name.lexeme = some bs.length)
    (h : ∀ p ∈ bs.phrases, Complete c .rel p) (hr : bs.Resolved c) : Complete c .prim (.decision name bs) := by
  apply complete_of_primary
  · rintro _ _ ⟨⟩ _ ⟨⟩
  · intro d rest fuel hc hf
    simp only [Phrase.tokens, List.length_cons] at hf
    obtain ⟨fuel, rfl⟩ : ∃ f, fuel = f + 2 := ⟨fuel - 2, by omega⟩
    have hs : exactSubscripts c fuel d (name.token .ident) bs.length 0 (name.token .ident).last (bs.tokens ++ rest) =
        .ok ((bs.subscripts d, bs.stop (name.token .ident).last), rest) :=
      exactSubscripts_complete h hr d _ 0 fuel _ (Nat.zero_add _) (by omega)
    rw [Phrase.tokens, List.cons_append, primary_name (bs.not_opening hc)]
    simp only [Parser.reference, hv, hs, ok_bind]
    split
    · simpa [closes] using hc _ _ rfl
    · rfl

lemma complete_parameter (hv : c.symbols.variableArity? name.lexeme = none)
    (hp : c.symbols.isParameter name.lexeme = true) (h : ∀ p ∈ bs.phrases, Complete c .rel p) (hr : bs.Resolved c) :
    Complete c .prim (.parameter name bs) := by
  apply complete_of_primary
  · rintro _ _ ⟨⟩ _ ⟨⟩
  · intro d rest fuel hc hf
    simp only [Phrase.tokens, List.length_cons] at hf
    obtain ⟨fuel, rfl⟩ : ∃ f, fuel = f + 2 := ⟨fuel - 2, by omega⟩
    have hs := subscripts_complete h hr d fuel (name.token .ident).last hc (by omega)
    rw [Phrase.tokens, List.cons_append, primary_name (bs.not_opening hc)]
    simp only [Parser.reference, hv, hp, if_true, hs, ok_bind]
    rfl

lemma complete_equation (hv : c.symbols.variableArity? name.lexeme = none)
    (hp : c.symbols.isParameter name.lexeme = false) (he : c.symbols.isEquation name.lexeme = true)
    (hs : name.lexeme ≠ c.self) : Complete c .prim (.equation name) := by
  apply complete_of_primary
  · rintro _ _ ⟨⟩ _ ⟨⟩
  · intro d rest fuel hc hf
    obtain ⟨fuel, rfl⟩ : ∃ f, fuel = f + 2 := ⟨fuel - 2, by simp only [Phrase.tokens, List.length_cons] at hf; omega⟩
    rw [Phrase.tokens, List.cons_append, List.nil_append, primary_name hc.not_opening]
    simp [Parser.reference, hv, hp, he, hs, Phrase.expr]

theorem Derives.complete (h : Derives c l p) : Complete c l p := by
  induction h with
  | tighter hl _ ih => exact complete_tighter hl ih
  | @operation _ _ op _ mark hl hop _ _ ihp ihq =>
    subst hl
    have hr := rightPrecedence_eq (mt levelOf_eq_pow.mpr hop)
    have hp := rank_levelOf op
    have hb : op.precedence < (levelOf op).bound := by rw [bound_levelOf]; omega
    have ht := Level.rank_tighter (levelOf_ne_prim op)
    exact complete_operation mark hb (Nat.le_refl _) (by omega) ihp ihq
  | power mark _ _ ihp ihq =>
    have hop : Operator.pow.precedence < Level.prim.bound := by decide
    have hr : (levelOf .pow).rank ≤ Level.prim.rank := by decide
    have hl : rightPrecedence .pow ≤ Level.pow.rank := by decide
    exact complete_operation mark hop hr hl ihp ihq
  | minus sign _ ih => exact complete_minus sign ih
  | plus sign _ ih => exact complete_plus sign ih
  | number x mark => exact complete_number x mark
  | group left right _ ih => exact complete_group left right ih
  | loop keyword pos brace unbrace left right hd _ ih =>
    exact complete_loop keyword pos brace unbrace left right hd ih
  | call pos left right _ ha ih => exact complete_call pos left right ih ha
  | decision hv _ hr ih => exact complete_decision hv ih hr
  | parameter hv hp _ hr ih => exact complete_parameter hv hp ih hr
  | equation hv hp he hs => exact complete_equation hv hp he hs

theorem equation_of_derives (h : Derives c .rel p) : equation c p.tokens = .ok (p.expr ⟨0, 0⟩) := by
  have he : expression c (fuelFor p.tokens) ⟨0, 0⟩ 0 (p.tokens ++ []) = .ok (p.expr ⟨0, 0⟩, []) :=
    h.complete.reads (Nat.zero_le _) (stops_nil _) closed_nil (by simp only [fuelFor]; omega)
  rw [List.append_nil] at he
  simp [Parser.equation, he]

end LandUse.Grammar
