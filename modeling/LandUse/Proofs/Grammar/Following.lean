import LandUse.Proofs.Grammar.Cursor
import LandUse.Proofs.Reversal.Places

/-! The machine does what the parser does: the depth is the number of loops and calls on its stack. -/

namespace LandUse.Cursor

open LandUse.Parser Grammar

variable {c : Context} {ts us rest : List Token} {scopes scopes' : List Scope} {s : State} {n n' : Nat} {α β : Type}

structure At (c : Context) (ts : List Token) (scopes : List Scope) (us : List Token) (s : State) : Prop where
  le : s.pos ≤ ts.length
  drop : ts.drop s.pos = us
  scopes : s.scopes = scopes
  laid : Token.Laid c.src us

def Located (c : Context) (e : ParseError) : Prop := 0 ≤ e.offset ∧ e.offset ≤ c.src.length

/-- Both have read the same and the machine is back in its scopes, or both refuse for the same reason. -/
inductive Follows (c : Context) (ts : List Token) (scopes : List Scope) (n : Nat) {α : Type} :
    EStateM.Result Stop State α → Except ParseError (α × List Token) → Prop
  | ok {a s rest} : At c ts scopes rest s → rest.length < n → Follows c ts scopes n (.ok a s) (.ok (a, rest))
  | error {e s} : s.pos ≤ ts.length → Located c e → Follows c ts scopes n (.error (.refused e) s) (.error e)

variable {x : Reader α} {f : α → Reader β}

lemma bind_of_ok {s' : State} {a : α} (h : x s = .ok a s') : (x >>= f) s = f a s' := by
  simp only [bind, EStateM.bind, h]

lemma bind_of_error {s' : State} {e : Stop} (h : x s = .error e s') : (x >>= f) s = .error e s' := by
  simp only [bind, EStateM.bind, h]

namespace Follows

variable {m : Except ParseError (α × List Token)}
variable {r : EStateM.Result Stop State α}

lemma mono (h : Follows c ts scopes n r m) (hn : n ≤ n') : Follows c ts scopes n' r m := by
  cases h with
  | ok hat hlt => exact .ok hat (hlt.trans_le hn)
  | error hle hloc => exact .error hle hloc

lemma of_ok {a : α} (h : Follows c ts scopes n r (.ok (a, rest))) : ∃ s, r = .ok a s ∧ At c ts scopes rest s := by
  cases h with
  | ok hat _ => exact ⟨_, rfl, hat⟩

lemma of_error {e : ParseError} (h : Follows c ts scopes n r (.error e)) :
    ∃ s, r = .error (.refused e) s ∧ s.pos ≤ ts.length ∧ Located c e := by
  cases h with
  | error hle hloc => exact ⟨_, rfl, hle, hloc⟩

lemma ite {x y : Reader α} {m' : Except ParseError (α × List Token)} {P : Prop} [Decidable P]
    (hpos : P → Follows c ts scopes n (x s) m) (hneg : ¬ P → Follows c ts scopes n (y s) m') :
    Follows c ts scopes n ((if P then x else y) s) (if P then m else m') := by
  by_cases h : P
  · rw [if_pos h, if_pos h]
    exact hpos h
  · rw [if_neg h, if_neg h]
    exact hneg h

lemma bind {x : Reader α} {f : α → Reader β} {k : α × List Token → Except ParseError (β × List Token)}
    (hx : Follows c ts scopes n (x s) m)
    (hf : ∀ a s' rest, m = .ok (a, rest) → At c ts scopes rest s' → rest.length < n →
      Follows c ts scopes' n' (f a s') (k (a, rest))) :
    Follows c ts scopes' n' ((x >>= f) s) (m >>= k) := by
  cases hr : x s with
  | ok a s' =>
    rw [bind_of_ok hr]
    rw [hr] at hx
    cases hx with
    | ok hat hlt => exact hf _ _ _ rfl hat hlt
  | error e s' =>
    rw [bind_of_error hr]
    rw [hr] at hx
    cases hx with
    | error hle hloc => exact .error hle hloc

end Follows

namespace At

variable {t : Token} {k : Scope} {m : Except ParseError (β × List Token)}

lemma refuse (h : At c ts scopes us s) {pos : Nat} {cause : ParseCause} (hpos : pos ≤ c.src.length) :
    Follows c ts scopes' n (refuse pos cause s : EStateM.Result Stop State α) (fail pos cause) :=
  .error h.le ⟨Int.natCast_nonneg _, Int.ofNat_le.2 hpos⟩

lemma pos_le (h : At c ts scopes us s) : (c.peek us).pos ≤ c.src.length := by
  cases us with
  | nil => exact le_rfl
  | cons t us =>
    have hstands := h.laid.stands t List.mem_cons_self
    exact hstands.lt_past.le.trans hstands.past_le

lemma refuse_peek (h : At c ts scopes us s) {cause : ParseCause} :
    Follows c ts scopes' n (Cursor.refuse (c.peek us).pos cause s : EStateM.Result Stop State α)
      (fail (c.peek us).pos cause) :=
  h.refuse h.pos_le

lemma getElem? (h : At c ts scopes us s) : (ts ++ [Token.endAt c.src.length])[s.pos]? = some (c.peek us) := by
  rw [← List.head?_drop, List.drop_append_of_le_length h.le, h.drop]
  cases us <;> rfl

lemma peek_bind (h : At c ts scopes us s) (f : Token → Reader β) : (peek c ts >>= f) s = f (c.peek us) s := by
  have hpeek : peek c ts s = .ok (c.peek us) s := by
    change tokenAt c ts s.pos s = _
    rw [tokenAt, h.getElem?]
    rfl
  exact bind_of_ok hpeek

lemma tail (h : At c ts scopes (t :: us) s) : At c ts scopes us { s with pos := s.pos + 1 } := by
  refine ⟨?_, ?_, h.scopes, h.laid.cons.2.1⟩
  · have hlength := congrArg List.length h.drop
    rw [List.length_drop, List.length_cons] at hlength
    change s.pos + 1 ≤ ts.length
    omega
  · change ts.drop (s.pos + 1) = us
    rw [← List.drop_drop, h.drop]
    rfl

lemma peekBehind_bind (h : At c ts scopes us s) (f : Token → Reader β) :
    (peekBehind c ts >>= f) s = f (c.peek us.tail) s := by
  have hbehind : (ts ++ [Token.endAt c.src.length])[min (s.pos + 1) ts.length]? = some (c.peek us.tail) := by
    cases us with
    | nil =>
      have hlength := congrArg List.length h.drop
      rw [List.length_drop, List.length_nil] at hlength
      have hle := h.le
      rw [show min (s.pos + 1) ts.length = s.pos by omega, h.getElem?]
      rfl
    | cons t us => rw [Nat.min_eq_left h.tail.le, h.tail.getElem?, List.tail_cons]
  have hpeek : peekBehind c ts s = .ok (c.peek us.tail) s := by
    change tokenAt c ts (min (s.pos + 1) ts.length) s = _
    rw [tokenAt, hbehind]
    rfl
  exact bind_of_ok hpeek

lemma ne_eof (h : At c ts scopes (t :: us) s) : t.kind ≠ .eof := by
  obtain ⟨lex, hlex, -⟩ := h.laid.stands t List.mem_cons_self
  intro heq
  rw [heq] at hlex
  cases hlex with
  | bracket hb =>
    unfold Token.bracket? at hb
    split at hb <;> cases hb

lemma next_cons (h : At c ts scopes (t :: us) s) (f : Token → Reader β) :
    (next c ts >>= f) s = f t { s with pos := s.pos + 1 } := by
  have hnext : next c ts s = .ok t { s with pos := s.pos + 1 } := by
    rw [next, h.peek_bind]
    obtain ⟨kind, lexeme, pos⟩ := t
    cases kind with
    | eof => exact absurd rfl h.ne_eof
    | _ => rfl
  exact bind_of_ok hnext

lemma openScope_bind (h : At c ts scopes us s) {f : Unit → Reader β}
    (hf : ∀ s', At c ts (k :: scopes) us s' → Follows c ts scopes' n (f () s') m) :
    Follows c ts scopes' n ((openScope k >>= f) s) m :=
  hf _ ⟨h.le, h.drop, congrArg _ h.scopes, h.laid⟩

lemma closeScope_bind (h : At c ts (k :: scopes) us s) {f : Unit → Reader β}
    (hf : ∀ s', At c ts scopes us s' → Follows c ts scopes' n (f () s') m) :
    Follows c ts scopes' n ((closeScope k >>= f) s) m := by
  have hclose : closeScope k s = .ok () { s with scopes := scopes } := by
    obtain ⟨pos, open'⟩ := s
    obtain rfl : open' = k :: scopes := h.scopes
    exact congrArg (fun x : Reader Unit => x _) (if_pos rfl)
  rw [bind_of_ok hclose]
  exact hf _ ⟨h.le, h.drop, rfl, h.laid⟩

lemma level_bind (h : At c ts scopes us s) (f : Nat → Reader β) : (level k >>= f) s = f (scopes.count k) s := by
  rw [← h.scopes]
  rfl

lemma next_nil (h : At c ts scopes [] s) (f : Token → Reader β) :
    (next c ts >>= f) s = f (Token.endAt c.src.length) s := by
  have hnext : next c ts s = .ok (Token.endAt c.src.length) s := by
    rw [next, h.peek_bind]
    rfl
  exact bind_of_ok hnext

lemma expect_cons (h : At c ts scopes (t :: us) s) {what : TokenKind} (ht : (t.kind.name == what.name) = true)
    (f : Token → Reader β) : (Cursor.expect c ts what >>= f) s = f t { s with pos := s.pos + 1 } := by
  have hexpect : Cursor.expect c ts what s = .ok t { s with pos := s.pos + 1 } := by
    rw [Cursor.expect, h.next_cons, if_pos ht]
    rfl
  exact bind_of_ok hexpect

lemma expect (h : At c ts scopes us s) {what : TokenKind} (hwhat : (TokenKind.eof.name == what.name) = false) :
    Follows c ts scopes us.length (expect c ts what s) (c.expect what us) := by
  rw [Cursor.expect]
  cases us with
  | nil =>
    rw [h.next_nil, Token.endAt, hwhat]
    exact h.refuse_peek
  | cons t us =>
    rw [h.next_cons, Context.expect]
    by_cases hname : (t.kind.name == what.name) = true
    · rw [if_pos hname, if_pos hname]
      exact .ok h.tail (Nat.lt_succ_self _)
    · rw [if_neg hname, if_neg hname]
      exact h.tail.refuse h.pos_le

end At

/-! ### Constants -/

inductive Agrees (c : Context) {α : Type} (x : Reader α) : Except ParseError α → Prop
  | ok (a) : (∀ s, x s = .ok a s) → Agrees c x (.ok a)
  | error (e) : (∀ s, x s = .error (.refused e) s) → Located c e → Agrees c x (.error e)

lemma Agrees.bind {x : Reader α} {m : Except ParseError α} {f : α → Reader β} {k : α → Except ParseError β}
    (hx : Agrees c x m) (hf : ∀ a, Agrees c (f a) (k a)) : Agrees c (x >>= f) (m >>= k) := by
  cases hx with
  | ok a hx =>
    change Agrees c (x >>= f) (k a)
    cases hk : k a with
    | ok b =>
      have h := hf a
      rw [hk] at h
      cases h with
      | ok _ h => exact .ok _ fun s => (bind_of_ok (hx s)).trans (h s)
    | error e =>
      have h := hf a
      rw [hk] at h
      cases h with
      | error _ h hloc => exact .error _ (fun s => (bind_of_ok (hx s)).trans (h s)) hloc
  | error e hx hloc => exact .error e (fun s => bind_of_error (hx s)) hloc

lemma At.agrees_bind {m : Except ParseError α} {k : α → Except ParseError (β × List Token)} (h : At c ts scopes us s)
    (hx : Agrees c x m) (hf : ∀ a, m = .ok a → Follows c ts scopes' n (f a s) (k a)) :
    Follows c ts scopes' n ((x >>= f) s) (m >>= k) := by
  cases hx with
  | ok a hx =>
    rw [bind_of_ok (hx s)]
    exact hf a rfl
  | error e hx hloc =>
    rw [bind_of_error (hx s)]
    exact .error h.le hloc

lemma agrees_refuse {offset : Int} {cause : ParseCause} (h : 0 ≤ offset ∧ offset ≤ c.src.length) :
    Agrees c (refuse offset cause : Reader α) (fail offset cause) :=
  .error _ (fun _ => rfl) h

lemma agrees_accept {m : Except ParseError α} (h : ∀ e, m = .error e → Located c e) : Agrees c (accept m) m := by
  cases m with
  | ok a => exact .ok a fun _ => rfl
  | error e => exact .error e (fun _ => rfl) (h e rfl)

section

variable {p : Phrase} {d : Depth}

lemma start_mem (h : Token.Laid c.src p.tokens) :
    0 ≤ (p.expr d).span.start ∧ (p.expr d).span.start ≤ c.src.length := by
  have hend := (h.stands _ (List.mem_of_getLast? p.getLast?_tokens)).past_le
  have hstart := p.start_range d h
  omega

lemma agrees_sourceOf (h : Token.Laid c.src p.tokens) :
    Agrees c
      (do
        let text ← sourceOf c (p.expr d).span
        refuse (p.expr d).span.start (.notConstant (Text.trim text)) : Reader Float)
      (fail (p.expr d).span.start (.notConstant (Text.trim (c.sourceOf (p.expr d).span)))) := by
  have hend := (h.stands _ (List.mem_of_getLast? p.getLast?_tokens)).past_le
  have hstart := p.start_range d h
  have hstop := p.stop_span d h
  have hrange : 0 ≤ (p.expr d).span.start ∧ (p.expr d).span.start ≤ (p.expr d).span.stop + 1 ∧
      (p.expr d).span.stop + 1 ≤ c.src.length := by omega
  refine .error _ (fun s => ?_) (start_mem h)
  rw [sourceOf, if_pos hrange]
  rfl

end

lemma agrees_constant (d : Depth) : (p : Phrase) → Token.Laid c.src p.tokens →
    Agrees c (constant c (p.expr d)) (c.constant (p.expr d))
  | .number x _, _ => .ok x fun _ => rfl
  | .group _ body _, h => agrees_constant d body (laid_group h).2.1.laid
  | .plus _ arg, h => agrees_constant d arg h.cons.2.1
  | .minus _ arg, h => by
    refine (agrees_constant d arg h.cons.2.1).bind fun x => ?_
    cases Opcode.apply .neg [x] with
    | ok v => exact .ok v fun _ => rfl
    | error e => exact agrees_refuse (start_mem (d := d) h)
  | .binary lhs op _ rhs, h => by
    obtain ⟨hlhs, -, hrhs⟩ := laid_binary h
    refine (agrees_constant d lhs hlhs).bind fun x => (agrees_constant d rhs hrhs).bind fun y => ?_
    cases op.opcode.apply [x, y] with
    | ok v => exact .ok v fun _ => rfl
    | error e => exact agrees_refuse (start_mem (d := d) hlhs)
  | .loop .., h | .call .., h | .decision .., h | .parameter .., h | .equation _, h => agrees_sourceOf h

lemma agrees_constantIndex {d : Depth} {p : Phrase} (h : Token.Laid c.src p.tokens) :
    Agrees c (constantIndex c (p.expr d)) (c.constantIndex (p.expr d)) := by
  refine (agrees_constant d p h).bind fun v => ?_
  by_cases hv : (v < 0 || !(Number.isIntegral v || v.isInf)) = true
  · rw [if_pos hv, if_pos hv]
    exact agrees_refuse (start_mem h)
  · rw [if_neg hv, if_neg hv]
    exact .ok _ fun _ => rfl

lemma located_of_namedSubscript {t : Token} {span : Span} {e : ParseError} (ht : t.pos ≤ c.src.length)
    (h : c.namedSubscript t span = .error e) : Located c e := by
  unfold Context.namedSubscript at h
  split at h
  · cases h
  split at h
  · cases h
  · cases h
    exact ⟨Int.natCast_nonneg _, Int.ofNat_le.2 ht⟩

/-! ### The readers -/

def depth (scopes : List Scope) : Depth := ⟨scopes.count .loop, scopes.count .call⟩

lemma depth_loop : depth (.loop :: scopes) = { depth scopes with loops := (depth scopes).loops + 1 } := by
  simp [depth]

lemma depth_call : depth (.call :: scopes) = { depth scopes with calls := (depth scopes).calls + 1 } := by
  simp [depth]

structure FollowsAt (c : Context) (ts : List Token) (fuel : Nat) : Prop where
  expression : ∀ {scopes us s least}, At c ts scopes us s → 6 * us.length + 3 ≤ fuel →
    Follows c ts scopes us.length (expression c ts fuel least s) (Parser.expression c fuel (depth scopes) least us)
  climb : ∀ {scopes us s least lhs}, At c ts scopes us s → 6 * us.length + 1 ≤ fuel →
    Follows c ts scopes (us.length + 1) (climb c ts fuel least lhs s) (Parser.climb c fuel (depth scopes) least lhs us)
  signed : ∀ {scopes us s}, At c ts scopes us s → 6 * us.length + 2 ≤ fuel →
    Follows c ts scopes us.length (signed c ts fuel s) (Parser.signed c fuel (depth scopes) us)
  primary : ∀ {scopes us s}, At c ts scopes us s → 6 * us.length + 1 ≤ fuel →
    Follows c ts scopes us.length (primary c ts fuel s) (Parser.primary c fuel (depth scopes) us)
  loop : ∀ {scopes brace us s name}, At c ts scopes (brace :: us) s → name.pos ≤ c.src.length →
    6 * us.length + 1 ≤ fuel →
    Follows c ts scopes us.length (loop c ts fuel name s) (Parser.loop c fuel (depth scopes) name us)
  call : ∀ {scopes left us s name}, At c ts scopes (left :: us) s → name.pos ≤ c.src.length →
    6 * us.length + 5 ≤ fuel →
    Follows c ts scopes us.length (call c ts fuel name s) (Parser.call c fuel (depth scopes) name left.pos us)
  arguments : ∀ {scopes us s}, At c ts scopes us s → 6 * us.length + 4 ≤ fuel →
    Follows c ts scopes us.length (arguments c ts fuel s) (Parser.arguments c fuel (depth scopes) us)
  reference : ∀ {scopes us s name}, At c ts scopes us s → name.pos ≤ c.src.length → 6 * us.length + 2 ≤ fuel →
    Follows c ts scopes (us.length + 1) (reference c ts fuel name s) (Parser.reference c fuel (depth scopes) name us)
  exactSubscripts : ∀ {scopes us s name arity got stop}, At c ts scopes us s → name.pos ≤ c.src.length →
    6 * us.length + 1 ≤ fuel →
    Follows c ts scopes (us.length + 1) (exactSubscripts c ts fuel name arity got stop s)
      (Parser.exactSubscripts c fuel (depth scopes) name arity got stop us)
  subscripts : ∀ {scopes us s stop}, At c ts scopes us s → 6 * us.length + 1 ≤ fuel →
    Follows c ts scopes (us.length + 1) (subscripts c ts fuel stop s) (Parser.subscripts c fuel (depth scopes) stop us)
  subscript : ∀ {scopes left us s}, At c ts scopes (left :: us) s → 6 * us.length + 4 ≤ fuel →
    Follows c ts scopes us.length (subscript c ts fuel s) (Parser.subscript c fuel (depth scopes) left.pos us)

def argumentsIn (c : Context) (fuel : Nat) (d : Depth) (us : List Token) :
    Except ParseError ((List Expr × List Int) × List Token) :=
  match us with
  | ⟨.rparen, _, _⟩ :: _ => .ok (([], []), us)
  | _ => Parser.arguments c fuel d us

lemma call_eq (c : Context) (fuel : Nat) (d : Depth) (name : Token) (start : Nat) (us : List Token) :
    Parser.call c (fuel + 1) d name start us = match Function.ofName? name.lexeme with
      | none => fail name.pos (.unknownFunction name.lexeme)
      | some fn => do
        let (args, us) ← argumentsIn c fuel { d with calls := d.calls + 1 } us
        let (right, us) ← c.expect .rparen us
        if !fn.accepts args.1.length then fail name.pos (.argumentCount fn args.1.length)
        else return (.call ⟨name.pos, right.pos⟩ fn d.calls ⟨start + 1, right.pos - 1⟩ args.2 args.1, us) := by
  rw [Parser.call]
  cases Function.ofName? name.lexeme with
  | none => rfl
  | some fn =>
    cases us with
    | nil => rfl
    | cons t us =>
      obtain ⟨kind, lexeme, pos⟩ := t
      cases kind <;> rfl

section Step

variable {fuel : Nat} (ih : FollowsAt c ts fuel)

include ih

lemma expression_follows {least : Nat} (h : At c ts scopes us s) (hfuel : 6 * us.length + 3 ≤ fuel + 1) :
    Follows c ts scopes us.length (expression c ts (fuel + 1) least s)
      (Parser.expression c (fuel + 1) (depth scopes) least us) := by
  rw [expression, Parser.expression]
  refine (ih.signed h (by omega)).bind fun lhs s' rest _ hat hlt => ?_
  exact (ih.climb hat (by omega)).mono (by omega)

lemma climb_follows {least : Nat} {lhs : Expr} (h : At c ts scopes us s) (hfuel : 6 * us.length + 1 ≤ fuel + 1) :
    Follows c ts scopes (us.length + 1) (climb c ts (fuel + 1) least lhs s)
      (Parser.climb c (fuel + 1) (depth scopes) least lhs us) := by
  rw [climb, h.peek_bind, Parser.climb.eq_def]
  cases us with
  | nil => exact .ok h (Nat.lt_succ_self _)
  | cons t us =>
    obtain ⟨kind, lexeme, pos⟩ := t
    rw [List.length_cons] at hfuel ⊢
    cases kind with
    | operator op =>
      dsimp only [Context.peek, List.headD_cons]
      refine .ite (fun _ => .ok h (by simp)) fun _ => ?_
      rw [h.next_cons]
      refine (ih.expression h.tail (by omega)).bind fun rhs s' rest _ hat hlt => ?_
      exact (ih.climb hat (by omega)).mono (by omega)
    | _ => exact .ok h (by simp)

lemma signed_follows (h : At c ts scopes us s) (hfuel : 6 * us.length + 2 ≤ fuel + 1) :
    Follows c ts scopes us.length (signed c ts (fuel + 1) s) (Parser.signed c (fuel + 1) (depth scopes) us) := by
  rw [signed, h.peek_bind, Parser.signed.eq_def]
  cases us with
  | nil => exact ih.primary h (by omega)
  | cons t us =>
    obtain ⟨kind, lexeme, pos⟩ := t
    rw [List.length_cons] at hfuel
    cases kind with
    | operator op =>
      cases op with
      | minus =>
        dsimp only [Context.peek, List.headD_cons]
        rw [h.next_cons]
        refine (ih.expression h.tail (by omega)).bind fun arg s' rest _ hat hlt => ?_
        exact .ok hat (hlt.trans (Nat.lt_succ_self _))
      | plus =>
        dsimp only [Context.peek, List.headD_cons]
        rw [h.next_cons]
        exact (ih.expression h.tail (by omega)).mono (Nat.le_succ _)
      | _ => exact ih.primary h (by rw [List.length_cons]; omega)
    | _ => exact ih.primary h (by rw [List.length_cons]; omega)

lemma primary_follows (h : At c ts scopes us s) (hfuel : 6 * us.length + 1 ≤ fuel + 1) :
    Follows c ts scopes us.length (primary c ts (fuel + 1) s) (Parser.primary c (fuel + 1) (depth scopes) us) := by
  rw [primary, Parser.primary.eq_def]
  cases us with
  | nil =>
    rw [h.next_nil]
    exact h.refuse_peek
  | cons t us =>
    have hpos := h.pos_le
    rw [h.next_cons]
    obtain ⟨kind, lexeme, pos⟩ := t
    rw [List.length_cons] at hfuel ⊢
    cases kind with
    | number x =>
      dsimp only
      rw [h.tail.peek_bind]
      change Follows c ts scopes _ ((if adjacent ⟨.number x, lexeme, pos⟩ (c.peek us) = true then _
        else _ : Reader Expr) _)
        (if adjacent ⟨.number x, lexeme, pos⟩ (c.peek us) = true then _ else _)
      exact .ite (fun _ => h.tail.refuse hpos) fun _ => .ok h.tail (Nat.lt_succ_self _)
    | lparen =>
      refine h.tail.openScope_bind fun s' hat => ?_
      refine (ih.expression hat (by omega)).bind fun inner s' rest _ hat hlt => ?_
      refine (hat.expect rfl).bind fun right s' rest _ hat hlt' => ?_
      exact hat.closeScope_bind fun s' hat => .ok hat (by omega)
    | ident =>
      dsimp only
      rw [h.tail.peek_bind]
      cases us with
      | nil => exact (ih.reference h.tail hpos (by omega)).mono (by omega)
      | cons n us =>
        obtain ⟨kind, lexeme', pos'⟩ := n
        rw [List.length_cons] at hfuel ⊢
        cases kind with
        | lbrace => exact (ih.loop h.tail hpos (by omega)).mono (by omega)
        | lparen => exact (ih.call h.tail hpos (by omega)).mono (by omega)
        | _ => exact (ih.reference h.tail hpos (by rw [List.length_cons]; omega)).mono (by rw [List.length_cons])
    | eof => exact absurd rfl h.ne_eof
    | _ => exact h.tail.refuse hpos

variable {name : Token}

lemma loop_follows {brace : Token} (h : At c ts scopes (brace :: us) s) (hname : name.pos ≤ c.src.length)
    (hfuel : 6 * us.length + 1 ≤ fuel + 1) :
    Follows c ts scopes us.length (loop c ts (fuel + 1) name s) (Parser.loop c (fuel + 1) (depth scopes) name us) := by
  rw [loop, Parser.loop]
  cases Keyword.ofName? name.lexeme with
  | none => exact h.refuse hname
  | some keyword =>
    dsimp only
    rw [h.next_cons]
    refine (h.tail.expect rfl).bind fun dim s' rest hdim hat hlt => ?_
    dsimp only
    refine .ite (fun _ => ?_) fun _ => ?_
    · obtain ⟨mark, rfl, heq⟩ := mark_of_expect rfl hdim
      have hstands := h.tail.laid.stands _ (heq ▸ List.mem_cons_self)
      exact hat.refuse (hstands.lt_past.le.trans hstands.past_le)
    · refine (hat.expect rfl).bind fun unbrace s' rest _ hat hlt' => ?_
      refine (hat.expect rfl).bind fun left s' rest _ hat hlt'' => ?_
      dsimp only
      rw [hat.level_bind, ← depth_loop]
      refine hat.openScope_bind fun s' hat => ?_
      refine (ih.expression hat (by omega)).bind fun body s' rest _ hat hltb => ?_
      refine (hat.expect rfl).bind fun right s' rest _ hat hltr => ?_
      exact hat.closeScope_bind fun s' hat => .ok hat (show rest.length < us.length by omega)

lemma unlessClosed_follows (h : At c ts scopes us s) (hfuel : 6 * us.length + 4 ≤ fuel) :
    Follows c ts scopes (us.length + 1) (unlessClosed c ts (arguments c ts fuel) s)
      (argumentsIn c fuel (depth scopes) us) := by
  rw [unlessClosed, h.peek_bind]
  cases us with
  | nil => exact (ih.arguments h hfuel).mono (Nat.le_succ _)
  | cons t us =>
    obtain ⟨kind, lexeme, pos⟩ := t
    cases kind with
    | rparen => exact .ok h (Nat.lt_succ_self _)
    | _ => exact (ih.arguments h hfuel).mono (Nat.le_succ _)

lemma call_follows {left : Token} (h : At c ts scopes (left :: us) s) (hname : name.pos ≤ c.src.length)
    (hfuel : 6 * us.length + 5 ≤ fuel + 1) :
    Follows c ts scopes us.length (call c ts (fuel + 1) name s)
      (Parser.call c (fuel + 1) (depth scopes) name left.pos us) := by
  rw [call, call_eq]
  cases Function.ofName? name.lexeme with
  | none => exact h.refuse hname
  | some fn =>
    dsimp only
    rw [h.next_cons, h.tail.level_bind, ← depth_call]
    refine h.tail.openScope_bind fun s' hat => ?_
    refine (unlessClosed_follows ih hat (by omega)).bind fun args s' rest _ hat hlt => ?_
    refine (hat.expect rfl).bind fun right s' rest _ hat hltr => ?_
    refine hat.closeScope_bind fun s' hat => ?_
    dsimp only at hltr ⊢
    exact .ite (fun _ => hat.refuse hname) fun _ => .ok hat (by omega)

lemma arguments_follows (h : At c ts scopes us s) (hfuel : 6 * us.length + 4 ≤ fuel + 1) :
    Follows c ts scopes us.length (arguments c ts (fuel + 1) s) (Parser.arguments c (fuel + 1) (depth scopes) us) := by
  rw [arguments, Parser.arguments]
  refine (ih.expression h (by omega)).bind fun arg s' rest _ hat hlt => ?_
  rw [hat.peek_bind]
  cases rest with
  | nil => exact .ok hat hlt
  | cons t rest =>
    obtain ⟨kind, lexeme, pos⟩ := t
    rw [List.length_cons] at hlt
    cases kind with
    | comma =>
      dsimp only [Context.peek, List.headD_cons]
      rw [hat.next_cons]
      refine (ih.arguments hat.tail (by omega)).bind fun args s' rest _ hat hlt' => ?_
      exact .ok hat (show rest.length < us.length by omega)
    | _ => exact .ok hat hlt

lemma reference_follows (h : At c ts scopes us s) (hname : name.pos ≤ c.src.length)
    (hfuel : 6 * us.length + 2 ≤ fuel + 1) :
    Follows c ts scopes (us.length + 1) (reference c ts (fuel + 1) name s)
      (Parser.reference c (fuel + 1) (depth scopes) name us) := by
  rw [reference, Parser.reference]
  dsimp only
  cases c.symbols.variableArity? name.lexeme with
  | some arity =>
    refine (ih.exactSubscripts h hname (by omega)).bind fun subs s' rest _ hat hlt => ?_
    dsimp only
    rw [hat.peek_bind]
    cases rest with
    | nil => exact .ok hat hlt
    | cons t rest =>
      obtain ⟨kind, lexeme, pos⟩ := t
      cases kind with
      | lbracket => exact hat.refuse_peek
      | _ => exact .ok hat hlt
  | none =>
    dsimp only
    refine .ite (fun _ => ?_) fun _ => ?_
    · refine (ih.subscripts h (by omega)).bind fun subs s' rest _ hat hlt => ?_
      exact .ok hat hlt
    refine .ite (fun _ => ?_) fun _ => ?_
    · exact .ite (fun _ => h.refuse hname) fun _ => .ok h (Nat.lt_succ_self _)
    · exact .ite (fun _ => h.refuse hname) fun _ => h.refuse hname

lemma exactSubscripts_follows {arity got : Nat} {stop : Int} (h : At c ts scopes us s)
    (hname : name.pos ≤ c.src.length) (hfuel : 6 * us.length + 1 ≤ fuel + 1) :
    Follows c ts scopes (us.length + 1) (exactSubscripts c ts (fuel + 1) name arity got stop s)
      (Parser.exactSubscripts c (fuel + 1) (depth scopes) name arity got stop us) := by
  rw [exactSubscripts, Parser.exactSubscripts.eq_def]
  dsimp only
  refine .ite (fun _ => .ok h (Nat.lt_succ_self _)) fun _ => ?_
  rw [h.peek_bind]
  cases us with
  | nil => exact h.refuse hname
  | cons t us =>
    obtain ⟨kind, lexeme, pos⟩ := t
    rw [List.length_cons] at hfuel
    cases kind with
    | lbracket =>
      refine (ih.subscript h (by omega)).bind fun sub s' rest _ hat hlt => ?_
      refine (ih.exactSubscripts hat hname (by omega)).bind fun subs s' rest' _ hat hlt' => ?_
      exact .ok hat (show rest'.length < us.length + 1 + 1 by omega)
    | _ => exact h.refuse hname

lemma subscripts_follows {stop : Int} (h : At c ts scopes us s) (hfuel : 6 * us.length + 1 ≤ fuel + 1) :
    Follows c ts scopes (us.length + 1) (subscripts c ts (fuel + 1) stop s)
      (Parser.subscripts c (fuel + 1) (depth scopes) stop us) := by
  rw [subscripts, h.peek_bind, Parser.subscripts.eq_def]
  cases us with
  | nil => exact .ok h (Nat.lt_succ_self _)
  | cons t us =>
    obtain ⟨kind, lexeme, pos⟩ := t
    rw [List.length_cons] at hfuel
    cases kind with
    | lbracket =>
      refine (ih.subscript h (by omega)).bind fun sub s' rest _ hat hlt => ?_
      refine (ih.subscripts hat (by omega)).bind fun subs s' rest' _ hat hlt' => ?_
      exact .ok hat (show rest'.length < us.length + 1 + 1 by omega)
    | _ => exact .ok h (Nat.lt_succ_self _)

lemma index_follows (start : Nat) (h : At c ts (.subscript :: scopes) us s) (hfuel : 6 * us.length + 3 ≤ fuel) :
    Follows c ts scopes us.length
      ((do
        let e ← expression c ts fuel 0
        let i ← constantIndex c e
        let right ← expect c ts .rbracket
        closeScope .subscript
        return (.index ⟨start + 1, right.pos - 1⟩ i (keptExpr e), (right.pos : Int)) : Reader (Subscript × Int)) s)
      (do
        let (e, us) ← Parser.expression c fuel (depth scopes) 0 us
        let i ← c.constantIndex e
        let (right, us) ← c.expect .rbracket us
        return ((.index ⟨start + 1, right.pos - 1⟩ i (keptExpr e), (right.pos : Int)), us)) := by
  refine (ih.expression h hfuel).bind fun e s' rest he hat hlt => ?_
  obtain ⟨⟨p, -, htokens, rfl⟩, -⟩ := (soundAt c fuel).expression (Nat.zero_le _) he
  have hlaid := h.laid
  rw [← htokens] at hlaid
  refine hat.agrees_bind (agrees_constantIndex hlaid.front) fun i _ => ?_
  refine (hat.expect rfl).bind fun right s' rest' _ hat hlt' => ?_
  exact hat.closeScope_bind fun s' hat => .ok hat (show rest'.length < us.length by omega)

lemma subscript_follows {left : Token} (h : At c ts scopes (left :: us) s) (hfuel : 6 * us.length + 4 ≤ fuel + 1) :
    Follows c ts scopes us.length (subscript c ts (fuel + 1) s)
      (Parser.subscript c (fuel + 1) (depth scopes) left.pos us) := by
  rw [subscript, Parser.subscript.eq_def, h.next_cons]
  refine h.tail.openScope_bind fun s' hat => ?_
  rw [hat.peek_bind, hat.peekBehind_bind]
  have hindex := index_follows ih left.pos hat (by omega)
  cases us with
  | nil => exact hindex
  | cons t us =>
    have hpos := hat.pos_le
    obtain ⟨kind, lexeme, pos⟩ := t
    cases kind with
    | ident =>
      cases us with
      | nil => exact hindex
      | cons t' us =>
        obtain ⟨kind', lexeme', pos'⟩ := t'
        cases kind' with
        | rbracket =>
          dsimp only [Context.peek, List.headD_cons, List.tail_cons]
          rw [hat.next_cons]
          refine hat.tail.agrees_bind (agrees_accept fun e he => ?_) fun sub _ => ?_
          · exact located_of_namedSubscript hpos he
          · rw [hat.tail.expect_cons rfl]
            exact hat.tail.tail.closeScope_bind fun s' hat => .ok hat (by simp)
        | _ => exact hindex
    | _ => exact hindex

end Step

theorem followsAt (c : Context) (ts : List Token) (fuel : Nat) : FollowsAt c ts fuel := by
  induction fuel with
  | zero => constructor <;> intros <;> omega
  | succ fuel ih =>
    exact {
      expression := expression_follows ih
      climb := climb_follows ih
      signed := signed_follows ih
      primary := primary_follows ih
      loop := loop_follows ih
      call := call_follows ih
      arguments := arguments_follows ih
      reference := reference_follows ih
      exactSubscripts := exactSubscripts_follows ih
      subscripts := subscripts_follows ih
      subscript := subscript_follows ih }

end LandUse.Cursor
