import LandUse.Proofs.Grammar.Phrase
import LandUse.Proofs.Outcome

namespace LandUse.Grammar

open LandUse.Parser Outcome

variable {c : Context}

def Level.rank : Level → Nat
  | rel => 1
  | add => 2
  | mul => 3
  | pow => 4
  | prim => 5

def Level.bound : Level → Nat
  | rel => 2
  | add => 3
  | mul => 4
  | pow => 4
  | prim => 5

def Level.ofLeast : Nat → Level
  | 0 | 1 => rel
  | 2 => add
  | 3 => mul
  | _ => pow

variable {l : Level} {op : Operator} {ts : List Token}

lemma Level.rank_tighter (h : l ≠ .prim) : l.tighter.rank = l.rank + 1 := by
  cases l <;> simp_all [rank, tighter]

lemma Level.rank_le (l : Level) : l.rank ≤ 5 := by cases l <;> decide

lemma Level.rank_injective {l' : Level} (h : l.rank = l'.rank) : l = l' := by
  cases l <;> cases l' <;> simp_all [rank]

lemma Level.rank_ofLeast {n : Nat} (h : n ≤ 4) : (ofLeast n).rank = max n 1 := by
  obtain rfl | rfl | rfl | rfl | rfl : n = 0 ∨ n = 1 ∨ n = 2 ∨ n = 3 ∨ n = 4 := by omega
  all_goals rfl

lemma rank_levelOf (op : Operator) : (levelOf op).rank = op.precedence := by cases op <;> rfl

lemma levelOf_eq_pow : levelOf op = .pow ↔ op = .pow := by cases op <;> simp [levelOf]

lemma levelOf_ne_prim (op : Operator) : levelOf op ≠ .prim := by cases op <;> decide

lemma Level.bound_le (l : Level) : l.bound ≤ l.rank + 1 := by cases l <;> decide

lemma bound_levelOf (op : Operator) : (levelOf op).bound = rightPrecedence op := by cases op <;> rfl

lemma rightPrecedence_le (op : Operator) : rightPrecedence op ≤ 4 := by cases op <;> decide

lemma rightPrecedence_eq (h : op ≠ .pow) : rightPrecedence op = op.precedence + 1 := by
  cases op <;> first | rfl | exact absurd rfl h

lemma ofLeast_rightPrecedence (h : op ≠ .pow) : Level.ofLeast (rightPrecedence op) = (levelOf op).tighter := by
  cases op <;> simp_all [Level.ofLeast, levelOf, Level.tighter, rightPrecedence, Operator.rightAssociative,
    Operator.precedence]

lemma Derives.loosen {l' : Level} {p : Phrase} (h : Derives c l p) (hl : l'.rank ≤ l.rank) : Derives c l' p := by
  generalize hn : l.rank - l'.rank = n
  induction n generalizing l' with
  | zero =>
    obtain rfl := Level.rank_injective (by omega : l'.rank = l.rank)
    exact h
  | succ n ih =>
    have hp : l' ≠ .prim := by
      rintro rfl
      have hl' : Level.prim.rank = 5 := rfl
      have := l.rank_le
      omega
    have ht := Level.rank_tighter hp
    exact .tighter hp (ih (by omega) (by omega))

lemma Derives.binary {l : Level} {p q : Phrase} {op : Operator} (mark : Mark) (hp : Derives c l p)
    (hop : op.precedence < l.bound) (hq : Derives c (.ofLeast (rightPrecedence op)) q) :
    Derives c (levelOf op) (.binary p op mark q) := by
  by_cases h : op = .pow
  · subst h
    cases l <;> simp [Level.bound, Operator.precedence] at hop
    exact .power mark hp hq
  · have hb := l.bound_le
    have hr := rank_levelOf op
    rw [ofLeast_rightPrecedence h] at hq
    exact .operation mark rfl (mt levelOf_eq_pow.mp h) (hp.loosen (by omega)) hq

def Stops (n : Nat) (ts : List Token) : Prop :=
  ∀ op lexeme pos rest, ts = ⟨.operator op, lexeme, pos⟩ :: rest → op.precedence < n

lemma Stops.mono {m n : Nat} (h : Stops m ts) (hmn : m ≤ n) : Stops n ts :=
  fun op lexeme pos rest hts => Nat.lt_of_lt_of_le (h op lexeme pos rest hts) hmn

lemma stops_five (ts : List Token) : Stops 5 ts := by
  intro op _ _ _ _
  cases op <;> decide

def Reads (c : Context) (l : Level) (d : Depth) (ts : List Token) (e : Expr) (rest : List Token) : Prop :=
  ∃ p, Derives c l p ∧ p.tokens ++ rest = ts ∧ p.expr d = e

def Brackets.Derived (c : Context) (bs : Brackets) : Prop :=
  (∀ p ∈ bs.phrases, Derives c .rel p) ∧ bs.Resolved c

lemma Brackets.Derived.done : Brackets.Derived c .done := ⟨by simp [Brackets.phrases], trivial⟩

lemma Arguments.exprs_eq (d : Depth) (args : Arguments) : args.exprs d = args.phrases.map (Phrase.expr d) := by
  fun_induction Arguments.phrases args with
  | case1 arg => rfl
  | case2 arg comma rest ih => rw [Arguments.exprs, ih, List.map_cons]

lemma Arguments.length_exprs (d : Depth) (args : Arguments) : (args.exprs d).length = args.phrases.length := by
  rw [exprs_eq, List.length_map]

theorem Denotes.of_constant {d : Depth} {x : Float} : {p : Phrase} → c.constant (p.expr d) = .ok x → Denotes p x
  | .number _ mark, h => by
    simp only [Phrase.expr, Context.constant, Except.ok.injEq] at h
    exact h ▸ .number _ mark
  | .group left _ right, h => .group left right (of_constant h)
  | .plus sign _, h => .plus sign (of_constant h)
  | .minus sign p, h => by
    simp only [Phrase.expr, Context.constant, bind_eq_ok] at h
    obtain ⟨y, hy, h⟩ := h
    split at h
    · next hv => exact .minus sign (of_constant hy) (hv.trans (by simpa using h))
    · simp [fail] at h
  | .binary p op mark q, h => by
    simp only [Phrase.expr, binaryExpr, Context.constant, bind_eq_ok] at h
    obtain ⟨y, hy, z, hz, h⟩ := h
    split at h
    · next hv => exact .binary mark (of_constant hy) (of_constant hz) (hv.trans (by simpa using h))
    · simp [fail] at h
  | .loop .., h | .call .., h | .decision .., h | .parameter .., h | .equation _, h => by
    simp [Phrase.expr, Context.constant, fail] at h

lemma index_of_constantIndex {p : Phrase} {d : Depth} {i : Nat} (h : c.constantIndex (p.expr d) = .ok i) :
    ∃ x, Denotes p x ∧ IsIndex x i := by
  simp only [Context.constantIndex, bind_eq_ok] at h
  obtain ⟨x, hx, h⟩ := h
  split at h
  · simp [fail] at h
  · next hi =>
    rw [Bool.or_eq_true, not_or, decide_eq_true_eq, Bool.not_eq_true', Bool.not_eq_false, Bool.or_eq_true] at hi
    exact ⟨x, .of_constant hx, hi.1, hi.2, by simpa using h⟩

def isPlain : TokenKind → Bool
  | .number _ | .operator _ => false
  | _ => true

lemma kind_eq_of_name {k what : TokenKind} (h : k.name = what.name) (hw : isPlain what) : k = what := by
  cases k <;> cases what <;> simp_all [TokenKind.name, isPlain]

lemma mark_of_expect {what : TokenKind} {rest : List Token} {t : Token} (hw : isPlain what)
    (h : c.expect what ts = .ok (t, rest)) : ∃ m : Mark, t = m.token what ∧ ts = m.token what :: rest := by
  cases ts with
  | nil => simp [Context.expect, fail] at h
  | cons u r =>
    obtain ⟨k, lexeme, pos⟩ := u
    simp only [Context.expect, beq_iff_eq] at h
    split at h
    · next hk =>
      obtain rfl := kind_eq_of_name hk hw
      simp only [Except.ok.injEq, Prod.mk.injEq] at h
      exact ⟨⟨lexeme, pos⟩, h.1.symm, by rw [h.2]⟩
    · simp [fail] at h

lemma keyword_name {s : String} {k : Keyword} (h : Keyword.ofName? s = some k) : k.name = s := by
  simpa using List.find?_some h

lemma function_name {s : String} {f : Function} (h : Function.ofName? s = some f) : f.name = s := by
  simpa using List.find?_some h

structure SoundAt (c : Context) (fuel : Nat) : Prop where
  expression : ∀ {d least ts e rest}, least ≤ 4 → expression c fuel d least ts = .ok (e, rest) →
    Reads c (.ofLeast least) d ts e rest ∧ Stops least rest
  climb : ∀ {d least l p ts e rest}, Derives c l p → Stops l.bound ts → least ≤ l.rank → least ≤ 4 →
    climb c fuel d least (p.expr d) ts = .ok (e, rest) →
    Reads c (.ofLeast least) d (p.tokens ++ ts) e rest ∧ Stops least rest
  signed : ∀ {d ts e rest}, signed c fuel d ts = .ok (e, rest) →
    ∃ l : Level, 4 ≤ l.rank ∧ Reads c l d ts e rest ∧ Stops l.bound rest
  primary : ∀ {d ts e rest}, primary c fuel d ts = .ok (e, rest) → Reads c .prim d ts e rest
  loop : ∀ {d ts e rest} (name brace : Mark), loop c fuel d (name.token .ident) ts = .ok (e, rest) →
    Reads c .prim d (name.token .ident :: brace.token .lbrace :: ts) e rest
  call : ∀ {d ts e rest} (name left : Mark), call c fuel d (name.token .ident) left.pos ts = .ok (e, rest) →
    Reads c .prim d (name.token .ident :: left.token .lparen :: ts) e rest
  arguments : ∀ {d ts es seps rest}, arguments c fuel d ts = .ok ((es, seps), rest) →
    ∃ args : Arguments, (∀ p ∈ args.phrases, Derives c .rel p) ∧ args.tokens ++ rest = ts ∧
      args.exprs d = es ∧ args.seps = seps
  reference : ∀ {d ts e rest} (name : Mark), reference c fuel d (name.token .ident) ts = .ok (e, rest) →
    Reads c .prim d (name.token .ident :: ts) e rest
  exactSubscripts : ∀ {d id arity got stop ts subs stop' rest}, got ≤ arity →
    exactSubscripts c fuel d id arity got stop ts = .ok ((subs, stop'), rest) →
    ∃ bs : Brackets, bs.Derived c ∧ got + bs.length = arity ∧ bs.tokens ++ rest = ts ∧
      bs.subscripts d = subs ∧ bs.stop stop = stop'
  subscripts : ∀ {d stop ts subs stop' rest}, subscripts c fuel d stop ts = .ok ((subs, stop'), rest) →
    ∃ bs : Brackets, bs.Derived c ∧ bs.tokens ++ rest = ts ∧ bs.subscripts d = subs ∧ bs.stop stop = stop'
  subscript : ∀ {d ts sub close rest r} (left : Mark) {tail : Brackets},
    subscript c fuel d left.pos ts = .ok ((sub, close), rest) → tail.Derived c → tail.tokens ++ r = rest →
    ∃ bs : Brackets, bs.Derived c ∧ bs.length = tail.length + 1 ∧ bs.tokens ++ r = left.token .lbracket :: ts ∧
      bs.subscripts d = sub :: tail.subscripts d ∧ ∀ stop, bs.stop stop = tail.stop close

section Step

variable {fuel : Nat} (ih : SoundAt c fuel)

include ih

variable {d : Depth} {ts rest : List Token} {e : Expr}

lemma expression_step {least : Nat} (hl : least ≤ 4) (h : expression c (fuel + 1) d least ts = .ok (e, rest)) :
    Reads c (.ofLeast least) d ts e rest ∧ Stops least rest := by
  simp only [Parser.expression, bind_eq_ok, Prod.exists] at h
  obtain ⟨lhs, ts', hs, h⟩ := h
  obtain ⟨l, hl', ⟨p, hp, rfl, rfl⟩, hr⟩ := ih.signed hs
  exact ih.climb hp hr (by omega) hl h

lemma climb_step {least : Nat} {l : Level} {p : Phrase} (hp : Derives c l p) (hs : Stops l.bound ts)
    (hl : least ≤ l.rank) (hl' : least ≤ 4) (h : climb c (fuel + 1) d least (p.expr d) ts = .ok (e, rest)) :
    Reads c (.ofLeast least) d (p.tokens ++ ts) e rest ∧ Stops least rest := by
  have hd : Derives c (.ofLeast least) p := by
    have hr := Level.rank_ofLeast hl'
    have : 1 ≤ l.rank := by cases l <;> decide
    exact hp.loosen (by omega)
  unfold Parser.climb at h
  split at h
  · next op lexeme pos r =>
    split at h
    · next hop =>
      simp only [Except.ok.injEq, Prod.mk.injEq] at h
      obtain ⟨rfl, rfl⟩ := h
      refine ⟨⟨p, hd, rfl, rfl⟩, ?_⟩
      intro op' lexeme' pos' rest' hts
      simp only [List.cons.injEq, Token.mk.injEq, TokenKind.operator.injEq] at hts
      exact hts.1.1 ▸ hop
    · next hop =>
      simp only [bind_eq_ok, Prod.exists] at h
      obtain ⟨rhs, r', hr, h⟩ := h
      obtain ⟨⟨q, hq, rfl, rfl⟩, hq'⟩ := ih.expression (rightPrecedence_le op) hr
      have hb := hp.binary ⟨lexeme, pos⟩ (hs op lexeme pos _ rfl) hq
      have hr' := rank_levelOf op
      have := ih.climb (p := .binary p op ⟨lexeme, pos⟩ q) hb (bound_levelOf op ▸ hq') (by omega) hl' h
      simpa [Phrase.tokens] using this
  · next hts =>
    simp only [Except.ok.injEq, Prod.mk.injEq] at h
    obtain ⟨rfl, rfl⟩ := h
    exact ⟨⟨p, hd, rfl, rfl⟩, fun op lexeme pos r hr => (hts op lexeme pos r hr).elim⟩

lemma signed_step (h : signed c (fuel + 1) d ts = .ok (e, rest)) :
    ∃ l : Level, 4 ≤ l.rank ∧ Reads c l d ts e rest ∧ Stops l.bound rest := by
  unfold Parser.signed at h
  split at h
  · next lexeme pos r =>
    simp only [bind_eq_ok, Prod.exists] at h
    obtain ⟨arg, r', ha, h⟩ := h
    obtain ⟨⟨p, hp, rfl, rfl⟩, hs⟩ := ih.expression (by decide) ha
    simp only [pure_eq_ok, Except.ok.injEq, Prod.mk.injEq] at h
    obtain ⟨rfl, rfl⟩ := h
    exact ⟨.pow, by decide, ⟨.minus ⟨lexeme, pos⟩ p, .minus _ hp, rfl, rfl⟩, hs⟩
  · next lexeme pos r =>
    obtain ⟨⟨p, hp, rfl, rfl⟩, hs⟩ := ih.expression (by decide) h
    exact ⟨.pow, by decide, ⟨.plus ⟨lexeme, pos⟩ p, .plus _ hp, rfl, rfl⟩, hs⟩
  · exact ⟨.prim, by decide, ih.primary h, stops_five _⟩

lemma primary_step (h : primary c (fuel + 1) d ts = .ok (e, rest)) : Reads c .prim d ts e rest := by
  unfold Parser.primary at h
  split at h
  · next x lexeme pos r =>
    rcases ite_eq_iff.mp h with ⟨-, h⟩ | ⟨-, h⟩
    · simp [fail] at h
    · simp only [Except.ok.injEq, Prod.mk.injEq] at h
      obtain ⟨rfl, rfl⟩ := h
      exact ⟨.number x ⟨lexeme, pos⟩, .number _ _, rfl, rfl⟩
  · next lexeme pos r =>
    simp only [bind_eq_ok, Prod.exists] at h
    obtain ⟨inner, r', hi, close, r'', hc, h⟩ := h
    obtain ⟨⟨p, hp, rfl, rfl⟩, -⟩ := ih.expression (by decide) hi
    obtain ⟨right, rfl, rfl⟩ := mark_of_expect rfl hc
    simp only [pure_eq_ok, Except.ok.injEq, Prod.mk.injEq] at h
    obtain ⟨rfl, rfl⟩ := h
    exact ⟨.group ⟨lexeme, pos⟩ p right, .group _ _ hp, by simp [Phrase.tokens], rfl⟩
  · next name pos lexeme brace r => exact ih.loop ⟨name, pos⟩ ⟨lexeme, brace⟩ h
  · next name pos lexeme start r => exact ih.call ⟨name, pos⟩ ⟨lexeme, start⟩ h
  · next name pos r _ _ => exact ih.reference ⟨name, pos⟩ h
  · simp [Context.unexpected, fail] at h

lemma loop_step (name brace : Mark) (h : loop c (fuel + 1) d (name.token .ident) ts = .ok (e, rest)) :
    Reads c .prim d (name.token .ident :: brace.token .lbrace :: ts) e rest := by
  unfold Parser.loop at h
  split at h
  · simp [fail] at h
  · next keyword hk =>
    simp only [bind_eq_ok, Prod.exists] at h
    obtain ⟨dim, r₁, h₁, h⟩ := h
    obtain ⟨dim, rfl, rfl⟩ := mark_of_expect rfl h₁
    split at h
    · simp [fail] at h
    · next hd =>
      simp only [bind_eq_ok, Prod.exists] at h
      obtain ⟨rb, r₂, h₂, lp, r₃, h₃, body, r₄, h₄, rp, r₅, h₅, h⟩ := h
      obtain ⟨unbrace, rfl, rfl⟩ := mark_of_expect rfl h₂
      obtain ⟨left, rfl, rfl⟩ := mark_of_expect rfl h₃
      obtain ⟨⟨p, hp, rfl, rfl⟩, -⟩ := ih.expression (by decide) h₄
      obtain ⟨right, rfl, rfl⟩ := mark_of_expect rfl h₅
      simp only [pure_eq_ok, Except.ok.injEq, Prod.mk.injEq] at h
      obtain ⟨rfl, rfl⟩ := h
      refine ⟨.loop keyword name.pos brace dim unbrace left p right, .loop _ _ _ _ _ _ (by simpa using hd) hp, ?_, rfl⟩
      simp [Phrase.tokens, keyword_name hk]

lemma call_step (name left : Mark) (h : call c (fuel + 1) d (name.token .ident) left.pos ts = .ok (e, rest)) :
    Reads c .prim d (name.token .ident :: left.token .lparen :: ts) e rest := by
  unfold Parser.call at h
  split at h
  · simp [fail] at h
  · next fn hf =>
    split at h
    · -- no function takes an empty list of arguments
      simp only [ok_bind, bind_eq_ok, Prod.exists] at h
      obtain ⟨rp, r, -, h⟩ := h
      split at h
      · simp [fail] at h
      · next ha => cases fn <;> simp [Function.accepts, Function.minArgs] at ha
    · simp only [bind_eq_ok, Prod.exists] at h
      obtain ⟨es, seps, r₁, h₁, rp, r₂, h₂, h⟩ := h
      obtain ⟨args, hd, rfl, rfl, rfl⟩ := ih.arguments h₁
      obtain ⟨right, rfl, rfl⟩ := mark_of_expect rfl h₂
      split at h
      · simp [fail] at h
      · next ha =>
        simp only [pure_eq_ok, Except.ok.injEq, Prod.mk.injEq] at h
        obtain ⟨rfl, rfl⟩ := h
        refine ⟨.call fn name.pos left args right, .call _ _ _ hd ?_, ?_, rfl⟩
        · simpa [Arguments.length_exprs] using ha
        · simp [Phrase.tokens, function_name hf]

lemma arguments_step {es : List Expr} {seps : List Int} (h : arguments c (fuel + 1) d ts = .ok ((es, seps), rest)) :
    ∃ args : Arguments, (∀ p ∈ args.phrases, Derives c .rel p) ∧ args.tokens ++ rest = ts ∧
      args.exprs d = es ∧ args.seps = seps := by
  simp only [Parser.arguments, bind_eq_ok, Prod.exists] at h
  obtain ⟨arg, r₁, h₁, h⟩ := h
  obtain ⟨⟨p, hp, rfl, rfl⟩, -⟩ := ih.expression (by decide) h₁
  split at h
  · next lexeme pos r =>
    simp only [bind_eq_ok, Prod.exists] at h
    obtain ⟨es', seps', r₂, h₂, h⟩ := h
    obtain ⟨args, hd, rfl, rfl, rfl⟩ := ih.arguments h₂
    simp only [pure_eq_ok, Except.ok.injEq, Prod.mk.injEq] at h
    obtain ⟨⟨rfl, rfl⟩, rfl⟩ := h
    exact ⟨.more p ⟨lexeme, pos⟩ args, List.forall_mem_cons.mpr ⟨hp, hd⟩, by simp [Arguments.tokens], rfl, rfl⟩
  · simp only [pure_eq_ok, Except.ok.injEq, Prod.mk.injEq] at h
    obtain ⟨⟨rfl, rfl⟩, rfl⟩ := h
    exact ⟨.last p, List.forall_mem_singleton.mpr hp, rfl, rfl, rfl⟩

lemma reference_step (name : Mark) (h : reference c (fuel + 1) d (name.token .ident) ts = .ok (e, rest)) :
    Reads c .prim d (name.token .ident :: ts) e rest := by
  unfold Parser.reference at h
  simp only at h
  split at h
  · next arity hv =>
    simp only [bind_eq_ok, Prod.exists] at h
    obtain ⟨subs, stop, r₁, h₁, h⟩ := h
    obtain ⟨bs, hd, hlen, rfl, rfl, rfl⟩ := ih.exactSubscripts (Nat.zero_le _) h₁
    split at h
    · simp [fail] at h
    · simp only [pure_eq_ok, Except.ok.injEq, Prod.mk.injEq] at h
      obtain ⟨rfl, rfl⟩ := h
      refine ⟨.decision name bs, .decision (hv.trans ?_) hd.1 hd.2, rfl, rfl⟩
      rw [← hlen, Nat.zero_add]
  · next hv =>
    split at h
    · next hp =>
      simp only [bind_eq_ok, Prod.exists] at h
      obtain ⟨subs, stop, r₁, h₁, h⟩ := h
      obtain ⟨bs, hd, rfl, rfl, rfl⟩ := ih.subscripts h₁
      simp only [pure_eq_ok, Except.ok.injEq, Prod.mk.injEq] at h
      obtain ⟨rfl, rfl⟩ := h
      exact ⟨.parameter name bs, .parameter hv hp hd.1 hd.2, rfl, rfl⟩
    · next hp =>
      split at h
      · next he =>
        split at h
        · simp [fail] at h
        · next hself =>
          simp only [Except.ok.injEq, Prod.mk.injEq] at h
          obtain ⟨rfl, rfl⟩ := h
          exact ⟨.equation name, .equation hv (by simpa using hp) he (by simpa using hself), rfl, rfl⟩
      · split at h <;> simp [fail] at h

lemma exactSubscripts_step {id : Token} {arity got : Nat} {stop stop' : Int} {subs : List Subscript}
    (hg : got ≤ arity) (h : exactSubscripts c (fuel + 1) d id arity got stop ts = .ok ((subs, stop'), rest)) :
    ∃ bs : Brackets, bs.Derived c ∧ got + bs.length = arity ∧ bs.tokens ++ rest = ts ∧
      bs.subscripts d = subs ∧ bs.stop stop = stop' := by
  unfold Parser.exactSubscripts at h
  split at h
  · next ha =>
    simp only [Except.ok.injEq, Prod.mk.injEq] at h
    obtain ⟨⟨rfl, rfl⟩, rfl⟩ := h
    exact ⟨.done, .done, by simp only [Brackets.length]; omega, rfl, rfl, rfl⟩
  · next ha =>
    split at h
    · next lexeme pos r =>
      simp only [bind_eq_ok, Prod.exists] at h
      obtain ⟨sub, close, r₁, h₁, subs', stop₁, r₂, h₂, h⟩ := h
      obtain ⟨tail, hd, hlen, ht, rfl, rfl⟩ := ih.exactSubscripts (by omega) h₂
      obtain ⟨bs, hd', hlen', ht', hs, hstop⟩ := ih.subscript ⟨lexeme, pos⟩ h₁ hd ht
      simp only [pure_eq_ok, Except.ok.injEq, Prod.mk.injEq] at h
      obtain ⟨⟨rfl, rfl⟩, rfl⟩ := h
      exact ⟨bs, hd', by omega, ht', hs, hstop _⟩
    · simp [fail] at h

lemma subscripts_step {stop stop' : Int} {subs : List Subscript}
    (h : subscripts c (fuel + 1) d stop ts = .ok ((subs, stop'), rest)) :
    ∃ bs : Brackets, bs.Derived c ∧ bs.tokens ++ rest = ts ∧ bs.subscripts d = subs ∧ bs.stop stop = stop' := by
  unfold Parser.subscripts at h
  split at h
  · next lexeme pos r =>
    simp only [bind_eq_ok, Prod.exists] at h
    obtain ⟨sub, close, r₁, h₁, subs', stop₁, r₂, h₂, h⟩ := h
    obtain ⟨tail, hd, ht, rfl, rfl⟩ := ih.subscripts h₂
    obtain ⟨bs, hd', -, ht', hs, hstop⟩ := ih.subscript ⟨lexeme, pos⟩ h₁ hd ht
    simp only [pure_eq_ok, Except.ok.injEq, Prod.mk.injEq] at h
    obtain ⟨⟨rfl, rfl⟩, rfl⟩ := h
    exact ⟨bs, hd', ht', hs, hstop _⟩
  · simp only [Except.ok.injEq, Prod.mk.injEq] at h
    obtain ⟨⟨rfl, rfl⟩, rfl⟩ := h
    exact ⟨.done, .done, rfl, rfl, rfl⟩

lemma subscript_step {r : List Token} {sub : Subscript} {close : Int} (left : Mark) {tail : Brackets}
    (h : subscript c (fuel + 1) d left.pos ts = .ok ((sub, close), rest)) (hd : tail.Derived c)
    (ht : tail.tokens ++ r = rest) :
    ∃ bs : Brackets, bs.Derived c ∧ bs.length = tail.length + 1 ∧ bs.tokens ++ r = left.token .lbracket :: ts ∧
      bs.subscripts d = sub :: tail.subscripts d ∧ ∀ stop, bs.stop stop = tail.stop close := by
  unfold Parser.subscript at h
  split at h
  · next name pos lexeme right r' =>
    simp only [bind_eq_ok] at h
    obtain ⟨s, hs, h⟩ := h
    simp only [pure_eq_ok, Except.ok.injEq, Prod.mk.injEq] at h
    obtain ⟨⟨rfl, rfl⟩, rfl⟩ := h
    simp only [Context.namedSubscript] at hs
    split at hs
    · next hn =>
      simp only [Except.ok.injEq] at hs
      exact ⟨.dim left ⟨name, pos⟩ ⟨lexeme, right⟩ tail, ⟨hd.1, hn, hd.2⟩, rfl, by simp [Brackets.tokens, ht],
        by rw [← hs]; rfl, fun _ => rfl⟩
    · next hn =>
      split at hs
      · next i hi =>
        simp only [Except.ok.injEq] at hs
        exact ⟨.option left ⟨name, pos⟩ ⟨lexeme, right⟩ i tail, ⟨hd.1, by simpa using hn, hi, hd.2⟩, rfl,
          by simp [Brackets.tokens, ht], by rw [← hs]; rfl, fun _ => rfl⟩
      · simp [fail] at hs
  · simp only [bind_eq_ok, Prod.exists] at h
    obtain ⟨e, r₁, h₁, i, hi, t, r₂, h₂, h⟩ := h
    obtain ⟨⟨p, hp, rfl, rfl⟩, -⟩ := ih.expression (by decide) h₁
    obtain ⟨right, rfl, rfl⟩ := mark_of_expect rfl h₂
    simp only [pure_eq_ok, Except.ok.injEq, Prod.mk.injEq] at h
    obtain ⟨⟨rfl, rfl⟩, rfl⟩ := h
    exact ⟨.constant left p right i tail, ⟨List.forall_mem_cons.mpr ⟨hp, hd.1⟩, index_of_constantIndex hi, hd.2⟩,
      rfl, by simp [Brackets.tokens, ht], rfl, fun _ => rfl⟩

end Step

theorem soundAt (c : Context) (fuel : Nat) : SoundAt c fuel := by
  induction fuel with
  | zero =>
    constructor <;> intros <;>
      simp_all [Parser.expression, Parser.climb, Parser.signed, Parser.primary, Parser.loop, Parser.call,
        Parser.arguments, Parser.reference, Parser.exactSubscripts, Parser.subscripts, Parser.subscript,
        Context.unexpected, fail]
  | succ fuel ih =>
    exact {
      expression := expression_step ih
      climb := climb_step ih
      signed := signed_step ih
      primary := primary_step ih
      loop := loop_step ih
      call := call_step ih
      arguments := arguments_step ih
      reference := reference_step ih
      exactSubscripts := exactSubscripts_step ih
      subscripts := subscripts_step ih
      subscript := subscript_step ih }

theorem derives_of_equation {e : Expr} (h : equation c ts = .ok e) :
    ∃ p, Derives c .rel p ∧ p.tokens = ts ∧ p.expr ⟨0, 0⟩ = e := by
  simp only [Parser.equation, bind_eq_ok, Prod.exists] at h
  obtain ⟨e', rest, h₁, h⟩ := h
  obtain ⟨⟨p, hp, ht, he⟩, -⟩ := (soundAt c _).expression (by decide) h₁
  split at h
  · next hr =>
    simp only [List.isEmpty_iff] at hr
    simp only [pure_eq_ok, Except.ok.injEq] at h
    exact ⟨p, hp, by simpa [hr] using ht, he.trans h⟩
  · simp [Context.unexpected, fail] at h

end LandUse.Grammar
