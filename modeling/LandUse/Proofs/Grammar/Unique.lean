import LandUse.Proofs.Grammar.Complete

/-! Where a phrase ends is settled by the parser; what is inside follows by induction on the number of tokens. -/

namespace LandUse.Grammar

open LandUse.Parser Outcome

variable {c : Context}
variable {p q : Phrase} {l : Level} {n : Nat} {e : Expr}

lemma Derives.boundary {r s : List Token} (hp : Derives c l p) (hq : Derives c l q) (hr : Stops l.rank r)
    (hr' : Closed r) (hs : Stops l.rank s) (hs' : Closed s) (h : p.tokens ++ r = q.tokens ++ s) :
    p.tokens = q.tokens ∧ r = s := by
  let fuel := 6 * p.tokens.length + 6 * q.tokens.length
  have ep : expression c fuel ⟨0, 0⟩ l.rank (p.tokens ++ r) = .ok (p.expr _, r) :=
    hp.complete.reads (Nat.le_refl _) hr hr' (by omega)
  have eq : expression c fuel ⟨0, 0⟩ l.rank (q.tokens ++ s) = .ok (q.expr _, s) :=
    hq.complete.reads (Nat.le_refl _) hs hs' (by omega)
  rw [h, eq, Except.ok.injEq, Prod.mk.injEq] at ep
  obtain ⟨-, rfl⟩ := ep
  exact ⟨List.append_cancel_right h, rfl⟩

lemma Derives.expr_eq (hp : Derives c .prim p) (hq : Derives c .prim q) (h : p.tokens = q.tokens) :
    p.expr ⟨0, 0⟩ = q.expr ⟨0, 0⟩ := by
  have ep : expression c (6 * p.tokens.length) ⟨0, 0⟩ 0 (p.tokens ++ []) = .ok (p.expr _, []) :=
    hp.complete.reads (Nat.zero_le _) (stops_nil _) closed_nil (Nat.le_refl _)
  have eq : expression c (6 * q.tokens.length) ⟨0, 0⟩ 0 (q.tokens ++ []) = .ok (q.expr _, []) :=
    hq.complete.reads (Nat.zero_le _) (stops_nil _) closed_nil (Nat.le_refl _)
  rw [h, eq, Except.ok.injEq, Prod.mk.injEq] at ep
  exact ep.1.symm

lemma Mark.eq_of_token {m m' : Mark} {k k' : TokenKind} (h : m.token k = m'.token k') : m = m' ∧ k = k' := by
  cases m
  cases m'
  simp_all [Mark.token]

def parametersOnly : Symbols := ⟨fun _ => false, fun _ => true, fun _ => none, fun _ => false, fun _ => none⟩

lemma Denotes.unique {x y : Float} (hx : Denotes p x) (hy : Denotes p y) : x = y := by
  have ex := hx.constant (c := ⟨parametersOnly, "", []⟩) ⟨0, 0⟩
  rw [hy.constant, Except.ok.injEq] at ex
  exact ex.symm

def UniqueBelow (c : Context) (n : Nat) : Prop :=
  ∀ ⦃l p q⦄, p.tokens.length < n → Derives c l p → Derives c l q → p.tokens = q.tokens → p = q

lemma UniqueBelow.mono {m : Nat} (h : UniqueBelow c n) (hm : m ≤ n) : UniqueBelow c m :=
  fun _ _ _ hp => h (Nat.lt_of_lt_of_le hp hm)

lemma arguments_unique (ih : UniqueBelow c n) : {args args' : Arguments} → args.tokens.length < n →
    (∀ p ∈ args.phrases, Derives c .rel p) → (∀ p ∈ args'.phrases, Derives c .rel p) →
    args.tokens = args'.tokens → args = args'
  | .last p, .last q, hn, hp, hq, h => by
    rw [ih hn (hp p List.mem_cons_self) (hq q List.mem_cons_self) h]
  | .last p, .more q comma rest, hn, hp, hq, h => by
    have := (hp p List.mem_cons_self).boundary (hq q List.mem_cons_self) (stops_nil _) closed_nil
      (stops_cons (t := comma.token .comma) (by simp) _) (closed_cons rfl rest.tokens)
      (by simpa [Arguments.tokens] using h)
    exact nomatch this.2
  | .more p comma rest, .last q, hn, hp, hq, h => by
    have := (hp p List.mem_cons_self).boundary (hq q List.mem_cons_self)
      (stops_cons (t := comma.token .comma) (by simp) _) (closed_cons rfl rest.tokens) (stops_nil _) closed_nil
      (by simpa [Arguments.tokens] using h)
    exact nomatch this.2
  | .more p comma rest, .more q comma' rest', hn, hp, hq, h => by
    simp only [Arguments.tokens, List.length_append, List.length_cons] at hn h
    obtain ⟨ht, hr⟩ := (hp p List.mem_cons_self).boundary (hq q List.mem_cons_self)
      (stops_cons (by simp) _) (closed_cons rfl _) (stops_cons (by simp) _) (closed_cons rfl _) h
    rw [List.cons.injEq] at hr
    rw [ih (by omega) (hp p List.mem_cons_self) (hq q List.mem_cons_self) ht, (Mark.eq_of_token hr.1).1,
      arguments_unique ih (by omega) (fun p h => hp p (List.mem_cons_of_mem _ h))
        (fun p h => hq p (List.mem_cons_of_mem _ h)) hr.2]

lemma brackets_unique (ih : UniqueBelow c n) : {bs bs' : Brackets} → bs.tokens.length < n →
    bs.Derived c → bs'.Derived c → bs.tokens = bs'.tokens → bs = bs'
  | .done, bs', _, _, _, h => by cases bs' <;> simp_all [Brackets.tokens]
  | bs@(.dim ..), .done, _, _, _, h | bs@(.option ..), .done, _, _, _, h | bs@(.constant ..), .done, _, _, _, h => by
    simp [Brackets.tokens] at h
  | .dim left name right rest, .dim left' name' right' rest', hn, hp, hq, h => by
    simp only [Brackets.tokens, List.length_cons, List.cons.injEq] at hn h
    obtain ⟨hl, hm, hr, ht⟩ := h
    obtain rfl : rest = rest' := brackets_unique ih (by omega) ⟨hp.1, hp.2.2⟩ ⟨hq.1, hq.2.2⟩ ht
    rw [(Mark.eq_of_token hl).1, (Mark.eq_of_token hm).1, (Mark.eq_of_token hr).1]
  | .option left name right i rest, .option left' name' right' i' rest', hn, hp, hq, h => by
    simp only [Brackets.tokens, List.length_cons, List.cons.injEq] at hn h
    obtain ⟨hl, hm, hr, ht⟩ := h
    obtain rfl := (Mark.eq_of_token hm).1
    obtain rfl : i = i' := Option.some.inj (hp.2.2.1.symm.trans hq.2.2.1)
    obtain rfl : rest = rest' := brackets_unique ih (by omega) ⟨hp.1, hp.2.2.2⟩ ⟨hq.1, hq.2.2.2⟩ ht
    rw [(Mark.eq_of_token hl).1, (Mark.eq_of_token hr).1]
  | .constant left value right i rest, .constant left' value' right' i' rest', hn, hp, hq, h => by
    simp only [Brackets.tokens, List.length_cons, List.length_append, List.cons.injEq] at hn h
    obtain ⟨hv, hr⟩ := List.forall_mem_cons.mp hp.1
    obtain ⟨hv', hr'⟩ := List.forall_mem_cons.mp hq.1
    obtain ⟨hl, ht⟩ := h
    obtain ⟨ht, hs⟩ := hv.boundary hv' (stops_cons (by simp) _) (closed_cons rfl _) (stops_cons (by simp) _)
      (closed_cons rfl _) ht
    obtain rfl := ih (by omega) hv hv' ht
    obtain ⟨⟨x, hx, hi⟩, hres⟩ := hp.2
    obtain ⟨⟨y, hy, hi'⟩, hres'⟩ := hq.2
    obtain rfl := hx.unique hy
    obtain rfl : i = i' := hi.2.2.symm.trans hi'.2.2
    rw [List.cons.injEq] at hs
    obtain rfl : rest = rest' := brackets_unique ih (by omega) ⟨hr, hres⟩ ⟨hr', hres'⟩ hs.2
    rw [(Mark.eq_of_token hl).1, (Mark.eq_of_token hs.1).1]
  | .dim left name right rest, .option left' name' right' i rest', _, hp, hq, h => by
    simp only [Brackets.tokens, List.cons.injEq] at h
    obtain rfl := (Mark.eq_of_token h.2.1).1
    exact absurd hp.2.1 (by simp [hq.2.1])
  | .option left name right i rest, .dim left' name' right' rest', _, hp, hq, h => by
    simp only [Brackets.tokens, List.cons.injEq] at h
    obtain rfl := (Mark.eq_of_token h.2.1).1
    exact absurd hq.2.1 (by simp [hp.2.1])
  | .constant .., .dim .., _, hp, _, h | .constant .., .option .., _, hp, _, h => by
    obtain ⟨x, hx, -⟩ := hp.2.1
    obtain ⟨t, r, ht, hk⟩ := hx.head_ne_ident
    simp only [Brackets.tokens, ht, List.cons_append, List.cons.injEq] at h
    exact absurd (h.2.1 ▸ rfl) hk
  | .dim .., .constant .., _, _, hq, h | .option .., .constant .., _, _, hq, h => by
    obtain ⟨x, hx, -⟩ := hq.2.1
    obtain ⟨t, r, ht, hk⟩ := hx.head_ne_ident
    simp only [Brackets.tokens, ht, List.cons_append, List.cons.injEq] at h
    exact absurd (h.2.1 ▸ rfl) hk

lemma tokens_of_closed {xs ys : List Token} {right right' : Mark} {k : TokenKind}
    (h : xs ++ [right.token k] = ys ++ [right'.token k]) : xs = ys ∧ right = right' := by
  obtain ⟨hs, ht⟩ := List.append_inj' h rfl
  exact ⟨hs, (Mark.eq_of_token (List.cons.inj ht).1).1⟩

lemma Keyword.name_injective {k k' : Keyword} (h : k.name = k'.name) : k = k' :=
  Option.some.inj (by rw [← ofName_keyword, ← ofName_keyword, h])

lemma Function.name_injective {f g : Function} (h : f.name = g.name) : f = g :=
  Option.some.inj (by rw [← ofName_function, ← ofName_function, h])

-- The trees are the same, so both phrases are of the same form; what is left is to compare their parts.
lemma prim_unique (ih : UniqueBelow c p.tokens.length) (hp : Derives c .prim p) (hq : Derives c .prim q)
    (h : p.tokens = q.tokens) : p = q := by
  have he := hp.expr_eq hq h
  cases hp <;> cases hq <;>
    try first
      | exact absurd rfl ‹Level.prim ≠ .prim›
      | exact absurd ‹_› (levelOf_ne_prim _)
      | simp [Phrase.expr] at he; done
  case number.number x mark y mark' =>
    simp only [Phrase.tokens, List.cons.injEq, and_true] at h
    obtain ⟨rfl, hx⟩ := Mark.eq_of_token h
    rw [TokenKind.number.inj hx]
  case group.group left right hb _ left' right' hb' =>
    simp only [Phrase.tokens, List.cons.injEq, List.length_cons, List.length_append] at ih h
    obtain ⟨ht, rfl⟩ := tokens_of_closed h.2
    rw [(Mark.eq_of_token h.1).1, ih (by omega) hb hb' ht]
  case loop.loop keyword pos brace unbrace left right hd hb _ _ keyword' pos' brace' unbrace' left' right' hd' hb' =>
    simp only [Phrase.tokens, List.cons.injEq, List.length_cons, List.length_append] at ih h
    obtain ⟨hk, hbrace, hdim, hunbrace, hleft, h⟩ := h
    obtain ⟨-, hname, rfl⟩ := Token.mk.inj hk
    obtain ⟨ht, rfl⟩ := tokens_of_closed h
    rw [Keyword.name_injective hname, (Mark.eq_of_token hbrace).1, (Mark.eq_of_token hdim).1,
      (Mark.eq_of_token hunbrace).1, (Mark.eq_of_token hleft).1, ih (by omega) hb hb' ht]
  case call.call pos left right ha hn _ _ pos' left' right' ha' hn' =>
    simp only [Phrase.tokens, List.cons.injEq, List.length_cons, List.length_append] at ih h
    obtain ⟨hf, hleft, h⟩ := h
    obtain ⟨-, hname, rfl⟩ := Token.mk.inj hf
    obtain ⟨ht, rfl⟩ := tokens_of_closed h
    rw [Function.name_injective hname, (Mark.eq_of_token hleft).1,
      arguments_unique ih (by omega) ha ha' ht]
  case decision.decision hv hb hr _ _ hv' hb' hr' =>
    simp only [Phrase.tokens, List.cons.injEq] at h
    rw [(Mark.eq_of_token h.1).1, brackets_unique ih (by simp [Phrase.tokens]) ⟨hb, hr⟩ ⟨hb', hr'⟩ h.2]
  case parameter.parameter hv hp hb hr _ _ hv' hp' hb' hr' =>
    simp only [Phrase.tokens, List.cons.injEq] at h
    rw [(Mark.eq_of_token h.1).1, brackets_unique ih (by simp [Phrase.tokens]) ⟨hb, hr⟩ ⟨hb', hr'⟩ h.2]
  case equation.equation =>
    simp only [Phrase.tokens, List.cons.injEq] at h
    rw [(Mark.eq_of_token h.1).1]

def Unsigned (c : Context) (p : Phrase) : Prop := ∃ q r, Derives c .prim q ∧ p.tokens = q.tokens ++ r

lemma Derives.unsigned (hp : Derives c .prim p) : Unsigned c p := ⟨p, [], hp, by simp⟩

lemma Unsigned.power (hp : Derives c .prim p) (mark : Mark) (q : Phrase) :
    Unsigned c (.binary p .pow mark q) := ⟨p, _, hp, rfl⟩

lemma Unsigned.head_ne (hp : Unsigned c p) (sign : Mark) (op : Operator) (ts : List Token) :
    sign.token (.operator op) :: ts ≠ p.tokens := by
  intro h
  obtain ⟨q, r, hq, ht⟩ := hp
  rw [ht] at h
  cases hq <;>
    first
      | exact absurd rfl ‹Level.prim ≠ .prim›
      | exact absurd ‹_› (levelOf_ne_prim _)
      | simp [Phrase.tokens] at h

lemma power_ne_prim {r : Phrase} {mark : Mark} (hp : Derives c .prim p) (hq : Derives c .prim q) :
    (Phrase.binary p .pow mark r).tokens ≠ q.tokens := by
  intro h
  have hb := hp.boundary hq (stops_five _) (closed_cons (t := mark.token (.operator .pow)) rfl r.tokens) (stops_nil _)
    closed_nil (by simpa [Phrase.tokens] using h)
  exact nomatch hb.2

lemma pow_unique (ih : UniqueBelow c p.tokens.length) (hp : Derives c .pow p) (hq : Derives c .pow q)
    (h : p.tokens = q.tokens) : p = q := by
  cases hp with
  | operation _ _ hl => exact (hl rfl).elim
  | tighter _ hp =>
    cases hq with
    | operation _ _ hl => exact (hl rfl).elim
    | tighter _ hq => exact prim_unique ih hp hq h
    | power mark hq _ => exact absurd h.symm (power_ne_prim hq hp)
    | minus sign _ | plus sign _ => exact absurd h.symm (hp.unsigned.head_ne sign _ _)
  | power mark hp hp' =>
    cases hq with
    | operation _ _ hl => exact (hl rfl).elim
    | tighter _ hq => exact absurd h (power_ne_prim hp hq)
    | power mark' hq hq' =>
      obtain ⟨ht, hr⟩ := hp.boundary hq (stops_five _) (closed_cons rfl _) (stops_five _) (closed_cons rfl _) h
      rw [List.cons.injEq] at hr
      simp only [Phrase.tokens, List.length_cons, List.length_append] at ih
      rw [ih (by omega) hp hq ht, (Mark.eq_of_token hr.1).1, ih (by omega) hp' hq' hr.2]
    | minus sign _ | plus sign _ => exact absurd h.symm ((Unsigned.power hp _ _).head_ne sign _ _)
  | minus sign hp =>
    cases hq with
    | operation _ _ hl => exact (hl rfl).elim
    | tighter _ hq => exact absurd h (hq.unsigned.head_ne sign _ _)
    | power _ hq _ => exact absurd h ((Unsigned.power hq _ _).head_ne sign _ _)
    | minus sign' hq =>
      simp only [Phrase.tokens, List.cons.injEq] at h
      rw [(Mark.eq_of_token h.1).1, ih (by simp [Phrase.tokens]) hp hq h.2]
    | plus sign' _ => simp [Phrase.tokens] at h
  | plus sign hp =>
    cases hq with
    | operation _ _ hl => exact (hl rfl).elim
    | tighter _ hq => exact absurd h (hq.unsigned.head_ne sign _ _)
    | power _ hq _ => exact absurd h ((Unsigned.power hq _ _).head_ne sign _ _)
    | minus sign' _ => simp [Phrase.tokens] at h
    | plus sign' hq =>
      simp only [Phrase.tokens, List.cons.injEq] at h
      rw [(Mark.eq_of_token h.1).1, ih (by simp [Phrase.tokens]) hp hq h.2]

@[ext]
structure Link where
  op : Operator
  mark : Mark
  operand : Phrase

def Link.tokens (x : Link) : List Token := x.mark.token (.operator x.op) :: x.operand.tokens

def Link.attach (p : Phrase) (x : Link) : Phrase := .binary p x.op x.mark x.operand

def Link.Derived (c : Context) (l : Level) (x : Link) : Prop := levelOf x.op = l ∧ Derives c l.tighter x.operand

lemma tokens_attach (p : Phrase) (xs : List Link) :
    (xs.foldl Link.attach p).tokens = p.tokens ++ xs.flatMap Link.tokens := by
  induction xs generalizing p with
  | nil => simp
  | cons x xs ih => simp [ih, Link.attach, Link.tokens, Phrase.tokens]

lemma Derives.spine (h : Derives c l p) (hl : l ≠ .pow) (hl' : l ≠ .prim) :
    ∃ q, ∃ xs : List Link, Derives c l.tighter q ∧ (∀ x ∈ xs, x.Derived c l) ∧ p = xs.foldl Link.attach q := by
  induction h with
  | tighter _ h => exact ⟨_, [], h, by simp, rfl⟩
  | @operation l p op q mark ho hn hp hq ih _ =>
    obtain ⟨q', xs, hq', hx, rfl⟩ := ih hl hl'
    refine ⟨q', xs ++ [⟨op, mark, q⟩], hq', ?_, by simp [Link.attach]⟩
    simp only [List.forall_mem_append, List.forall_mem_singleton]
    exact ⟨hx, ho, hq⟩
  | power | minus | plus => exact (hl rfl).elim
  | _ => exact (hl' rfl).elim

lemma stops_links {xs : List Link} (hl : l ≠ .prim) (h : ∀ x ∈ xs, x.Derived c l) :
    Stops l.tighter.rank (xs.flatMap Link.tokens) := by
  cases xs with
  | nil => exact stops_nil _
  | cons x xs =>
    have ho := rank_levelOf x.op
    rw [(h x List.mem_cons_self).1] at ho
    exact stops_operator (by rw [Level.rank_tighter hl]; omega) _ _

lemma closed_links (xs : List Link) : Closed (xs.flatMap Link.tokens) := by
  cases xs with
  | nil => exact closed_nil
  | cons x xs => exact closed_cons (t := x.mark.token _) rfl _

lemma links_unique (ih : UniqueBelow c n) (hl : l ≠ .prim) {xs ys : List Link}
    (hn : (xs.flatMap Link.tokens).length ≤ n) (hx : ∀ x ∈ xs, x.Derived c l) (hy : ∀ y ∈ ys, y.Derived c l)
    (h : xs.flatMap Link.tokens = ys.flatMap Link.tokens) : xs = ys := by
  induction xs generalizing ys with
  | nil => cases ys <;> simp_all [Link.tokens]
  | cons x xs ihx =>
    cases ys with
    | nil => simp [Link.tokens] at h
    | cons y ys =>
      obtain ⟨⟨-, dx⟩, hx⟩ := List.forall_mem_cons.mp hx
      obtain ⟨⟨-, dy⟩, hy⟩ := List.forall_mem_cons.mp hy
      simp only [List.flatMap_cons, Link.tokens, List.cons_append, List.cons.injEq, List.length_cons,
        List.length_append] at h hn
      obtain ⟨ht, hr⟩ := dx.boundary dy (stops_links hl hx) (closed_links xs) (stops_links hl hy) (closed_links ys) h.2
      obtain ⟨hm, ho⟩ := Mark.eq_of_token h.1
      have hxy : x = y := Link.ext (TokenKind.operator.inj ho) hm (ih (by omega) dx dy ht)
      rw [hxy, ihx (by omega) hx hy hr]

lemma left_unique (hl : l ≠ .pow) (hl' : l ≠ .prim)
    (htight : ∀ p q, UniqueBelow c p.tokens.length → Derives c l.tighter p → Derives c l.tighter q →
      p.tokens = q.tokens → p = q)
    (ih : UniqueBelow c p.tokens.length) (hp : Derives c l p) (hq : Derives c l q) (h : p.tokens = q.tokens) :
    p = q := by
  obtain ⟨p, xs, dp, hx, rfl⟩ := hp.spine hl hl'
  obtain ⟨q, ys, dq, hy, rfl⟩ := hq.spine hl hl'
  rw [tokens_attach, List.length_append] at ih
  rw [tokens_attach, tokens_attach] at h
  -- Both start with an operand that ends where the first operator of the level stands.
  obtain ⟨ht, hr⟩ := dp.boundary dq (stops_links hl' hx) (closed_links xs) (stops_links hl' hy) (closed_links ys) h
  rw [htight p q (ih.mono (by omega)) dp dq ht, links_unique ih hl' (by omega) hx hy hr]

lemma level_unique (n : Nat) (ih : UniqueBelow c n) (hn : p.tokens.length = n) (hp : Derives c l p)
    (hq : Derives c l q) (h : p.tokens = q.tokens) : p = q := by
  subst hn
  have mul_unique : ∀ p q, UniqueBelow c p.tokens.length → Derives c .mul p → Derives c .mul q →
      p.tokens = q.tokens → p = q :=
    fun _ _ => left_unique (by decide) (by decide) fun _ _ => pow_unique
  have add_unique : ∀ p q, UniqueBelow c p.tokens.length → Derives c .add p → Derives c .add q →
      p.tokens = q.tokens → p = q :=
    fun _ _ => left_unique (by decide) (by decide) mul_unique
  cases l with
  | prim => exact prim_unique ih hp hq h
  | pow => exact pow_unique ih hp hq h
  | mul => exact mul_unique p q ih hp hq h
  | add => exact add_unique p q ih hp hq h
  | rel => exact left_unique (by decide) (by decide) add_unique ih hp hq h

theorem uniqueBelow (c : Context) (n : Nat) : UniqueBelow c n := by
  induction n with
  | zero => exact fun _ _ _ hn => absurd hn (Nat.not_lt_zero _)
  | succ n ih => exact fun _ _ _ hn => level_unique _ (ih.mono (Nat.le_of_lt_succ hn)) rfl

structure Derivation (c : Context) (ts : List Token) (p : Phrase) : Prop where
  derives : Derives c .rel p
  tokens : p.tokens = ts

theorem Derivation.unique {ts : List Token} (hp : Derivation c ts p) (hq : Derivation c ts q) : p = q :=
  uniqueBelow c _ (Nat.lt_succ_self _) hp.derives hq.derives (hp.tokens.trans hq.tokens.symm)

theorem equation_eq_ok {ts : List Token} : equation c ts = .ok e ↔ ∃ p, Derivation c ts p ∧ p.expr ⟨0, 0⟩ = e := by
  constructor
  · intro h
    obtain ⟨p, hp, ht, he⟩ := derives_of_equation h
    exact ⟨p, ⟨hp, ht⟩, he⟩
  · rintro ⟨p, ⟨hp, rfl⟩, rfl⟩
    exact equation_of_derives hp

lemma parseBytes_eq_ok :
    parseBytes c.symbols c.self c.src = .ok e ↔ ∃ ts, Token.scan c.src = .ok ts ∧ equation c ts = .ok e := by
  have hnil : equation c [] ≠ .ok e := by
    intro h
    obtain ⟨p, hp, -⟩ := equation_eq_ok.mp h
    have := p.tokens_pos
    simp [hp.tokens] at this
  unfold parseBytes
  split
  · simp_all
  · simp_all
  · simp_all

lemma derivation_of_parseBytes {symbols : Symbols} {self : String} {src : Text.Bytes}
    (h : parseBytes symbols self src = .ok e) :
    ∃ ts p, Token.scan src = .ok ts ∧ Derivation ⟨symbols, self, src⟩ ts p ∧ p.expr ⟨0, 0⟩ = e := by
  obtain ⟨ts, hscan, he⟩ := (parseBytes_eq_ok (c := ⟨symbols, self, src⟩)).1 h
  obtain ⟨p, hp, he⟩ := equation_eq_ok.1 he
  exact ⟨ts, p, hscan, hp, he⟩

/-- The parser accepts what has a derivation, which is the only one, and returns its tree. -/
theorem parse_exactly_derivations (c : Context) :
    (∀ ts e, equation c ts = .ok e ↔ ∃ p, Derivation c ts p ∧ p.expr ⟨0, 0⟩ = e) ∧
    (∀ ts p q, Derivation c ts p → Derivation c ts q → p = q) ∧
    (∀ e, parseBytes c.symbols c.self c.src = .ok e ↔
      ∃ ts p, Token.scan c.src = .ok ts ∧ Derivation c ts p ∧ p.expr ⟨0, 0⟩ = e) := by
  refine ⟨fun _ _ => equation_eq_ok, fun _ _ _ => Derivation.unique, fun e => ?_⟩
  simp only [parseBytes_eq_ok, equation_eq_ok, exists_and_left]

theorem sign_takes_power : ∃ ts p, Token.scan (Text.bytes "-a ^ -b ^ +c * d") = .ok ts ∧
    Derivation ⟨parametersOnly, "e", Text.bytes "-a ^ -b ^ +c * d"⟩ ts p ∧
    (p.expr ⟨0, 0⟩).text = "((-(a ^ (-(b ^ c)))) * d)" := by
  have hrun : (parseBytes parametersOnly "e" (Text.bytes "-a ^ -b ^ +c * d")).toOption.any
      (·.text == "((-(a ^ (-(b ^ c)))) * d)") = true := by decide +kernel
  obtain ⟨e, he, htext⟩ := exists_of_any hrun
  obtain ⟨ts, p, hs, hp, rfl⟩ := ((parse_exactly_derivations ⟨parametersOnly, "e", _⟩).2.2 e).mp he
  exact ⟨ts, p, hs, hp, beq_iff_eq.1 htext⟩

end LandUse.Grammar
