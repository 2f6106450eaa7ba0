import LandUse.Proofs.Grammar.Printing

/-! What is read backward is a phrase again, without parentheses around a sign at the end of a power. -/

namespace LandUse.Grammar

open LandUse.Parser

def openParen : Mark := ⟨"(", 0⟩

def closeParen : Mark := ⟨")", 0⟩

def enclosed (ts : List Token) : List Token := openParen.token .lparen :: (ts ++ [closeParen.token .rparen])

def Phrase.enclosed (p : Phrase) : Phrase := .group openParen p closeParen

def Phrase.isMinus : Phrase → Bool
  | .minus .. => true
  | _ => false

mutual

def Phrase.backward (before after : Bool) : Phrase → List Token
  | .number x mark => [mark.token (.number x)]
  | .group _ body _ =>
    if body.isMinus && after && !before then body.backward false false else enclosed (body.backward false false)
  | .loop keyword pos brace dim unbrace left body right =>
    ⟨.ident, keyword.name, pos⟩ :: brace.token .lbrace :: dim.token .ident :: unbrace.token .rbrace ::
      left.token .lparen :: (body.backward false false ++ [right.token .rparen])
  | .call fn pos left args right =>
    ⟨.ident, fn.name, pos⟩ :: left.token .lparen :: (args.backward ++ [right.token .rparen])
  | .decision name subs | .parameter name subs => name.token .ident :: subs.backward
  | .equation name => [name.token .ident]
  | .minus sign arg =>
    if before then enclosed (sign.token (.operator .minus) :: arg.backward false false)
    else sign.token (.operator .minus) :: arg.backward false false
  | .plus sign arg => arg.backward false after ++ [sign.token (.operator .plus)]
  | .binary lhs op mark rhs =>
    rhs.backward (op = .pow) after ++ mark.token (.operator op) :: lhs.backward before (op = .pow)

def Arguments.backward : Arguments → List Token
  | .last arg => arg.backward false false
  | .more arg comma rest => rest.backward ++ comma.token .comma :: arg.backward false false

def Brackets.backward : Brackets → List Token
  | .done => []
  | .dim left name right rest | .option left name right _ rest =>
    left.token .lbracket :: name.token .ident :: right.token .rbracket :: rest.backward
  | .constant left value right _ rest =>
    left.token .lbracket :: (value.backward false false ++ right.token .rbracket :: rest.backward)

end

mutual

/-- The phrase without parentheses around signed operands at the end of a power. -/
def Phrase.trimmed (before after : Bool) : Phrase → Phrase
  | .group _ body _ =>
    if body.isMinus && before && !after then body.trimmed false false else (body.trimmed false false).enclosed
  | .loop keyword pos brace dim unbrace left body right =>
    .loop keyword pos brace dim unbrace left (body.trimmed false false) right
  | .call fn pos left args right => .call fn pos left args.trimmed right
  | .decision name subs => .decision name subs.trimmed
  | .parameter name subs => .parameter name subs.trimmed
  | .minus sign arg => .minus sign (arg.trimmed false false)
  | .plus sign arg => .plus sign (arg.trimmed false after)
  | .binary lhs op mark rhs => .binary (lhs.trimmed before (op = .pow)) op mark (rhs.trimmed (op = .pow) after)
  | p => p

def Arguments.trimmed : Arguments → Arguments
  | .last arg => .last (arg.trimmed false false)
  | .more arg comma rest => .more (arg.trimmed false false) comma rest.trimmed

def Brackets.trimmed : Brackets → Brackets
  | .done => .done
  | .dim left name right rest => .dim left name right rest.trimmed
  | .option left name right index rest => .option left name right index rest.trimmed
  | .constant left value right index rest => .constant left (value.trimmed false false) right index rest.trimmed

end

mutual

def Phrase.PlusFree : Phrase → Prop
  | .number .. | .equation _ => True
  | .group _ body _ | .loop _ _ _ _ _ _ body _ | .minus _ body => body.PlusFree
  | .call _ _ _ args _ => args.PlusFree
  | .decision _ subs | .parameter _ subs => subs.PlusFree
  | .plus .. => False
  | .binary lhs _ _ rhs => lhs.PlusFree ∧ rhs.PlusFree

def Arguments.PlusFree : Arguments → Prop
  | .last arg => arg.PlusFree
  | .more arg _ rest => arg.PlusFree ∧ rest.PlusFree

def Brackets.PlusFree : Brackets → Prop
  | .done => True
  | .dim _ _ _ rest | .option _ _ _ _ rest => rest.PlusFree
  | .constant _ value _ _ rest => value.PlusFree ∧ rest.PlusFree

end

mutual

def Phrase.EachIndex (P : Phrase → Prop) : Phrase → Prop
  | .number .. | .equation _ => True
  | .group _ body _ | .loop _ _ _ _ _ _ body _ | .minus _ body | .plus _ body => body.EachIndex P
  | .call _ _ _ args _ => args.EachIndex P
  | .decision _ subs | .parameter _ subs => subs.EachIndex P
  | .binary lhs _ _ rhs => lhs.EachIndex P ∧ rhs.EachIndex P

def Arguments.EachIndex (P : Phrase → Prop) : Arguments → Prop
  | .last arg => arg.EachIndex P
  | .more arg _ rest => arg.EachIndex P ∧ rest.EachIndex P

def Brackets.EachIndex (P : Phrase → Prop) : Brackets → Prop
  | .done => True
  | .dim _ _ _ rest | .option _ _ _ _ rest => rest.EachIndex P
  | .constant _ value _ _ rest => P value ∧ rest.EachIndex P

end

def Phrase.TurnsIndex (c : Context) (p : Phrase) : Prop :=
  ∃ q x i, Derives c .rel q ∧ q.tokens = p.backward false false ∧ Denotes q x ∧ IsIndex x i

lemma Denotes.eachIndex {p : Phrase} {x : Float} (h : Denotes p x) (P : Phrase → Prop) : p.EachIndex P := by
  induction h with
  | number => trivial
  | group _ _ _ ih | plus _ _ ih | minus _ _ _ ih => exact ih
  | binary _ _ _ _ ihp ihq => exact ⟨ihp, ihq⟩

/-! ### What is trimmed -/

mutual

lemma Phrase.alike_trimmed (d : Depth) : (p : Phrase) → (before after : Bool) →
    ((p.trimmed before after).expr d).Alike (p.expr d)
  | .number .., _, _ | .equation _, _, _ => .refl _
  | .group _ body _, before, after => by
    rw [Phrase.trimmed]
    split_ifs
    · exact .symm (.group _ (.symm (body.alike_trimmed d false false)))
    · exact .group _ (.symm (.group _ (.symm (body.alike_trimmed d false false))))
  | .loop _ _ _ _ _ _ body _, _, _ => .loop _ _ _ _ _ _ _ _ _ (body.alike_trimmed _ false false)
  | .call _ _ _ args _, _, _ => .call _ _ _ _ _ _ _ _ _ (args.alike_trimmed _)
  | .decision _ subs, _, _ | .parameter _ subs, _, _ => .param _ _ _ _ (subs.subscripts_trimmed d)
  | .minus _ arg, _, _ => .negate _ _ _ _ (arg.alike_trimmed d false false)
  | .plus _ arg, _, after => arg.alike_trimmed d false after
  | .binary lhs op _ rhs, before, after =>
    .binary _ _ _ _ _ (lhs.alike_trimmed d before (op = .pow)) (rhs.alike_trimmed d (op = .pow) after)

lemma Arguments.alike_trimmed (d : Depth) : (args : Arguments) →
    List.Forall₂ Expr.Alike (args.trimmed.exprs d) (args.exprs d)
  | .last arg => .cons (arg.alike_trimmed d false false) .nil
  | .more arg _ rest => .cons (arg.alike_trimmed d false false) (rest.alike_trimmed d)

lemma Brackets.subscripts_trimmed (d : Depth) : (subs : Brackets) →
    (subs.trimmed.subscripts d).map Subscript.unplaced = (subs.subscripts d).map Subscript.unplaced
  | .done => rfl
  | .dim _ _ _ rest | .option _ _ _ _ rest | .constant _ _ _ _ rest => by
    simp only [Brackets.trimmed, Brackets.subscripts, List.map_cons, rest.subscripts_trimmed d, Subscript.unplaced]

end

lemma Denotes.trimmed {p : Phrase} {x : Float} (h : Denotes p x) (before after : Bool) :
    Denotes (p.trimmed before after) x := by
  induction h generalizing before after with
  | number x mark => exact .number x mark
  | group _ _ _ ih =>
    rw [Phrase.trimmed]
    split_ifs
    · exact ih false false
    · exact .group _ _ (ih false false)
  | plus sign _ ih => exact .plus sign (ih false after)
  | minus sign _ hy ih => exact .minus sign (ih false false) hy
  | @binary _ _ _ _ _ op mark _ _ hz ihp ihq => exact .binary mark (ihp before (op = .pow)) (ihq (op = .pow) after) hz

variable {c : Context}

lemma Arguments.phrases_trimmed : (args : Arguments) → args.trimmed.phrases = args.phrases.map (·.trimmed false false)
  | .last _ => rfl
  | .more _ _ rest => by simp only [trimmed, phrases, List.map_cons, rest.phrases_trimmed]

lemma Brackets.phrases_trimmed : (subs : Brackets) → subs.trimmed.phrases = subs.phrases.map (·.trimmed false false)
  | .done => rfl
  | .dim _ _ _ rest | .option _ _ _ _ rest => by simp only [trimmed, phrases, rest.phrases_trimmed]
  | .constant _ _ _ _ rest => by simp only [trimmed, phrases, List.map_cons, rest.phrases_trimmed]

lemma Brackets.length_trimmed : (subs : Brackets) → subs.trimmed.length = subs.length
  | .done => rfl
  | .dim _ _ _ rest | .option _ _ _ _ rest | .constant _ _ _ _ rest => by
    simp only [trimmed, length, rest.length_trimmed]

lemma Brackets.Resolved.trimmed : {subs : Brackets} → subs.Resolved c → subs.trimmed.Resolved c
  | .done, _ => trivial
  | .dim .., ⟨hd, hr⟩ => ⟨hd, hr.trimmed⟩
  | .option .., ⟨hd, hi, hr⟩ => ⟨hd, hi, hr.trimmed⟩
  | .constant .., ⟨⟨x, hx, hi⟩, hr⟩ => ⟨⟨x, hx.trimmed false false, hi⟩, hr.trimmed⟩

structure Level.Admits (l : Level) (before after : Bool) : Prop where
  after : l ≠ .prim → after = false
  before : l ≠ .prim → l ≠ .pow → before = false

lemma Level.Admits.eq_false {l : Level} {before after : Bool} (h : l.Admits before after)
    (hprim : l ≠ .prim) (hl : l ≠ .pow) :
    before = false ∧ after = false := ⟨h.before hprim hl, h.after hprim⟩

lemma decide_pow {op : Operator} {l : Level} (ho : levelOf op = l) (hl : l ≠ .pow) : decide (op = .pow) = false := by
  rw [decide_eq_false_iff_not]
  rintro rfl
  exact hl ho.symm

lemma Level.admits_false (l : Level) : l.Admits false false := ⟨fun _ => rfl, fun _ _ => rfl⟩

lemma Level.admits_prim (before after : Bool) : Level.prim.Admits before after :=
  ⟨fun h => absurd rfl h, fun h => absurd rfl h⟩

lemma Level.admits_pow (before : Bool) : Level.pow.Admits before false := ⟨fun _ => rfl, fun _ h => absurd rfl h⟩

lemma Level.Admits.tighter {l : Level} {before after : Bool} (h : l.Admits before after) :
    l.tighter.Admits before after := by
  cases l with
  | rel | add | mul =>
    obtain ⟨rfl, rfl⟩ := h.eq_false (by decide) (by decide)
    exact Level.admits_false _
  | pow | prim => exact Level.admits_prim before after

def Level.trimmed (l : Level) (before after : Bool) : Level := if l = .prim ∧ before ∧ ¬ after then .pow else l

lemma Level.trimmed_of_ne {l : Level} (h : l ≠ .prim) (before after : Bool) : l.trimmed before after = l := by
  simp [Level.trimmed, h]

lemma Derives.of_trimmed {l : Level} {before after : Bool} {p : Phrase} (hl : l ≠ .prim)
    (hp : Derives c (l.tighter.trimmed before after) p) : Derives c l p := by
  by_cases h : l.tighter = .prim ∧ before ∧ ¬ after
  · rw [Level.trimmed, if_pos h] at hp
    cases l with
    | pow => exact hp
    | prim => exact absurd rfl hl
    | rel | add | mul => exact absurd h.1 (by decide)
  · rw [Level.trimmed, if_neg h] at hp
    exact .tighter hl hp

lemma Derives.in_trimmed {p : Phrase} (h : Derives c .prim p) (before after : Bool) :
    Derives c (Level.prim.trimmed before after) p := by
  rw [Level.trimmed]
  split_ifs
  · exact .tighter (by decide) h
  · exact h

lemma Derives.pow_of_isMinus {l : Level} {p : Phrase} (h : Derives c l p) (hp : p.isMinus = true) :
    Derives c .pow p := by
  induction h with
  | tighter _ _ ih => exact ih hp
  | minus sign h => exact .minus sign h
  | _ => cases hp

lemma Phrase.isMinus_trimmed {p : Phrase} (h : p.isMinus = true) (before after : Bool) :
    (p.trimmed before after).isMinus = true := by
  cases p with
  | minus => rfl
  | _ => cases h

theorem Derives.trimmed {l : Level} {p : Phrase} (h : Derives c l p) : ∀ {before after : Bool}, l.Admits before after →
    Derives c (l.trimmed before after) (p.trimmed before after) := by
  induction h with
  | tighter hl _ ih =>
    intro before after hadmits
    rw [Level.trimmed_of_ne hl]
    exact .of_trimmed hl (ih hadmits.tighter)
  | @operation l p op q mark ho hl _ _ ihp ihq =>
    intro before after hadmits
    have hprim : l ≠ .prim := fun h => levelOf_ne_prim op (ho.trans h)
    obtain ⟨rfl, rfl⟩ := hadmits.eq_false hprim hl
    have hp := ihp l.admits_false
    have hq := ihq l.tighter.admits_false
    rw [Level.trimmed_of_ne hprim] at hp ⊢
    simp only [Phrase.trimmed, decide_pow ho hl]
    refine .operation mark ho hl hp ?_
    rwa [Level.trimmed, if_neg (by simp)] at hq
  | @power p q mark _ _ ihp ihq =>
    intro before after hadmits
    obtain rfl := hadmits.after (by decide)
    have hp := ihp (Level.admits_prim before true)
    have hq := ihq (Level.admits_pow true)
    rw [Level.trimmed_of_ne (by decide)] at hq ⊢
    rw [Level.trimmed, if_neg (by simp)] at hp
    exact .power mark hp hq
  | minus sign _ ih =>
    intro before after _
    rw [Level.trimmed_of_ne (by decide)]
    exact .minus sign (ih (Level.admits_false _))
  | plus sign _ ih =>
    intro before after hadmits
    obtain rfl := hadmits.after (by decide)
    rw [Level.trimmed_of_ne (by decide)]
    exact .plus sign (ih (Level.admits_false _))
  | number x mark => exact fun _ => (Derives.number x mark).in_trimmed _ _
  | @group p left right hp ih =>
    intro before after _
    have hp := ih (Level.admits_false _)
    rw [Phrase.trimmed]
    split_ifs with hdrop
    · simp only [Bool.and_eq_true, Bool.not_eq_true'] at hdrop
      obtain ⟨⟨hminus, rfl⟩, rfl⟩ := hdrop
      exact hp.pow_of_isMinus (Phrase.isMinus_trimmed hminus _ _)
    · exact (Derives.group _ _ hp).in_trimmed before after
  | loop keyword pos brace unbrace left right hd _ ih =>
    intro before after _
    exact (Derives.loop keyword pos brace unbrace left right hd (ih (Level.admits_false _))).in_trimmed before after
  | @call fn args pos left right _ ha ih =>
    intro before after _
    refine (Derives.call pos left right ?_ ?_).in_trimmed before after
    · rw [Arguments.phrases_trimmed, List.forall_mem_map]
      exact fun p hp => ih p hp (Level.admits_false _)
    · rwa [Arguments.phrases_trimmed, List.length_map]
  | @decision name subs hn _ hr ih =>
    intro before after _
    refine (Derives.decision ?_ ?_ hr.trimmed).in_trimmed before after
    · rw [hn, Brackets.length_trimmed]
    · rw [Brackets.phrases_trimmed, List.forall_mem_map]
      exact fun p hp => ih p hp (Level.admits_false _)
  | @parameter name subs hn hpar _ hr ih =>
    intro before after _
    refine (Derives.parameter hn hpar ?_ hr.trimmed).in_trimmed before after
    rw [Brackets.phrases_trimmed, List.forall_mem_map]
    exact fun p hp => ih p hp (Level.admits_false _)
  | equation hn hpar heq hne => exact fun _ => (Derives.equation hn hpar heq hne).in_trimmed _ _

/-! ### What is read backward -/

inductive Powers (c : Context) : Phrase → Prop
  | one {p} : Derives c .prim p → Powers c p
  | more {p q} (mark) : Derives c .prim p → Powers c q → Powers c (.binary p .pow mark q)

lemma exists_prepended {l : Level} {op : Operator} {x p : Phrase} (mark : Mark) (hp : Derives c l p)
    (ho : levelOf op = l)
    (hl : l ≠ .pow) (hx : Derives c l.tighter x) :
    ∃ q, Derives c l q ∧ q.tokens = x.tokens ++ mark.token (.operator op) :: p.tokens ∧
      (∀ before after, q.backward before after =
        p.backward false after ++ mark.token (.operator op) :: x.backward before false) ∧
      (x.PlusFree → p.PlusFree → q.PlusFree) ∧ q.isMinus = false := by
  have hprim : l ≠ .prim := fun h => levelOf_ne_prim op (ho.trans h)
  induction hp with
  | @tighter l p _ hp =>
    refine ⟨.binary x op mark p, .operation mark ho hl (.tighter hprim hx) hp, rfl, fun before after => ?_,
      fun hx hp => ⟨hx, hp⟩, rfl⟩
    rw [Phrase.backward, decide_pow ho hl]
  | @operation l p op' q mark' ho' _ _ hq ih _ =>
    obtain ⟨r, hr, htokens, hback, hfree, -⟩ := ih ho hl hx hprim
    refine ⟨.binary r op' mark' q, .operation mark' ho' hl hr hq, ?_, fun before after => ?_,
      fun hx hp => ⟨hfree hx hp.1, hp.2⟩, rfl⟩
    · simp only [Phrase.tokens, htokens, List.append_assoc, List.cons_append]
    · rw [Phrase.backward, hback, Phrase.backward, decide_pow ho' hl, List.append_assoc, List.cons_append]
  | power | minus | plus => exact absurd rfl hl
  | _ => exact absurd rfl hprim

lemma exists_joined {p x : Phrase} (mark : Mark) (hp : Powers c p) (hx : Derives c .pow x) :
    ∃ q, Derives c .pow q ∧ (Derives c .prim x → Powers c q) ∧
      q.tokens = p.tokens ++ mark.token (.operator .pow) :: x.tokens ∧
      (∀ before after, q.backward before after =
        x.backward true after ++ mark.token (.operator .pow) :: p.backward before true) ∧
      (p.PlusFree → x.PlusFree → q.PlusFree) ∧ q.isMinus = false := by
  induction hp with
  | @one p hp =>
    exact ⟨.binary p .pow mark x, .power mark hp hx, fun hx => .more mark hp (.one hx), rfl, fun _ _ => rfl,
      fun hp hx => ⟨hp, hx⟩, rfl⟩
  | @more p q mark' hp _ ih =>
    obtain ⟨r, hr, hpowers, htokens, hback, hfree, -⟩ := ih
    refine ⟨.binary p .pow mark' r, .power mark' hp hr, fun hx => .more mark' hp (hpowers hx), ?_,
      fun before after => ?_,
      fun hp hx => ⟨hp.1, hfree hp.2 hx⟩, rfl⟩
    · simp only [Phrase.tokens, htokens, List.append_assoc, List.cons_append]
    · simp only [Phrase.backward, hback, decide_true, List.append_assoc, List.cons_append]

lemma exists_appended (comma : Mark) (x : Phrase) : (args : Arguments) → ∃ as : Arguments,
    as.tokens = args.tokens ++ comma.token .comma :: x.tokens ∧ as.phrases = args.phrases ++ [x] ∧
    as.backward = x.backward false false ++ comma.token .comma :: args.backward ∧
    (args.PlusFree → x.PlusFree → as.PlusFree)
  | .last arg => ⟨.more arg comma (.last x), rfl, rfl, rfl, fun ha hx => ⟨ha, hx⟩⟩
  | .more arg comma' rest => by
    obtain ⟨as, htokens, hphrases, hback, hfree⟩ := exists_appended comma x rest
    refine ⟨.more arg comma' as, ?_, ?_, ?_, fun ha hx => ⟨ha.1, hfree ha.2 hx⟩⟩
    · simp only [Arguments.tokens, htokens, List.append_assoc, List.cons_append]
    · simp only [Arguments.phrases, hphrases, List.cons_append]
    · simp only [Arguments.backward, hback, List.append_assoc, List.cons_append]

def Level.Fits (c : Context) (l : Level) (before after : Bool) (q : Phrase) : Prop :=
  match l with
  | .prim => Derives c (if after ∧ ¬ before then .pow else .prim) q
  | .pow => Derives c .pow q ∧ (before → Powers c q)
  | l => Derives c l q

structure Turned (before after : Bool) (p q : Phrase) : Prop where
  tokens : q.tokens = p.backward before after
  back : q.backward after before = (p.trimmed before after).tokens
  plusFree : q.PlusFree
  sign : before = false → after = false → q.isMinus = p.isMinus

lemma Arguments.plusFree_iff : (args : Arguments) → (args.PlusFree ↔ ∀ p ∈ args.phrases, p.PlusFree)
  | .last _ => by simp [PlusFree, phrases]
  | .more _ _ rest => by simp [PlusFree, phrases, rest.plusFree_iff]

lemma Arguments.eachIndex_iff {P : Phrase → Prop} : (args : Arguments) →
    (args.EachIndex P ↔ ∀ p ∈ args.phrases, p.EachIndex P)
  | .last _ => by simp [EachIndex, phrases]
  | .more _ _ rest => by simp [EachIndex, phrases, rest.eachIndex_iff]

lemma Brackets.plusFree_iff : (subs : Brackets) → (subs.PlusFree ↔ ∀ p ∈ subs.phrases, p.PlusFree)
  | .done => by simp [PlusFree, phrases]
  | .dim _ _ _ rest | .option _ _ _ _ rest | .constant _ _ _ _ rest => by simp [PlusFree, phrases, rest.plusFree_iff]

lemma exists_turned_arguments : (args : Arguments) →
    (∀ p ∈ args.phrases, ∃ q, Derives c .rel q ∧ Turned false false p q) →
    ∃ as : Arguments, (∀ p ∈ as.phrases, Derives c .rel p) ∧ as.phrases.length = args.phrases.length ∧
      as.tokens = args.backward ∧ as.backward = args.trimmed.tokens ∧ as.PlusFree
  | .last arg, h => by
    obtain ⟨q, hq, ht⟩ := h arg List.mem_cons_self
    exact ⟨.last q, List.forall_mem_singleton.2 hq, rfl, ht.tokens, ht.back, ht.plusFree⟩
  | .more arg comma rest, h => by
    obtain ⟨q, hq, ht⟩ := h arg List.mem_cons_self
    obtain ⟨as, has, hlength, htokens, hback, hfree⟩ :=
      exists_turned_arguments rest fun p hp => h p (List.mem_cons_of_mem _ hp)
    obtain ⟨bs, htokens', hphrases, hback', hfree'⟩ := exists_appended comma q as
    refine ⟨bs, ?_, ?_, ?_, ?_, hfree' hfree ht.plusFree⟩
    · rw [hphrases, List.forall_mem_append]
      exact ⟨has, List.forall_mem_singleton.2 hq⟩
    · rw [hphrases, List.length_append, hlength]
      rfl
    · rw [htokens', htokens, ht.tokens, Arguments.backward]
    · rw [hback', hback, ht.back]
      rfl

lemma exists_turned_brackets : (subs : Brackets) → subs.Resolved c → subs.EachIndex (Phrase.TurnsIndex c) →
    (∀ p ∈ subs.phrases, p.EachIndex (Phrase.TurnsIndex c) → ∃ q, Derives c .rel q ∧ Turned false false p q) →
    ∃ bs : Brackets, bs.length = subs.length ∧ (∀ p ∈ bs.phrases, Derives c .rel p) ∧ bs.Resolved c ∧
      bs.tokens = subs.backward ∧ bs.backward = subs.trimmed.tokens ∧ bs.PlusFree
  | .done, _, _, _ => ⟨.done, rfl, List.forall_mem_nil _, trivial, rfl, rfl, trivial⟩
  | .dim left name right rest, ⟨hd, hr⟩, hi, h => by
    obtain ⟨bs, hlength, hbs, hres, htokens, hback, hfree⟩ := exists_turned_brackets rest hr hi h
    refine ⟨.dim left name right bs, ?_, hbs, ⟨hd, hres⟩, ?_, ?_, hfree⟩
    · rw [Brackets.length, hlength, Brackets.length]
    · rw [Brackets.tokens, htokens, Brackets.backward]
    · rw [Brackets.backward, hback, Brackets.trimmed, Brackets.tokens]
  | .option left name right index rest, ⟨hd, ho, hr⟩, hi, h => by
    obtain ⟨bs, hlength, hbs, hres, htokens, hback, hfree⟩ := exists_turned_brackets rest hr hi h
    refine ⟨.option left name right index bs, ?_, hbs, ⟨hd, ho, hres⟩, ?_, ?_, hfree⟩
    · rw [Brackets.length, hlength, Brackets.length]
    · rw [Brackets.tokens, htokens, Brackets.backward]
    · rw [Brackets.backward, hback, Brackets.trimmed, Brackets.tokens]
  | .constant left value right index rest, ⟨⟨x, hx, _⟩, hr⟩, ⟨⟨v, y, i, hv, hvtokens, hy, hindex⟩, hi⟩, h => by
    obtain ⟨q, hq, ht⟩ := h value List.mem_cons_self (hx.eachIndex _)
    obtain ⟨bs, hlength, hbs, hres, htokens, hback, hfree⟩ :=
      exists_turned_brackets rest hr hi fun p hp => h p (List.mem_cons_of_mem _ hp)
    obtain rfl : q = v := Derivation.unique ⟨hq, ht.tokens⟩ ⟨hv, hvtokens⟩
    refine ⟨.constant left q right i bs, ?_, List.forall_mem_cons.2 ⟨hq, hbs⟩, ⟨⟨y, hy, hindex⟩, hres⟩, ?_, ?_,
      ⟨ht.plusFree, hfree⟩⟩
    · rw [Brackets.length, hlength, Brackets.length]
    · rw [Brackets.tokens, htokens, ht.tokens, Brackets.backward]
    · rw [Brackets.backward, hback, ht.back, Brackets.trimmed, Brackets.tokens]

lemma Level.fits_false {l : Level} {q : Phrase} : l.Fits c false false q ↔ Derives c l q := by
  cases l <;> simp [Level.Fits]

lemma Derives.fits_prim {q : Phrase} (h : Derives c .prim q) (before after : Bool) :
    Level.prim.Fits c before after q := by
  show Derives c (if after ∧ ¬ before then .pow else .prim) q
  split_ifs
  · exact .tighter (by decide) h
  · exact h

lemma Phrase.backward_of_isMinus {q : Phrase} (h : q.isMinus = true) (after : Bool) :
    q.backward true after = Grammar.enclosed (q.backward false false) := by
  cases q with
  | minus sign arg => simp only [Phrase.backward, if_true, Bool.false_eq_true, if_false]
  | _ => cases h

lemma exists_turned_operation {l : Level} {op : Operator} {p q p' q' : Phrase} (mark : Mark) (ho : levelOf op = l)
    (hl : l ≠ .pow) (hp : Derives c l p') (hq : Derives c l.tighter q') (htp : Turned false false p p')
    (htq : Turned false false q q') : ∃ r, Derives c l r ∧ Turned false false (.binary p op mark q) r := by
  obtain ⟨r, hr, htokens, hback, hfree, hsign⟩ := exists_prepended mark hp ho hl hq
  refine ⟨r, hr, ?_, ?_, hfree htq.plusFree htp.plusFree, fun _ _ => hsign⟩
  · rw [htokens, htq.tokens, htp.tokens, Phrase.backward, decide_pow ho hl]
  · rw [hback, htp.back, htq.back, Phrase.trimmed, decide_pow ho hl, Phrase.tokens]

lemma exists_turned_power {before : Bool} {p q p' q' : Phrase} (mark : Mark) (hp : Level.prim.Fits c before true p')
    (hq : Powers c q') (htp : Turned before true p p') (htq : Turned true false q q') :
    ∃ r, Level.pow.Fits c before false r ∧ Turned before false (.binary p .pow mark q) r := by
  have hp' : Derives c .pow p' ∧ (before → Derives c .prim p') := by
    cases before with
    | false => exact ⟨hp, fun h => by cases h⟩
    | true =>
      have hp : Derives c .prim p' := by simpa [Level.Fits] using hp
      exact ⟨.tighter (by decide) hp, fun _ => hp⟩
  obtain ⟨r, hr, hpowers, htokens, hback, hfree, hsign⟩ := exists_joined mark hq hp'.1
  refine ⟨r, ⟨hr, fun h => hpowers (hp'.2 h)⟩, ?_, ?_, hfree htq.plusFree htp.plusFree, fun _ _ => hsign⟩
  · rw [htokens, htq.tokens, htp.tokens]
    rfl
  · rw [hback, htp.back, htq.back]
    rfl

lemma exists_turned_minus (before : Bool) {p q : Phrase} (sign : Mark) (hq : Derives c .pow q)
    (ht : Turned false false p q) :
    ∃ r, Level.pow.Fits c before false r ∧ Turned before false (.minus sign p) r := by
  have hminus : Derives c .pow (.minus sign q) := .minus sign hq
  cases before with
  | false =>
    refine ⟨.minus sign q, Level.fits_false.2 hminus, ?_, ?_, ht.plusFree, fun _ _ => rfl⟩
    · simp [Phrase.tokens, Phrase.backward, ht.tokens]
    · simp [Phrase.tokens, Phrase.backward, Phrase.trimmed, ht.back]
  | true =>
    have hgroup : Derives c .prim (Phrase.minus sign q).enclosed := .group _ _ (hminus.loosen (by decide))
    refine ⟨(Phrase.minus sign q).enclosed, ⟨.tighter (by decide) hgroup, fun _ => .one hgroup⟩, ?_, ?_, ht.plusFree,
      fun h => by cases h⟩
    · simp [Phrase.enclosed, Grammar.enclosed, Phrase.tokens, Phrase.backward, ht.tokens]
    · simp [Phrase.enclosed, Phrase.isMinus, Phrase.tokens, Phrase.backward, Phrase.trimmed, ht.back]

lemma exists_turned_group (before after : Bool) {p q : Phrase} (left right : Mark) (hq : Derives c .rel q)
    (ht : Turned false false p q) :
    ∃ r, Level.prim.Fits c before after r ∧ Turned before after (.group left p right) r := by
  have hsign := ht.sign rfl rfl
  by_cases hdrop : (p.isMinus && after && !before) = true
  · simp only [Bool.and_eq_true, Bool.not_eq_true'] at hdrop
    obtain ⟨⟨hminus, rfl⟩, rfl⟩ := hdrop
    rw [hminus] at hsign
    refine ⟨q, hq.pow_of_isMinus hsign, ?_, ?_, ht.plusFree, fun _ h => by cases h⟩
    · simp [Phrase.backward, hminus, ht.tokens]
    · rw [Phrase.backward_of_isMinus hsign, ht.back]
      simp [Phrase.trimmed, Phrase.enclosed, Grammar.enclosed, Phrase.tokens]
  · have hgroup : Derives c .prim q.enclosed := .group _ _ hq
    refine ⟨q.enclosed, hgroup.fits_prim _ _, ?_, ?_, ht.plusFree, fun _ _ => rfl⟩
    · rw [Phrase.backward, if_neg hdrop, ← ht.tokens]
      rfl
    · rw [Phrase.enclosed, Phrase.backward, hsign, ht.back, Phrase.trimmed]
      split_ifs <;> rfl

theorem Derives.exists_turned {l : Level} {p : Phrase} (h : Derives c l p) : p.PlusFree →
    p.EachIndex (Phrase.TurnsIndex c) → ∀ {before after : Bool}, l.Admits before after →
      ∃ q, l.Fits c before after q ∧ Turned before after p q := by
  induction h with
  | @tighter l p hl _ ih =>
    intro hfree hindex before after hadmits
    obtain ⟨q, hq, ht⟩ := ih hfree hindex hadmits.tighter
    refine ⟨q, ?_, ht⟩
    cases l with
    | prim => exact absurd rfl hl
    | pow =>
      obtain rfl := hadmits.after (by decide)
      have hq : Derives c .prim q := by simpa [Level.Fits, Level.tighter] using hq
      exact ⟨.tighter hl hq, fun _ => .one hq⟩
    | rel | add | mul =>
      obtain ⟨rfl, rfl⟩ := hadmits.eq_false (by decide) (by decide)
      exact Level.fits_false.2 (.tighter hl (Level.fits_false.1 hq))
  | @operation l p op q mark ho hl _ _ ihp ihq =>
    intro hfree hindex before after hadmits
    obtain ⟨rfl, rfl⟩ := hadmits.eq_false (fun h => levelOf_ne_prim op (ho.trans h)) hl
    obtain ⟨p', hp, htp⟩ := ihp hfree.1 hindex.1 l.admits_false
    obtain ⟨q', hq, htq⟩ := ihq hfree.2 hindex.2 l.tighter.admits_false
    rw [Level.fits_false] at hp hq
    obtain ⟨r, hr, htr⟩ := exists_turned_operation mark ho hl hp hq htp htq
    exact ⟨r, Level.fits_false.2 hr, htr⟩
  | @power p q mark _ _ ihp ihq =>
    intro hfree hindex before after hadmits
    obtain rfl := hadmits.after (by decide)
    obtain ⟨p', hp, htp⟩ := ihp hfree.1 hindex.1 (Level.admits_prim before true)
    obtain ⟨q', ⟨-, hq⟩, htq⟩ := ihq hfree.2 hindex.2 (Level.admits_pow true)
    exact exists_turned_power mark hp (hq rfl) htp htq
  | minus sign _ ih =>
    intro hfree hindex before after hadmits
    obtain rfl := hadmits.after (by decide)
    obtain ⟨q, hq, ht⟩ := ih hfree hindex (Level.admits_false _)
    exact exists_turned_minus before sign (Level.fits_false.1 hq) ht
  | plus sign _ ih => exact fun h => h.elim
  | number x mark =>
    intro _ _ before after _
    exact ⟨.number x mark, (Derives.number x mark).fits_prim _ _, rfl, rfl, trivial, fun _ _ => rfl⟩
  | group left right _ ih =>
    intro hfree hindex before after _
    obtain ⟨q, hq, ht⟩ := ih hfree hindex (Level.admits_false _)
    exact exists_turned_group before after left right (Level.fits_false.1 hq) ht
  | @loop p dim keyword pos brace unbrace left right hd _ ih =>
    intro hfree hindex before after _
    obtain ⟨q, hq, ht⟩ := ih hfree hindex (Level.admits_false _)
    refine ⟨.loop keyword pos brace dim unbrace left q right,
      (Derives.loop keyword pos brace unbrace left right hd hq).fits_prim _ _, ?_, ?_, ht.plusFree, fun _ _ => rfl⟩
    · rw [Phrase.tokens, ht.tokens, Phrase.backward]
    · rw [Phrase.backward, ht.back, Phrase.trimmed, Phrase.tokens]
  | @call fn args pos left right _ ha ih =>
    intro hfree hindex before after _
    obtain ⟨as, has, hlength, htokens, hback, hfree'⟩ := exists_turned_arguments args fun p hp =>
      ih p hp (args.plusFree_iff.1 hfree p hp) (args.eachIndex_iff.1 hindex p hp) (Level.admits_false _)
    refine ⟨.call fn pos left as right, (Derives.call pos left right has (hlength ▸ ha)).fits_prim _ _, ?_, ?_, hfree',
      fun _ _ => rfl⟩
    · rw [Phrase.tokens, htokens, Phrase.backward]
    · rw [Phrase.backward, hback, Phrase.trimmed, Phrase.tokens]
  | @decision name subs hn _ hr ih =>
    intro hfree hindex before after _
    obtain ⟨bs, hlength, hbs, hres, htokens, hback, hfree'⟩ := exists_turned_brackets subs hr hindex fun p hp hi =>
      ih p hp (subs.plusFree_iff.1 hfree p hp) hi (Level.admits_false _)
    refine ⟨.decision name bs, (Derives.decision (hlength ▸ hn) hbs hres).fits_prim _ _, ?_, ?_, hfree', fun _ _ => rfl⟩
    · rw [Phrase.tokens, htokens, Phrase.backward]
    · rw [Phrase.backward, hback, Phrase.trimmed, Phrase.tokens]
  | @parameter name subs hn hpar _ hr ih =>
    intro hfree hindex before after _
    obtain ⟨bs, -, hbs, hres, htokens, hback, hfree'⟩ := exists_turned_brackets subs hr hindex fun p hp hi =>
      ih p hp (subs.plusFree_iff.1 hfree p hp) hi (Level.admits_false _)
    refine ⟨.parameter name bs, (Derives.parameter hn hpar hbs hres).fits_prim _ _, ?_, ?_, hfree', fun _ _ => rfl⟩
    · rw [Phrase.tokens, htokens, Phrase.backward]
    · rw [Phrase.backward, hback, Phrase.trimmed, Phrase.tokens]
  | @equation name hn hpar heq hne =>
    intro _ _ before after _
    exact ⟨.equation name, (Derives.equation hn hpar heq hne).fits_prim _ _, rfl, rfl, trivial, fun _ _ => rfl⟩

/-! ### Nothing but parentheses comes or goes -/

def words (ts : List Token) : List Token :=
  ts.filter fun t => match t.kind with
    | .lparen | .rparen => false
    | _ => true

lemma words_append (ts us : List Token) : words (ts ++ us) = words ts ++ words us := List.filter_append _ _

lemma words_unplaced (ts : List Token) : words (ts.map Token.unplaced) = (words ts).map Token.unplaced :=
  List.filter_map

lemma words_enclosed (ts : List Token) : words (enclosed ts) = words ts := by
  simp [enclosed, words]

mutual

lemma Phrase.perm_backward : (p : Phrase) → (before after : Bool) →
    (words (p.backward before after)).Perm (words p.tokens)
  | .number .., _, _ | .equation _, _, _ => .refl _
  | .group left body right, before, after => by
    have hgroup : words (Phrase.group left body right).tokens = words body.tokens := by simp [Phrase.tokens, words]
    rw [hgroup, Phrase.backward]
    split_ifs
    · exact body.perm_backward false false
    · rw [words_enclosed]
      exact body.perm_backward false false
  | .loop keyword pos brace dim unbrace left body right, _, _ => by
    have hhead : ∀ ts, words (⟨.ident, keyword.name, pos⟩ :: brace.token .lbrace :: dim.token .ident ::
        unbrace.token .rbrace :: left.token .lparen :: (ts ++ [right.token .rparen])) =
          ⟨.ident, keyword.name, pos⟩ :: brace.token .lbrace ::
          dim.token .ident :: unbrace.token .rbrace :: words ts := by
      simp [words]
    rw [Phrase.backward, Phrase.tokens, hhead, hhead]
    exact ((((body.perm_backward false false).cons _).cons _).cons _).cons _
  | .call fn pos left args right, _, _ => by
    have hhead : ∀ ts, words (⟨.ident, fn.name, pos⟩ :: left.token .lparen :: (ts ++ [right.token .rparen])) =
        ⟨.ident, fn.name, pos⟩ :: words ts := by simp [words]
    rw [Phrase.backward, Phrase.tokens, hhead, hhead]
    exact args.perm_backward.cons _
  | .decision name subs, _, _ | .parameter name subs, _, _ => (subs.perm_backward).cons _
  | .minus sign arg, before, _ => by
    rw [Phrase.backward]
    split_ifs
    · rw [words_enclosed]
      exact (arg.perm_backward false false).cons _
    · exact (arg.perm_backward false false).cons _
  | .plus sign arg, _, after => by
    rw [Phrase.backward, words_append]
    exact ((arg.perm_backward false after).append_right _).trans List.perm_append_comm
  | .binary lhs op mark rhs, before, after => by
    rw [Phrase.backward, Phrase.tokens, words_append, words_append]
    exact ((rhs.perm_backward _ _).append ((lhs.perm_backward _ _).cons _)).trans
      (List.perm_append_comm.trans List.perm_middle.symm)

lemma Arguments.perm_backward : (args : Arguments) → (words args.backward).Perm (words args.tokens)
  | .last arg => arg.perm_backward false false
  | .more arg comma rest => by
    rw [Arguments.backward, Arguments.tokens, words_append, words_append]
    exact (rest.perm_backward.append ((arg.perm_backward false false).cons _)).trans
      (List.perm_append_comm.trans List.perm_middle.symm)

lemma Brackets.perm_backward : (subs : Brackets) → (words subs.backward).Perm (words subs.tokens)
  | .done => .refl _
  | .dim _ _ _ rest | .option _ _ _ _ rest => ((rest.perm_backward.cons _).cons _).cons _
  | .constant left value right _ rest => by
    have hparts : ∀ ts us, words (left.token .lbracket :: (ts ++ right.token .rbracket :: us)) =
        left.token .lbracket :: (words ts ++ right.token .rbracket :: words us) := by simp [words]
    rw [Brackets.backward, Brackets.tokens, hparts, hparts]
    exact ((value.perm_backward false false).append (rest.perm_backward.cons _)).cons _

end

/-! ### Positions do not matter -/

lemma Phrase.isMinus_unplaced (p : Phrase) : p.unplaced.isMinus = p.isMinus := by cases p <;> rfl

lemma map_unplaced_enclosed (ts : List Token) : (enclosed ts).map Token.unplaced =
    enclosed (ts.map Token.unplaced) := by
  simp only [enclosed, List.map_cons, List.map_append, List.map_nil]
  rfl

mutual

lemma Phrase.backward_unplaced : (p : Phrase) → (before after : Bool) →
    p.unplaced.backward before after = (p.backward before after).map Token.unplaced
  | .number .., _, _ | .equation _, _, _ => rfl
  | .group _ body _, before, after => by
    simp only [Phrase.unplaced, Phrase.backward, body.isMinus_unplaced, body.backward_unplaced]
    split_ifs
    · rfl
    · rw [map_unplaced_enclosed]
  | .loop _ _ _ _ _ _ body _, before, after => by
    simp only [Phrase.unplaced, Phrase.backward, List.map_cons, List.map_append, body.backward_unplaced]
    rfl
  | .call _ _ _ args _, before, after => by
    simp only [Phrase.unplaced, Phrase.backward, List.map_cons, List.map_append, args.backward_unplaced]
    rfl
  | .decision _ subs, before, after | .parameter _ subs, before, after => by
    simp only [Phrase.unplaced, Phrase.backward, List.map_cons, subs.backward_unplaced]
    rfl
  | .minus sign arg, before, after => by
    simp only [Phrase.unplaced, Phrase.backward, arg.backward_unplaced]
    split_ifs
    · rw [map_unplaced_enclosed]
      rfl
    · rfl
  | .plus sign arg, before, after => by
    simp only [Phrase.unplaced, Phrase.backward, List.map_append, arg.backward_unplaced]
    rfl
  | .binary lhs op mark rhs, before, after => by
    simp only [Phrase.unplaced, Phrase.backward, List.map_cons, List.map_append, lhs.backward_unplaced,
      rhs.backward_unplaced]
    rfl

lemma Arguments.backward_unplaced : (args : Arguments) → args.unplaced.backward = args.backward.map Token.unplaced
  | .last arg => arg.backward_unplaced false false
  | .more arg _ rest => by
    simp only [Arguments.unplaced, Arguments.backward, List.map_cons, List.map_append, arg.backward_unplaced,
      rest.backward_unplaced]
    rfl

lemma Brackets.backward_unplaced : (subs : Brackets) → subs.unplaced.backward = subs.backward.map Token.unplaced
  | .done => rfl
  | .dim _ _ _ rest | .option _ _ _ _ rest => by
    simp only [Brackets.unplaced, Brackets.backward, List.map_cons, rest.backward_unplaced]
    rfl
  | .constant _ value _ _ rest => by
    simp only [Brackets.unplaced, Brackets.backward, List.map_cons, List.map_append, value.backward_unplaced,
      rest.backward_unplaced]
    rfl

end

mutual

lemma Phrase.plusFree_unplaced : (p : Phrase) → (p.unplaced.PlusFree ↔ p.PlusFree)
  | .number .. | .equation _ | .plus .. => Iff.rfl
  | .group _ body _ | .loop _ _ _ _ _ _ body _ | .minus _ body => body.plusFree_unplaced
  | .call _ _ _ args _ => args.plusFree_unplaced
  | .decision _ subs | .parameter _ subs => subs.plusFree_unplaced
  | .binary lhs _ _ rhs => and_congr lhs.plusFree_unplaced rhs.plusFree_unplaced

lemma Arguments.plusFree_unplaced : (args : Arguments) → (args.unplaced.PlusFree ↔ args.PlusFree)
  | .last arg => arg.plusFree_unplaced
  | .more arg _ rest => and_congr arg.plusFree_unplaced rest.plusFree_unplaced

lemma Brackets.plusFree_unplaced : (subs : Brackets) → (subs.unplaced.PlusFree ↔ subs.PlusFree)
  | .done => Iff.rfl
  | .dim _ _ _ rest | .option _ _ _ _ rest => rest.plusFree_unplaced
  | .constant _ value _ _ rest => and_congr value.plusFree_unplaced rest.plusFree_unplaced

end

end LandUse.Grammar
