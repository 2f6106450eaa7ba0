import LandUse.Proofs.Reversal.Operations

/-! The reversal of a phrase leaves its tokens from right to left, whatever stands around it. -/

namespace LandUse.Reversal

open Text Alphabet Grammar LandUse.Parser Token

variable {r : Reversal} {d : Depth} {s a b i j : Nat} {out : Bytes}

/-! ### Heads with something in parentheses -/

variable {f t u g l : Token} {ts : List Token} {left right name : Mark} {rest : Brackets}

lemma leaves_headed {e : Element} {es : List Element} {front : List Token} {g : Nat → Except RangeError Bytes}
    (hown : r.Own s f.pos u.past (e :: es)) (hspan : e.span = ⟨f.pos, u.pos⟩) (hsign : e.isSign = false)
    (hfront : Laid r.src (f :: front)) (ht : (f :: front).getLast? = some t) (htu : t.past ≤ u.pos)
    (hu : u.Stands r.src) (hpast : u.past = u.pos + 1)
    (hunit : ∀ fuel, r.unit (fuel + 1) e = (g fuel).bind fun inner =>
      .ok (r.cut f.pos t.past ++ inner ++ r.cut u.pos u.past))
    (hg : ∀ fuel, 3 * (u.pos - t.past) + 3 ≤ fuel → g fuel = .ok out) (hout : Spread out (ts.map unplaced))
    (hs : s ≤ f.pos) : r.Leaves s b f.pos u.past ((f :: front) ++ (ts ++ [u])) := by
  obtain ⟨hle, hspread⟩ := hfront.spread t ht
  have hrange := hfront.mem_range rfl ht List.mem_cons_self
  have hstop : e.span.stop = (u.past : Int) - 1 := by
    rw [hspan, hpast]
    simp
  have hunfolds : r.Unfolds e (slice r.src f.pos t.past ++ out ++ slice r.src u.pos u.past) := by
    intro fuel hfuel
    simp only [hspan] at hfuel
    obtain ⟨fuel, rfl⟩ := Nat.exists_eq_succ_of_ne_zero (show fuel ≠ 0 by omega)
    rw [hunit, hg fuel (by omega)]
    rfl
  have hturns := Turns.unit (b := b) hunfolds (hown.unitAt?_head hstop (by omega)) (by rw [hspan]) hstop hs (by omega)
  rw [hsign] at hturns
  refine ⟨_, hturns, ?_⟩
  rw [List.map_append, List.map_append, ← List.append_assoc]
  exact (hspread.append hout).append hu.spread

lemma Own.within {e : Element} {es : List Element} (hown : r.Own s f.pos u.past (e :: es))
    (hstop : e.span.stop = u.pos) (h : Between r.src t ts u g l) (hu : u.Stands r.src) (hf : f.pos ≤ t.past)
    (hs : s ≤ t.past) (hes : ∀ e ∈ es, (g.pos : Int) ≤ e.span.start) : r.Own t.past g.pos l.past es := by
  have hleft := h.left.le
  have hright := h.right.le
  have hlt := hu.lt_past
  refine hown.sub [e] [] (by simp) (by omega) (by omega) hs (fun e he => ?_) ?_
  · have := hes e he
    omega
  · rw [List.append_nil, List.forall_mem_singleton]
    exact .inr (.inl (by omega))

lemma turnsPhrase_loop {keyword : Keyword} {pos : Nat} {brace dim unbrace : Mark} {body : Phrase} (hr : r.Sound)
    (hbody : r.TurnsPhrase { d with loops := d.loops + 1 } body)
    (h : Laid r.src (Phrase.loop keyword pos brace dim unbrace left body right).tokens) :
    r.TurnsPhrase d (.loop keyword pos brace dim unbrace left body right) := by
  intro s b hown hs hb
  have hfront : Laid r.src [⟨.ident, keyword.name, pos⟩, brace.token .lbrace, dim.token .ident, unbrace.token .rbrace,
    left.token .lparen] := Laid.front h
  obtain ⟨hleft, hbetween, hclose⟩ :=
    h.cons.2.1.cons.2.1.cons.2.1.cons.2.1.between body.head?_tokens body.getLast?_tokens
  have hright := hclose.cons.1
  have hle := Laid.le_of_mem hfront (left.token .lparen) (by simp)
  have hleftPast := (hleft.byte (b := 40) rfl).1
  have hrightPast := (hright.byte (b := 41) rfl).1
  have hlt := first_lt_final hbetween.laid
  have hownBody := Own.within (f := (Phrase.loop keyword pos brace dim unbrace left body right).first)
    (u := right.token .rparen) hown rfl hbetween hright (hle.trans hleft.lt_past.le)
    (hs.trans (hle.trans hleft.lt_past.le))
    fun e he => (body.range _ hbetween.laid he).1
  obtain ⟨out, hout, hspread⟩ := hbody.yields hr hbetween.laid hownBody hbetween.left.blanks hbetween.left.le
    hbetween.right.blanks hbetween.right.le (by have := hright.past_le; omega)
  refine leaves_headed (t := left.token .lparen) (u := right.token .rparen) (g := fun fuel => r.range fuel
    ((left.token .lparen).past) (right.pos - 1)) hown rfl rfl hfront rfl
    (hbetween.left.le.trans (hlt.le.trans hbetween.right.le)) hright hrightPast (fun fuel => ?_)
    (fun fuel hfuel => hout fuel (by omega)) hspread hs
  rw [hleftPast, hrightPast]
  simp only [unit, Nat.cast_add, Nat.cast_one, Int.sub_add_cancel]
  rfl

def TurnsArguments (r : Reversal) (d : Depth) (args : Arguments) : Prop :=
  ∀ ⦃a b : Nat⦄, r.Own a args.first.pos args.final.past (argumentElements (args.exprs d)) →
    Blanks r.src a args.first.pos → a ≤ args.first.pos → Blanks r.src args.final.past b → args.final.past ≤ b →
      b ≤ r.src.length → ∃ out, (∀ fuel, 3 * (b - a) + 3 ≤ fuel →
        r.arguments fuel (argSpans a ((b : Int) - 1) args.seps) = .ok out) ∧ Spread out (args.backward.map unplaced)

lemma turnsArguments_last {arg : Phrase} (hr : r.Sound) (harg : r.TurnsPhrase d arg) (h : Laid r.src arg.tokens) :
    r.TurnsArguments d (.last arg) := by
  intro a b hown hleft ha hright hb hlen
  rw [Arguments.exprs, argumentElements, argumentElements, List.append_nil] at hown
  obtain ⟨out, hout, hspread⟩ := harg.yields hr h hown hleft ha hright hb hlen
  refine ⟨out, fun fuel hfuel => ?_, hspread⟩
  obtain ⟨fuel, rfl⟩ := Nat.exists_eq_succ_of_ne_zero (show fuel ≠ 0 by omega)
  simp only [Arguments.seps, argSpans, arguments, hout fuel (by omega), bind, Except.bind, pure, Except.pure,
    List.isEmpty_nil, if_true]

lemma argSpans_ne_nil (start stop : Int) : (seps : List Int) → (argSpans start stop seps).isEmpty = false
  | [] | _ :: _ => rfl

lemma turnsArguments_more {arg : Phrase} {comma : Mark} {rest : Arguments} (hr : r.Sound) (harg : r.TurnsPhrase d arg)
    (hrest : r.TurnsArguments d rest) (h : Laid r.src (Arguments.more arg comma rest).tokens) :
    r.TurnsArguments d (.more arg comma rest) := by
  intro a b hown hleft ha hright hb hlen
  obtain ⟨hlaid, hbehind, hboth⟩ := Laid.append h
  obtain ⟨hcomma, hlaid', hhead⟩ := hbehind.cons
  have hprec := hboth _ arg.getLast?_tokens _ rfl
  have hprec' := hhead _ rest.head?_tokens
  obtain ⟨t, hteq⟩ : ∃ t, t = comma.token .comma := ⟨_, rfl⟩
  have hpos : (comma.pos : Int) = t.pos := by rw [hteq]
  have hkind : bracket? 44 = some t.kind := by rw [hteq]; rfl
  rw [← hteq] at hcomma hprec hprec'
  have hpast := (hcomma.byte hkind).1
  have hle := hprec.le
  have hle' := hprec'.le
  have hlt := first_lt_final hlaid
  have hfinal := hlaid'.mem_range rest.head?_tokens rest.getLast?_tokens (List.mem_of_head? rest.head?_tokens)
  change a ≤ arg.first.pos at ha
  change rest.final.past ≤ b at hb
  change r.Own a arg.first.pos rest.final.past ((arg.expr d).elements ++ argumentElements (rest.exprs d)) at hown
  have hownArg : r.Own a arg.first.pos arg.final.past (arg.expr d).elements := by
    refine hown.sub [] (argumentElements (rest.exprs d)) rfl le_rfl (by omega) le_rfl
      (fun e he => ?_) fun e he => .inr (.inl ?_)
    · have := (arg.range d hlaid he).1
      omega
    · have := rest.range d hlaid' he
      omega
  have hownRest : r.Own t.past rest.first.pos rest.final.past (argumentElements (rest.exprs d)) := by
    refine hown.sub (arg.expr d).elements [] (by simp) (by omega) le_rfl (by omega)
      (fun e he => ?_) fun e he => .inl ?_
    · have := (rest.range d hlaid' he).1
      omega
    · rw [List.append_nil] at he
      have := arg.range d hlaid he
      omega
  obtain ⟨first, hfirst, hspread⟩ := harg.yields hr hlaid hownArg hleft ha hprec.blanks hle (by omega)
  obtain ⟨later, hlater, hspread'⟩ := hrest hownRest hprec'.blanks hle' hright hb hlen
  refine ⟨later ++ 44 :: first, fun fuel hfuel => ?_, ?_⟩
  · obtain ⟨fuel, rfl⟩ := Nat.exists_eq_succ_of_ne_zero (show fuel ≠ 0 by omega)
    have hlater := hlater fuel (by omega)
    rw [show (t.past : Int) = (t.pos : Int) + 1 by omega] at hlater
    simp only [Arguments.seps, argSpans, arguments, hpos, hlater, hfirst fuel (by omega), bind, Except.bind, pure,
      Except.pure, argSpans_ne_nil]
    rfl
  · have hbyte := (hcomma.spread_byte hkind).append hspread
    rw [Arguments.backward, List.map_append, List.map_cons, ← hteq]
    exact hspread'.append hbyte

lemma turnsPhrase_call {fn : Function} {pos : Nat} {args : Arguments}
    (hargs : r.TurnsArguments { d with calls := d.calls + 1 } args)
    (h : Laid r.src (Phrase.call fn pos left args right).tokens) :
    r.TurnsPhrase d (.call fn pos left args right) := by
  intro s b hown hs hb
  have hfront : Laid r.src [⟨.ident, fn.name, pos⟩, left.token .lparen] := Laid.front h
  obtain ⟨hleft, hbetween, hclose⟩ := h.cons.2.1.between args.head?_tokens args.getLast?_tokens
  have hright := hclose.cons.1
  have hle := Laid.le_of_mem hfront (left.token .lparen) (by simp)
  have hleftPast := (hleft.byte (b := 40) rfl).1
  have hrightPast := (hright.byte (b := 41) rfl).1
  have hrange := hbetween.laid.mem_range args.head?_tokens args.getLast?_tokens (List.mem_of_head? args.head?_tokens)
  have hlt : args.first.pos ≤ args.final.past := by omega
  have hownArgs := Own.within (f := (Phrase.call fn pos left args right).first) (u := right.token .rparen) hown rfl
    hbetween hright (hle.trans hleft.lt_past.le) (hs.trans (hle.trans hleft.lt_past.le))
    fun e he => (args.range _ hbetween.laid he).1
  obtain ⟨out, hout, hspread⟩ := hargs hownArgs hbetween.left.blanks hbetween.left.le hbetween.right.blanks
    hbetween.right.le (by have := hright.past_le; omega)
  refine leaves_headed (t := left.token .lparen) (u := right.token .rparen) (g := fun fuel => r.arguments fuel
    (argSpans (left.token .lparen).past (right.pos - 1) args.seps)) hown rfl rfl hfront rfl
    (hbetween.left.le.trans (hlt.trans hbetween.right.le)) hright hrightPast (fun fuel => ?_) hout hspread hs
  rw [hleftPast, hrightPast]
  simp only [unit, Nat.cast_add, Nat.cast_one, Int.sub_add_cancel]
  rfl

/-! ### References -/

def index (r : Reversal) (fuel : Nat) : Subscript → Except RangeError Bytes
  | .index span _ (some _) => r.range fuel span.start span.stop
  | sub => .ok (r.cut sub.span.start (sub.span.stop + 1))

lemma subscripts_cons (fuel : Nat) (cursor stop : Int) (sub : Subscript) (subs : List Subscript) :
    r.subscripts (fuel + 1) cursor stop (sub :: subs) = (r.index fuel sub).bind fun inner =>
      (r.subscripts fuel (sub.span.stop + 1) stop subs).bind fun rest =>
        .ok (r.cut cursor sub.span.start ++ inner ++ rest) := by
  rcases sub with _ | _ | ⟨_, _, _ | _⟩ <;> rfl

def TurnsBrackets (r : Reversal) (d : Depth) (subs : Brackets) : Prop :=
  ∀ ⦃t : Token⦄ ⦃s : Nat⦄, Laid r.src (t :: subs.tokens) →
    r.Own s t.past (subs.final t).past (subscriptElements (subs.subscripts d)) → s ≤ t.past →
      ∃ out, (∀ fuel, 3 * ((subs.final t).past - t.pos) ≤ fuel + 1 →
        r.subscripts fuel t.pos (((subs.final t).past : Int) - 1) (subs.subscripts d) = .ok out) ∧
          Spread out ((t :: subs.backward).map unplaced)

lemma turnsBrackets_done : r.TurnsBrackets d .done := by
  intro t s h hown _
  refine ⟨slice r.src t.pos t.past, fun fuel _ => ?_, h.cons.1.spread⟩
  rw [Brackets.subscripts, Brackets.final, subscripts, Int.sub_add_cancel, cut_natCast]

lemma turnsBrackets_cons {sub : Subscript} {us : List Token} {stop : Nat}
    (h : Laid r.src (t :: l :: (ts ++ u :: rest.tokens))) (hf : ts.head? = some f) (hg : ts.getLast? = some g)
    (hl : l.past = l.pos + 1) (hspan : sub.span = ⟨l.pos + 1, u.pos - 1⟩) (hstop : stop = (rest.final u).past)
    (hindex : ∀ fuel, 3 * (u.pos - l.past) + 2 ≤ fuel → r.index fuel sub = .ok out)
    (hout : Spread out (us.map unplaced)) {later : Bytes}
    (hlater : ∀ fuel, 3 * (stop - u.pos) ≤ fuel + 1 → r.subscripts fuel u.pos ((stop : Int) - 1)
      (rest.subscripts d) = .ok later)
    (hspread : Spread later ((u :: rest.backward).map unplaced)) :
    ∃ out, (∀ fuel, 3 * (stop - t.pos) ≤ fuel + 1 →
      r.subscripts fuel t.pos ((stop : Int) - 1) (sub :: rest.subscripts d) = .ok out) ∧
        Spread out ((t :: l :: (us ++ u :: rest.backward)).map unplaced) := by
  obtain ⟨ht, htokens, hhead⟩ := h.cons
  obtain ⟨hleft, hbetween, hrest⟩ := htokens.between hf hg
  have hprec := hhead l rfl
  have hfront : Laid r.src [t, l] := Laid.front h
  obtain ⟨hle, hspread'⟩ := hfront.spread l rfl
  have hlt := ht.lt_past
  have hle' := hprec.le
  have hrange := hbetween.laid.mem_range hf hg (List.mem_of_head? hf)
  have hle₁ := hbetween.left.le
  have hle₂ := hbetween.right.le
  have hlt' := hrest.cons.1.lt_past
  have hfinal := hrest.past_le_of_mem (rest.getLast?_tokens u) u List.mem_cons_self
  refine ⟨slice r.src t.pos l.past ++ out ++ later, fun fuel hfuel => ?_, ?_⟩
  · obtain ⟨fuel, rfl⟩ := Nat.exists_eq_succ_of_ne_zero (show fuel ≠ 0 by omega)
    rw [subscripts_cons, hindex fuel (by omega), hspan]
    simp only [Except.bind, Int.sub_add_cancel, hlater fuel (by omega)]
    rw [show (l.pos : Int) + 1 = l.past by omega, cut_natCast]
  · have hall := (hspread'.append hout).append hspread
    simpa using hall

lemma turnsBrackets_plain {sub : Subscript} (ts : List Token) (hrest : r.TurnsBrackets d rest)
    (h : Laid r.src (t :: l :: (ts ++ u :: rest.tokens))) (hf : ts.head? = some f) (hg : ts.getLast? = some g)
    (hl : bracket? 91 = some l.kind) (hspan : sub.span = ⟨l.pos + 1, u.pos - 1⟩)
    (hindex : ∀ fuel, r.index fuel sub = .ok (r.cut sub.span.start (sub.span.stop + 1)))
    (hown : r.Own s t.past (rest.final u).past (subscriptElements (rest.subscripts d))) (hs : s ≤ t.past) :
    ∃ out, (∀ fuel, 3 * ((rest.final u).past - t.pos) ≤ fuel + 1 →
      r.subscripts fuel t.pos (((rest.final u).past : Int) - 1) (sub :: rest.subscripts d) = .ok out) ∧
        Spread out ((t :: l :: (ts ++ u :: rest.backward)).map unplaced) := by
  obtain ⟨-, htokens, hhead⟩ := h.cons
  obtain ⟨hleft, hbetween, hlaid⟩ := htokens.between hf hg
  have hpast := (hleft.byte hl).1
  have hle := (hhead _ rfl).le
  have hright := Laid.le_of_mem htokens u (by simp)
  have hlt := hlaid.cons.1.lt_past
  have hownRest : r.Own s u.past (rest.final u).past (subscriptElements (rest.subscripts d)) :=
    hown.sub [] [] (by simp) (by omega) le_rfl le_rfl hown.start (by simp)
  obtain ⟨later, hlater, hspread⟩ := hrest hlaid hownRest (by omega)
  refine turnsBrackets_cons h hf hg hpast hspan rfl (fun fuel _ => ?_) (hbetween.spread hf hg) hlater hspread
  rw [hindex, hspan, ← cut_natCast, hpast]
  simp only [Int.sub_add_cancel, Nat.cast_add, Nat.cast_one]

lemma turnsBrackets_dim (hrest : r.TurnsBrackets d rest) : r.TurnsBrackets d (.dim left name right rest) := by
  intro t s h hown hs
  exact turnsBrackets_plain [name.token .ident] hrest h rfl rfl rfl rfl (fun _ => rfl) hown hs

lemma turnsBrackets_option {k : Nat} (hrest : r.TurnsBrackets d rest) :
    r.TurnsBrackets d (.option left name right k rest) := by
  intro t s h hown hs
  exact turnsBrackets_plain [name.token .ident] hrest h rfl rfl rfl rfl (fun _ => rfl) hown hs

lemma keptExpr_cases {value : Phrase} (hp : value.PlusFree) (d : Depth) :
    (∃ x mark, value = .number x mark) ∨ keptExpr (value.expr d) = some (value.expr d) := by
  cases value with
  | number x mark => exact .inl ⟨x, mark, rfl⟩
  | plus => exact hp.elim
  | _ => exact .inr rfl

lemma turnsBrackets_constant {value : Phrase} {k : Nat} (hr : r.Sound) (hvalue : r.TurnsPhrase d value)
    (hrest : r.TurnsBrackets d rest) (hp : value.PlusFree) :
    r.TurnsBrackets d (.constant left value right k rest) := by
  intro t s h hown hs
  rcases keptExpr_cases hp d with ⟨x, mark, rfl⟩ | hkept
  · exact turnsBrackets_plain [mark.token (.number x)] hrest h rfl rfl rfl rfl (fun _ => rfl) hown hs
  obtain ⟨-, htokens, hhead⟩ := h.cons
  obtain ⟨hleft, hbetween, hlaid⟩ := htokens.between value.head?_tokens value.getLast?_tokens
  have hpast := (hleft.byte (b := 91) rfl).1
  have hle := (hhead _ rfl).le
  have hlt := first_lt_final hbetween.laid
  have hle₁ := hbetween.left.le
  have hle₂ := hbetween.right.le
  have hlt' := hlaid.cons.1.lt_past
  have hfinal := hlaid.past_le_of_mem (rest.getLast?_tokens _) _ List.mem_cons_self
  rw [Brackets.subscripts, hkept] at hown ⊢
  rw [subscriptElements, Subscript.elements, keptElements] at hown
  change r.Own s t.past (rest.final (right.token .rbracket)).past _ at hown
  have hownValue : r.Own (left.token .lbracket).past value.first.pos value.final.past (value.expr d).elements := by
    refine hown.sub [] (subscriptElements (rest.subscripts d)) rfl (by omega) (by omega) (by omega)
      (fun e he => ?_) fun e he => .inr (.inl ?_)
    · have := (value.range d hbetween.laid he).1
      omega
    · have := (rest.range d hlaid he).2.1
      omega
  have hownRest : r.Own s (right.token .rbracket).past (rest.final (right.token .rbracket)).past
      (subscriptElements (rest.subscripts d)) := by
    refine hown.sub (value.expr d).elements [] (by simp) (by omega) le_rfl le_rfl
      (fun e he => hown.start e (List.mem_append_right _ he)) fun e he => .inl ?_
    rw [List.append_nil] at he
    have := value.range d hbetween.laid he
    omega
  obtain ⟨out, hout, hspread⟩ := hvalue.yields hr hbetween.laid hownValue hbetween.left.blanks hle₁
    hbetween.right.blanks hle₂ (by have := hlaid.cons.1.past_le; omega)
  obtain ⟨later, hlater, hspread'⟩ := hrest hlaid hownRest (by omega)
  refine turnsBrackets_cons h value.head?_tokens value.getLast?_tokens hpast rfl rfl
    (fun fuel hfuel => ?_) hspread hlater
    hspread'
  rw [← hout fuel hfuel, hpast]
  rfl

lemma leaves_reference {subs : Brackets} {isVariable : Bool} (hsubs : r.TurnsBrackets d subs)
    (h : Laid r.src (name.token .ident :: subs.tokens))
    (hown : r.Own s name.pos (subs.final (name.token .ident)).past (.param name.lexeme (subs.subscripts d)
      isVariable ⟨name.pos, subs.stop (name.token .ident).last⟩ :: subscriptElements (subs.subscripts d)))
    (hs : s ≤ name.pos) :
    r.Leaves s b name.pos (subs.final (name.token .ident)).past (name.token .ident :: subs.backward) := by
  have hname : name.pos < (name.token .ident).past := h.cons.1.lt_past
  have hfinal := h.past_le_of_mem (subs.getLast?_tokens _) _ List.mem_cons_self
  rw [last_eq h.cons.1, subs.stop_eq h] at hown
  have hownSubs : r.Own (name.token .ident).past (name.token .ident).past (subs.final (name.token .ident)).past
      (subscriptElements (subs.subscripts d)) := by
    refine hown.sub [_] [] (List.append_nil _).symm hname.le le_rfl (by omega)
      (fun e he => (subs.range d h he).1.le) ?_
    rw [List.append_nil, List.forall_mem_singleton]
    exact .inr (.inr ⟨Int.sub_add_cancel _ _, Int.ofNat_lt.2 hname⟩)
  obtain ⟨out, hout, hspread⟩ := hsubs h hownSubs le_rfl
  have hunfolds : r.Unfolds (.param name.lexeme (subs.subscripts d) isVariable
      ⟨name.pos, ((subs.final (name.token .ident)).past : Int) - 1⟩) out := by
    intro fuel hfuel
    simp only [Element.span] at hfuel
    obtain ⟨fuel, rfl⟩ := Nat.exists_eq_succ_of_ne_zero (show fuel ≠ 0 by omega)
    exact hout fuel (by change 3 * (_ - name.pos) ≤ _; omega)
  exact ⟨out, Turns.unit hunfolds (hown.unitAt?_head rfl (by omega)) rfl rfl hs (by omega), hspread⟩

/-! ### All phrases -/

mutual

-- A pair of parentheses asks for the operand of a sign between them, which is not one of its parts.
lemma turnsPhrase_and (hr : r.Sound) (d : Depth) : (p : Phrase) → Laid r.src p.tokens → p.PlusFree →
    r.TurnsPhrase d p ∧ ∀ sign arg, p = .minus sign arg → r.TurnsPhrase d arg
  | .number .., h, _ => ⟨turnsPhrase_number h, nofun⟩
  | .equation _, h, _ => ⟨turnsPhrase_equation h, nofun⟩
  | .group _ body _, h, hp => by
    obtain ⟨hbody, harg⟩ := turnsPhrase_and hr d body (laid_group h).2.1.laid hp
    exact ⟨turnsPhrase_group hr hbody harg h hp, nofun⟩
  | .loop _ _ _ _ _ _ body _, h, hp => by
    have hlaid := (h.cons.2.1.cons.2.1.cons.2.1.cons.2.1.between body.head?_tokens body.getLast?_tokens).2.1.laid
    exact ⟨turnsPhrase_loop hr (turnsPhrase_and hr _ body hlaid hp).1 h, nofun⟩
  | .call _ _ _ args _, h, hp => by
    have hlaid := (h.cons.2.1.between args.head?_tokens args.getLast?_tokens).2.1.laid
    exact ⟨turnsPhrase_call (turnsArguments hr _ args hlaid hp) h, nofun⟩
  | .decision _ subs, h, hp | .parameter _ subs, h, hp =>
    ⟨fun _ _ hown hs _ => leaves_reference (turnsBrackets hr d subs h hp) h hown hs, nofun⟩
  | .minus _ arg, h, hp => by
    have harg := (turnsPhrase_and hr d arg h.cons.2.1 hp).1
    exact ⟨turnsPhrase_minus hr harg h hp, by rintro _ _ ⟨⟩; exact harg⟩
  | .binary lhs _ _ rhs, h, hp => by
    obtain ⟨hlhs, -, hrhs⟩ := laid_binary h
    exact ⟨turnsPhrase_binary hr (turnsPhrase_and hr d lhs hlhs hp.1).1
      (turnsPhrase_and hr d rhs hrhs hp.2).1 h hp, nofun⟩

lemma turnsArguments (hr : r.Sound) (d : Depth) : (args : Arguments) → Laid r.src args.tokens → args.PlusFree →
    r.TurnsArguments d args
  | .last arg, h, hp => turnsArguments_last hr (turnsPhrase_and hr d arg h hp).1 h
  | .more arg _ rest, h, hp =>
    turnsArguments_more hr (turnsPhrase_and hr d arg (Laid.append h).1 hp.1).1
      (turnsArguments hr d rest (Laid.append h).2.1.cons.2.1 hp.2) h

lemma turnsBrackets (hr : r.Sound) (d : Depth) : (subs : Brackets) → {t : Token} → Laid r.src (t :: subs.tokens) →
    subs.PlusFree → r.TurnsBrackets d subs
  | .done, _, _, _ => turnsBrackets_done
  | .dim _ _ _ rest, _, h, hp => turnsBrackets_dim (turnsBrackets hr d rest h.cons.2.1.cons.2.1.cons.2.1 hp)
  | .option _ _ _ _ rest, _, h, hp => turnsBrackets_option (turnsBrackets hr d rest h.cons.2.1.cons.2.1.cons.2.1 hp)
  | .constant _ value _ _ rest, _, h, hp => by
    obtain ⟨-, hvalue, hrest⟩ := h.cons.2.1.between value.head?_tokens value.getLast?_tokens
    exact turnsBrackets_constant hr (turnsPhrase_and hr d value hvalue.laid hp.1).1 (turnsBrackets hr d rest hrest hp.2)
      hp.1

end

end LandUse.Reversal
