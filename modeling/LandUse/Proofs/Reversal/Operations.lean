import LandUse.Proofs.Reversal.Turning

namespace LandUse.Reversal

open Text Alphabet Grammar LandUse.Parser Token

def TurnsPhrase (r : Reversal) (d : Depth) (p : Phrase) : Prop :=
  ∀ ⦃s b : Nat⦄, r.Own s p.first.pos p.final.past (p.expr d).elements → s ≤ p.first.pos → p.final.past ≤ b →
    r.Leaves s b p.first.pos p.final.past
      (p.backward (r.powerBefore p.first.pos s) (r.powerAfter ((p.final.past : Int) - 1) ((b : Int) - 1)))

variable {r : Reversal} {d : Depth} {s a b i j : Nat} {out : Bytes}

lemma first_lt_final {src : Bytes} {p : Phrase} (h : Laid src p.tokens) : p.first.pos < p.final.past := by
  obtain ⟨-, hlt, hle⟩ := h.mem_range p.head?_tokens p.getLast?_tokens (List.mem_of_head? p.head?_tokens)
  exact hlt.trans_le hle

lemma TurnsPhrase.yields {p : Phrase} (hp : r.TurnsPhrase d p) (hr : r.Sound) (h : Laid r.src p.tokens)
    (hown : r.Own a p.first.pos p.final.past (p.expr d).elements) (hleft : Blanks r.src a p.first.pos)
    (ha : a ≤ p.first.pos) (hright : Blanks r.src p.final.past b) (hb : p.final.past ≤ b) (hlen : b ≤ r.src.length) :
    r.Yields a b (p.backward false false) := by
  have hlt := first_lt_final h
  have hturns := hp hown ha hb
  rw [powerBefore_start hleft ha, powerAfter_stop hright hb] at hturns
  obtain ⟨n, rfl⟩ := Nat.exists_eq_add_of_le hb
  have hblanks := leaves_blanks (b := p.final.past + n) hr (ha.trans hlt.le) n hright
  exact ((hblanks.trans hturns).blanks hr hleft ha le_rfl).yields hlen

variable {e : Element} {t : Token}

lemma Own.unitAt?_head {es : List Element} (hown : r.Own s i j (e :: es)) (hstop : e.span.stop = (j : Int) - 1)
    (hij : i < j) : r.unitAt? ((j : Int) - 1) s = some e := by
  have hunit := hown.unitAt? (k := j - 1) (by omega) (by omega)
  rw [show (j : Int) - 1 = (j - 1 : Nat) by omega] at hstop ⊢
  rw [hunit, List.find?_cons_of_pos (by simpa using hstop)]

lemma leaves_token (ht : t.Stands r.src) (hspan : e.span = ⟨t.pos, t.last⟩) (hsign : e.isSign = false)
    (hunit : ∀ fuel, r.unit (fuel + 1) e = .ok (r.cut e.span.start (e.span.stop + 1)))
    (hat : r.unitAt? ((t.past : Int) - 1) s = some e) (hs : s ≤ t.pos) : r.Leaves s b t.pos t.past [t] := by
  have hlt := ht.lt_past
  rw [last_eq ht] at hspan
  have hunfolds : r.Unfolds e (slice r.src t.pos t.past) := by
    intro fuel hfuel
    simp only [hspan] at hfuel
    obtain ⟨fuel, rfl⟩ := Nat.exists_eq_succ_of_ne_zero (show fuel ≠ 0 by omega)
    rw [hunit fuel, hspan, Int.sub_add_cancel, cut_natCast]
  have hturns := Turns.unit (b := b) hunfolds hat (by rw [hspan]) (by rw [hspan]) hs hlt
  rw [hsign] at hturns
  exact ⟨_, hturns, ht.spread⟩

lemma turnsPhrase_number {x : Float} {mark : Mark} (h : Laid r.src (Phrase.number x mark).tokens) :
    r.TurnsPhrase d (.number x mark) := fun _ _ hown hs _ =>
  leaves_token h.cons.1 rfl rfl (fun _ => rfl) (hown.unitAt?_head (last_eq h.cons.1) h.cons.1.lt_past) hs

lemma turnsPhrase_equation {name : Mark} (h : Laid r.src (Phrase.equation name).tokens) :
    r.TurnsPhrase d (.equation name) := fun _ _ hown hs _ =>
  leaves_token h.cons.1 rfl rfl (fun _ => rfl) (hown.unitAt?_head (last_eq h.cons.1) h.cons.1.lt_past) hs

/-! ### Signs -/

def signElement (d : Depth) (sign : Mark) (arg : Phrase) : Element :=
  .operator "-" .neg true ⟨sign.pos, (arg.expr d).span.stop⟩ (arg.expr d).span

lemma unfolds_sign {sign : Mark} {arg : Phrase} (hr : r.Sound) (harg : r.TurnsPhrase d arg)
    (h : Laid r.src (Phrase.minus sign arg).tokens) (hp : arg.PlusFree)
    (hown : r.Own s sign.pos arg.final.past ((Phrase.minus sign arg).expr d).elements) (hs : s ≤ sign.pos) :
    ∃ out, r.Unfolds (signElement d sign arg) out ∧
      Spread out ((sign.token (.operator .minus) :: arg.backward false false).map unplaced) := by
  obtain ⟨hsign, hlaid, hhead⟩ := Laid.cons h
  have hprec := hhead _ arg.head?_tokens
  have hle := hprec.le
  have hlt : sign.pos < (sign.token (.operator .minus)).past := hsign.lt_past
  have hlt' := first_lt_final hlaid
  have hspan := arg.span d hlaid hp
  have hownArg : r.Own arg.first.pos arg.first.pos arg.final.past (arg.expr d).elements := by
    refine hown.sub [signElement d sign arg] [] (by simp [signElement, Phrase.expr, Expr.elements])
      (by omega) le_rfl (by omega) (fun e he => (arg.range d hlaid he).1) ?_
    rw [List.append_nil, List.forall_mem_singleton]
    refine .inr (.inr ⟨?_, Int.ofNat_lt.2 (hlt.trans_le hle)⟩)
    rw [signElement, Element.span, hspan, Int.sub_add_cancel]
  have hfinal := (hlaid.stands _ (List.mem_of_getLast? arg.getLast?_tokens)).past_le
  obtain ⟨inner, hinner, hspread⟩ := harg.yields hr hlaid hownArg (fun k hk hk' => by omega) le_rfl
    (fun k hk hk' => by omega) le_rfl hfinal
  refine ⟨r.cut sign.pos arg.first.pos ++ inner, fun fuel hfuel => ?_, ?_⟩
  · simp only [signElement, Element.span, hspan] at hfuel
    obtain ⟨fuel, rfl⟩ := Nat.exists_eq_succ_of_ne_zero (show fuel ≠ 0 by omega)
    simp only [signElement, unit, hspan, hinner fuel (by omega), bind, Except.bind, pure, Except.pure]
  · rw [cut_natCast, ← slice_append r.src (show sign.pos ≤ (sign.token (.operator .minus)).past from hlt.le) hle]
    exact (hsign.spread.append hprec.spread).append hspread

lemma spread_enclosed {ts : List Token} (h : Spread out (ts.map unplaced)) :
    Spread (40 :: (out ++ [41])) ((enclosed ts).map unplaced) := by
  have hclose : Spread [41] [(closeParen.token .rparen).unplaced] := spread_byte rfl .done
  have := spread_byte (b := 40) rfl (h.append hclose)
  rwa [enclosed, List.map_cons, List.map_append]

lemma turnsPhrase_minus {sign : Mark} {arg : Phrase} (hr : r.Sound) (harg : r.TurnsPhrase d arg)
    (h : Laid r.src (Phrase.minus sign arg).tokens) (hp : arg.PlusFree) : r.TurnsPhrase d (.minus sign arg) := by
  intro s b hown hs hb
  obtain ⟨out, hunfold, hspread⟩ := unfolds_sign hr harg h hp hown hs
  have hstop : (signElement d sign arg).span.stop = (arg.final.past : Int) - 1 := by
    rw [signElement, Element.span, arg.span d h.cons.2.1 hp]
  have hturns := Turns.unit (b := b) (i := sign.pos) hunfold (hown.unitAt?_head hstop (first_lt_final h)) rfl hstop hs
    (first_lt_final h)
  refine ⟨_, hturns, ?_⟩
  change Spread (if r.powerBefore sign.pos s = true then _ else _)
    (List.map _ (if r.powerBefore sign.pos s = true then _ else _))
  split_ifs
  · exact spread_enclosed hspread
  · exact hspread

/-! ### Operations -/

lemma past_pow {src : Bytes} (ht : t.Stands src) (hkind : t.kind = .operator .pow) : t.past = t.pos + 1 := by
  obtain ⟨lex, hlex, hlexeme, -⟩ := ht
  rw [hkind] at hlex
  rcases hlex.byte_cases with ⟨op, hop, rfl⟩ | ⟨hne, -⟩
  · cases hop
    rw [past, hlexeme, ascii_bytes_symbol]
    rfl
  · exact absurd rfl (hne .pow)

lemma Sound.isPower_operator (hr : r.Sound) {op : Operator} {k : Nat} (ht : t.Stands r.src)
    (hkind : t.kind = .operator op) (he : e ∈ r.elements.endingAt (t.past - 1 : Nat)) (hoperator : e.kind = .operator)
    (hle : t.pos ≤ k) (hlt : k < t.past) : r.isPower k = decide (op = .pow) := by
  by_cases hop : op = .pow
  · subst hop
    have hpast := past_pow ht hkind
    obtain rfl : k = t.past - 1 := by omega
    rw [hr.isPower_of_caret ((ht.caret hle hlt).2 hkind) he hoperator]
    rfl
  · rw [hr.isPower_eq_false ht (by rw [hkind]; simpa using hop) hle hlt, decide_eq_false hop]

def operatorElement (op : Operator) (t : Token) : Element := .operator op.symbol op.opcode false ⟨t.pos, t.last⟩ ⟨0, 0⟩

structure Operated (r : Reversal) (d : Depth) (s b : Nat) (lhs : Phrase) (op : Operator) (t : Token) (rhs : Phrase) :
    Prop where
  left : Laid r.src lhs.tokens
  between : Between r.src lhs.final [t] rhs.first t t
  right : Laid r.src rhs.tokens
  kind : t.kind = .operator op
  leftFree : lhs.PlusFree
  rightFree : rhs.PlusFree
  own : r.Own s lhs.first.pos rhs.final.past
    (operatorElement op t :: ((lhs.expr d).elements ++ (rhs.expr d).elements))
  start : s ≤ lhs.first.pos
  stop : rhs.final.past ≤ b

namespace Operated

variable {lhs rhs : Phrase} {op : Operator} {t : Token}

lemma mark (h : r.Operated d s b lhs op t rhs) : t.Stands r.src := h.between.laid.stands _ (List.mem_singleton_self _)

lemma places (h : r.Operated d s b lhs op t rhs) : lhs.first.pos < lhs.final.past ∧ lhs.final.past ≤ t.pos ∧
    t.pos < t.past ∧ t.past ≤ rhs.first.pos ∧ rhs.first.pos < rhs.final.past :=
  ⟨first_lt_final h.left, h.between.left.le, h.mark.lt_past, h.between.right.le, first_lt_final h.right⟩

lemma element_stop (h : r.Operated d s b lhs op t rhs) : (operatorElement op t).span.stop = (t.past - 1 : Nat) := by
  have hplaces := h.places
  have hlast : (operatorElement op t).span.stop = (t.past : Int) - 1 := last_eq h.mark
  omega

lemma ownRight (h : r.Operated d s b lhs op t rhs) : r.Own s rhs.first.pos rhs.final.past (rhs.expr d).elements := by
  have hplaces := h.places
  have hstop := h.element_stop
  refine h.own.sub (operatorElement op t :: (lhs.expr d).elements) [] (by simp) (by omega) le_rfl le_rfl
    (fun e he => h.own.start e (by simp [he])) ?_
  rw [List.append_nil, List.forall_mem_cons]
  refine ⟨.inl (by omega), fun e he => .inl ?_⟩
  have := (lhs.range d h.left he).2.2
  omega

lemma ownLeft (h : r.Operated d s b lhs op t rhs) : r.Own s lhs.first.pos lhs.final.past (lhs.expr d).elements := by
  have hplaces := h.places
  have hstop := h.element_stop
  refine h.own.sub [operatorElement op t] (rhs.expr d).elements (by simp) le_rfl (by omega) le_rfl
    (fun e he => h.own.start e (by simp [he])) ?_
  rw [List.singleton_append, List.forall_mem_cons]
  refine ⟨.inr (.inl (by omega)), fun e he => .inr (.inl ?_)⟩
  have := (rhs.range d h.right he).2.1
  omega

lemma unitAt? (h : r.Operated d s b lhs op t rhs) : r.unitAt? ((t.past : Int) - 1) s = some (operatorElement op t) := by
  have hplaces := h.places
  have hstop := h.element_stop
  rw [show (t.past : Int) - 1 = (t.past - 1 : Nat) by omega, h.own.unitAt? (by omega) (by omega),
    List.find?_cons_of_pos (by simpa using hstop)]

lemma isPower (h : r.Operated d s b lhs op t rhs) (hr : r.Sound) {k : Nat} (hle : t.pos ≤ k) (hlt : k < t.past) :
    r.isPower k = decide (op = .pow) := by
  have hplaces := h.places
  have hstop := h.element_stop
  refine hr.isPower_operator (e := operatorElement op t) h.mark h.kind ?_ rfl hle hlt
  rw [h.own.inner _ (by omega) (by omega)]
  exact List.mem_filter.2 ⟨List.mem_cons_self, by simpa using hstop⟩

lemma leaves (h : r.Operated d s b lhs op t rhs) (hr : r.Sound) (hlhs : r.TurnsPhrase d lhs)
    (hrhs : r.TurnsPhrase d rhs) :
    r.Leaves s b lhs.first.pos rhs.final.past
      (rhs.backward (op = .pow) (r.powerAfter ((rhs.final.past : Int) - 1) ((b : Int) - 1)) ++
        t :: lhs.backward (r.powerBefore lhs.first.pos s) (op = .pow)) := by
  have hplaces := h.places
  have hstart := h.start
  have hstop := h.stop
  have hbefore : r.powerBefore rhs.first.pos s = decide (op = .pow) := by
    rw [powerBefore_token h.between.right h.mark (by omega), show (t.past : Int) - 1 = (t.past - 1 : Nat) by omega]
    exact h.isPower hr (by omega) (by omega)
  have hafter : r.powerAfter ((lhs.final.past : Int) - 1) ((b : Int) - 1) = decide (op = .pow) := by
    rw [powerAfter_token h.between.left h.mark (by omega)]
    exact h.isPower hr le_rfl (by omega)
  have hright := hrhs h.ownRight (by omega) hstop
  have hleft := hlhs h.ownLeft hstart (show lhs.final.past ≤ b by omega)
  have hmark : r.Leaves s b t.pos t.past [t] := leaves_token h.mark rfl rfl (fun _ => rfl) h.unitAt? (by omega)
  rw [hbefore] at hright
  rw [hafter] at hleft
  have hall := (((hright.blanks hr h.between.right.blanks h.between.right.le (by omega)).trans hmark).blanks hr
    h.between.left.blanks h.between.left.le (by omega)).trans hleft
  rwa [List.append_assoc, List.singleton_append] at hall

end Operated

lemma turnsPhrase_binary {lhs rhs : Phrase} {op : Operator} {mark : Mark} (hr : r.Sound) (hlhs : r.TurnsPhrase d lhs)
    (hrhs : r.TurnsPhrase d rhs) (h : Laid r.src (Phrase.binary lhs op mark rhs).tokens)
    (hp : (Phrase.binary lhs op mark rhs).PlusFree) : r.TurnsPhrase d (.binary lhs op mark rhs) := by
  intro s b hown hs hb
  obtain ⟨hleft, hmark, hright⟩ := laid_binary h
  have hoperated : r.Operated d s b lhs op (mark.token (.operator op)) rhs :=
    ⟨hleft, hmark, hright, rfl, hp.1, hp.2, hown, hs, hb⟩
  exact hoperated.leaves hr hlhs hrhs

/-! ### Parentheses -/

lemma signedGroup?_eq {q : Nat} (hbyte : r.src[i]? = some 41) (hback : r.back ((i : Int) - 1) s = q) (hs : s ≤ q) :
    r.signedGroup? i s = ((r.elements.endingAt q).find? Element.isSign).bind fun e =>
      if r.back (e.span.start - 1) s < s || r.byteAt? (r.back (e.span.start - 1) s) != some 40 then none
      else some ⟨r.back (e.span.start - 1) s, q, e⟩ := by
  rw [signedGroup?, byteAt?_natCast, hbyte, hback, if_neg (by simp), if_neg (by omega)]
  cases (r.elements.endingAt q).find? Element.isSign <;> rfl

lemma operator_ne_paren : ∀ c : UInt8, isOperatorByte c = true → c ≠ 40 := by decide +kernel

lemma back_token {u : Token} {s : Int} (h : Precedes r.src t u) (ht : t.Stands r.src) (hs : s ≤ t.pos) :
    r.back ((u.pos : Int) - 1) s = (t.past - 1 : Nat) := by
  have hlt := ht.lt_past
  have hpred : (t.past : Int) - 1 = (t.past - 1 : Nat) := by omega
  rw [back_eq h.blanks h.le (by omega) (.inr ?_), hpred]
  rw [hpred]
  exact not_isBlankAt ht (by omega) (by omega)

lemma signedGroup?_eq_none {p : Phrase} {right : Token} (hbyte : r.src[right.pos]? = some 41)
    (hprec : Precedes r.src p.final right) (h : Laid r.src p.tokens) (hp : p.PlusFree) (hminus : p.isMinus = false)
    (hends : r.elements.endingAt (p.final.past - 1 : Nat) =
      (p.expr d).elements.filter (·.span.stop == ((p.final.past - 1 : Nat) : Int)))
    (hs : s ≤ p.first.pos) : r.signedGroup? right.pos s = none := by
  have hlt := first_lt_final h
  have hfinal := h.stands _ (List.mem_of_getLast? p.getLast?_tokens)
  have hfirst := h.mem_range p.head?_tokens p.getLast?_tokens (List.mem_of_getLast? p.getLast?_tokens)
  rw [signedGroup?_eq hbyte (back_token hprec hfinal (by omega)) (by omega), Option.bind_eq_none_iff]
  intro e he
  have hmem := List.mem_of_find?_eq_some he
  rw [hends, List.mem_filter, beq_iff_eq] at hmem
  rcases p.sign_at_end d h hp e hmem.1 (List.find?_some he) (by omega) with ⟨hsign, -⟩ | ⟨u, hu,
    ⟨op, hop⟩, f, hf, hstart⟩
  · rw [hminus] at hsign
    cases hsign
  · have hrange := h.mem_range p.head?_tokens p.getLast?_tokens hu
    have hstands := h.stands u hu
    obtain ⟨lex, c, hlex, hc, hsrc⟩ := hstands.exists_byte (k := u.past - 1) (by omega) (by omega)
    rw [hstart, back_token hf hstands (by omega), byteAt?_natCast, hsrc, if_pos]
    rcases hlex.byte_cases with ⟨op', -, rfl⟩ | ⟨hne, -⟩
    · simpa using .inr (operator_ne_paren c (isOperatorByte_symbol op' c hc))
    · exact absurd hop (hne op)

structure Grouped (r : Reversal) (d : Depth) (s b : Nat) (t : Token) (p : Phrase) (u : Token) : Prop where
  between : Between r.src t p.tokens u p.first p.final
  left : t.Stands r.src
  right : u.Stands r.src
  opens : t.kind = .lparen
  closes : u.kind = .rparen
  plusFree : p.PlusFree
  own : r.Own s t.pos u.past (p.expr d).elements
  start : s ≤ t.pos
  stop : u.past ≤ b

namespace Grouped

variable {t u : Token} {p : Phrase}

lemma left_byte (h : r.Grouped d s b t p u) : t.past = t.pos + 1 ∧ r.src[t.pos]? = some 40 :=
  h.left.byte (by rw [h.opens]; rfl)

lemma right_byte (h : r.Grouped d s b t p u) : u.past = u.pos + 1 ∧ r.src[u.pos]? = some 41 :=
  h.right.byte (by rw [h.closes]; rfl)

lemma places (h : r.Grouped d s b t p u) : t.pos + 1 ≤ p.first.pos ∧ p.first.pos < p.final.past ∧
    p.final.past ≤ u.pos := by
  have hle := h.between.left.le
  rw [h.left_byte.1] at hle
  exact ⟨hle, first_lt_final h.between.laid, h.between.right.le⟩

lemma ownBody (h : r.Grouped d s b t p u) : r.Own s p.first.pos p.final.past (p.expr d).elements := by
  have hplaces := h.places
  have hright := h.right_byte.1
  exact h.own.sub [] [] (by simp) (by omega) (by omega) le_rfl h.own.start (by simp)

lemma endingAt (h : r.Grouped d s b t p u) : r.elements.endingAt (p.final.past - 1 : Nat) =
    (p.expr d).elements.filter (·.span.stop == ((p.final.past - 1 : Nat) : Int)) := by
  have hplaces := h.places
  have hright := h.right_byte.1
  exact h.own.inner _ (by omega) (by omega)

lemma unitAt?_eq_none (h : r.Grouped d s b t p u) {k : Nat} (hk : k = t.pos ∨ k = u.pos) : r.unitAt? k s = none := by
  have hplaces := h.places
  have hright := h.right_byte.1
  rw [h.own.unitAt? (by omega) (by omega)]
  refine List.find?_eq_none.2 fun e he => ?_
  have := p.range d h.between.laid he
  simp only [beq_iff_eq]
  omega

lemma leaves (h : r.Grouped d s b t p u) (hr : r.Sound) (hp : r.TurnsPhrase d p) (hminus : p.isMinus = false) :
    r.Leaves s b t.pos u.past (enclosed (p.backward false false)) := by
  obtain ⟨hleft, hleftByte⟩ := h.left_byte
  obtain ⟨hright, hrightByte⟩ := h.right_byte
  have hplaces := h.places
  have hstart := h.start
  have hstop := h.stop
  have hturns := hp h.ownBody (by omega) (show p.final.past ≤ b by omega)
  have hbefore : r.powerBefore p.first.pos s = false := by
    rw [powerBefore_token h.between.left h.left (by omega), show (t.past : Int) - 1 = t.pos by omega]
    exact hr.isPower_eq_false h.left (by rw [h.opens]; nofun) le_rfl h.left.lt_past
  have hafter : r.powerAfter ((p.final.past : Int) - 1) ((b : Int) - 1) = false := by
    rw [powerAfter_token h.between.right h.right (by omega)]
    exact hr.isPower_eq_false h.right (by rw [h.closes]; nofun) le_rfl h.right.lt_past
  have hnone : r.signedGroup? u.pos s = none :=
    signedGroup?_eq_none hrightByte h.between.right h.between.laid h.plusFree hminus h.endingAt (by omega)
  have hnone' : r.signedGroup? t.pos s = none := by
    refine signedGroup?_of_ne ?_ s
    rw [byteAt?_natCast, hleftByte]
    decide
  have hopen : r.Leaves s b u.pos u.past [openParen.token .lparen] := by
    rw [hright]
    exact ⟨_, Turns.byte (h.unitAt?_eq_none (.inr rfl)) hnone hrightByte (by omega), spread_byte (b := 40) rfl .done⟩
  have hclose : r.Leaves s b t.pos t.past [closeParen.token .rparen] := by
    rw [hleft]
    exact ⟨_, Turns.byte (h.unitAt?_eq_none (.inl rfl)) hnone' hleftByte (by omega), spread_byte (b := 41) rfl .done⟩
  rw [hbefore, hafter] at hturns
  have hall := (((hopen.blanks hr h.between.right.blanks h.between.right.le (by omega)).trans hturns).blanks hr
    h.between.left.blanks h.between.left.le (by omega)).trans hclose
  rwa [List.append_assoc, List.singleton_append] at hall

variable {sign : Mark} {arg : Phrase}

lemma sign_places (h : r.Grouped d s b t (.minus sign arg) u) :
    t.pos + 1 ≤ sign.pos ∧ sign.pos < arg.final.past ∧ arg.final.past ≤ u.pos := h.places

lemma sign_stop (h : r.Grouped d s b t (.minus sign arg) u) :
    (signElement d sign arg).span.stop = ((arg.final.past - 1 : Nat) : Int) := by
  have hplaces := h.sign_places
  have hspan : (signElement d sign arg).span.stop = (arg.final.past : Int) - 1 :=
    congrArg Span.stop ((Phrase.minus sign arg).span d h.between.laid h.plusFree)
  omega

lemma signedGroup?_sign (h : r.Grouped d s b t (.minus sign arg) u) :
    r.signedGroup? u.pos s = some ⟨t.pos, (arg.final.past - 1 : Nat), signElement d sign arg⟩ := by
  have hlaid := h.between.laid
  have hplaces := h.sign_places
  have hstart := h.start
  have hmem := List.mem_of_getLast? (Phrase.minus sign arg).getLast?_tokens
  have hfinal : arg.final.Stands r.src := hlaid.stands _ hmem
  have hfirst : sign.pos ≤ arg.final.pos := (hlaid.mem_range (Phrase.head?_tokens _) (Phrase.getLast?_tokens _) hmem).1
  have hback : r.back ((u.pos : Int) - 1) s = (arg.final.past - 1 : Nat) :=
    back_token h.between.right hfinal (by omega)
  have hback' : r.back ((sign.pos : Int) - 1) s = t.pos := by
    rw [show sign.pos = (Phrase.minus sign arg).first.pos from rfl, back_token h.between.left h.left (by omega),
      h.left_byte.1, Nat.add_sub_cancel]
  have hfind : (r.elements.endingAt (arg.final.past - 1 : Nat)).find? Element.isSign =
    some (signElement d sign arg) := by
    have hends : r.elements.endingAt (arg.final.past - 1 : Nat) =
      (signElement d sign arg :: (arg.expr d).elements).filter
      (·.span.stop == ((arg.final.past - 1 : Nat) : Int)) := h.endingAt
    rw [hends, List.filter_cons_of_pos (by simpa using h.sign_stop), List.find?_cons_of_pos rfl]
  have hopening : r.back ((signElement d sign arg).span.start - 1) s = t.pos := hback'
  rw [signedGroup?_eq h.right_byte.2 hback (by omega), hfind, Option.bind_some, hopening, byteAt?_natCast,
    h.left_byte.2, if_neg]
  simpa using hstart

lemma leaves_sign (h : r.Grouped d s b t (.minus sign arg) u) (hr : r.Sound) (harg : r.TurnsPhrase d arg) :
    r.Leaves s b t.pos u.past
      (if r.powerAfter ((u.past : Int) - 1) ((b : Int) - 1) && !r.powerBefore t.pos s then
        (Phrase.minus sign arg).backward false false
      else enclosed ((Phrase.minus sign arg).backward false false)) := by
  obtain ⟨hleft, -⟩ := h.left_byte
  obtain ⟨hright, -⟩ := h.right_byte
  obtain ⟨hfirst, hlt, hlast⟩ := h.sign_places
  have hstart := h.start
  have hstop := h.sign_stop
  obtain ⟨out, hunfolds, hspread⟩ := unfolds_sign hr harg h.between.laid h.plusFree h.ownBody (by omega)
  have hturns := Turns.signed (b := b) (g := ⟨t.pos, (arg.final.past - 1 : Nat), signElement d sign arg⟩) hunfolds
    (h.unitAt?_eq_none (.inr rfl)) h.signedGroup?_sign rfl hstart (show (t.pos : Int) < sign.pos by omega)
    (by rw [hstop]; omega) (by omega)
  rw [← hright] at hturns
  refine ⟨_, hturns, ?_⟩
  rw [show (u.past : Int) - 1 = u.pos by omega]
  have hbefore : Spread (r.cut ((arg.final.past - 1 : Nat) + 1 : Int) u.pos).reverse [] := by
    rw [show ((arg.final.past - 1 : Nat) + 1 : Int) = arg.final.past by omega, cut_natCast]
    exact spread_blanks fun c hc => h.between.right.blanks.mem_slice c (List.mem_reverse.1 hc)
  have hbehind : Spread (r.cut ((t.pos : Int) + 1) sign.pos).reverse [] := by
    rw [show (t.pos : Int) + 1 = t.past by omega, cut_natCast]
    exact spread_blanks fun c hc => h.between.left.blanks.mem_slice c (List.mem_reverse.1 hc)
  have hplain : Spread out (((Phrase.minus sign arg).backward false false).map unplaced) := hspread
  have hinner := (hbefore.append hplain).append hbehind
  rw [List.nil_append, List.append_nil] at hinner
  cases r.powerAfter u.pos ((b : Int) - 1) <;> cases r.powerBefore t.pos s
  case true.false => exact hplain
  all_goals exact spread_enclosed hinner

end Grouped

lemma turnsPhrase_group {left right : Mark} {body : Phrase} (hr : r.Sound) (hbody : r.TurnsPhrase d body)
    (harg : ∀ sign arg, body = .minus sign arg → r.TurnsPhrase d arg)
    (h : Laid r.src (Phrase.group left body right).tokens) (hp : body.PlusFree) :
    r.TurnsPhrase d (.group left body right) := by
  intro s b hown hs hb
  obtain ⟨hleft, hbetween, hright⟩ := laid_group h
  have hgroup : r.Grouped d s b (left.token .lparen) body (right.token .rparen) :=
    ⟨hbetween, hleft, hright, rfl, rfl, hp, hown, hs, hb⟩
  cases hminus : body.isMinus with
  | false =>
    have hleaves := hgroup.leaves hr hbody hminus
    rw [Phrase.backward, hminus]
    exact hleaves
  | true =>
    cases body with
    | minus sign arg =>
      have hleaves := hgroup.leaves_sign hr (harg sign arg rfl)
      exact hleaves
    | _ => cases hminus

end LandUse.Reversal
