import LandUse.Proofs.Equation.Delimiting
import LandUse.Proofs.Reversal.Places

/-! An element comes before those it encloses, and all others are apart from it. -/

namespace LandUse

structure Laminar (lo hi : Int) (es : List Element) : Prop where
  range : ∀ e ∈ es, lo ≤ e.span.start ∧ e.span.start ≤ e.span.stop ∧ e.span.stop ≤ hi
  nests : es.Pairwise fun e f => e.span.Nests f.span

namespace Laminar

variable {lo hi : Int} {x : Element} {es es' : List Element}

lemma nil : Laminar lo hi [] := ⟨List.forall_mem_nil _, .nil⟩

lemma mono {lo' hi' : Int} (h : Laminar lo hi es) (hlo : lo' ≤ lo) (hhi : hi ≤ hi') : Laminar lo' hi' es := by
  refine ⟨fun e he => ?_, h.nests⟩
  have := h.range e he
  omega

lemma append {mid mid' : Int} (h : Laminar lo mid es) (h' : Laminar mid' hi es') (hmid : mid < mid') (hlo : lo ≤ mid')
    (hhi : mid ≤ hi) : Laminar lo hi (es ++ es') := by
  refine ⟨List.forall_mem_append.2 ⟨(h.mono le_rfl hhi).range, (h'.mono hlo le_rfl).range⟩, ?_⟩
  apply List.pairwise_append.2 ⟨h.nests, h'.nests, fun e he f hf => .inl (.inl ?_)⟩
  have := h.range e he
  have := h'.range f hf
  omega

variable {start stop : Int}

lemma enclosed (h : Laminar lo hi es) (hx : x.span = ⟨start, stop⟩) (hspan : start ≤ stop) (hstart : start ≤ lo)
    (hstop : hi ≤ stop) (hlt : start < lo ∨ hi < stop) : Laminar start stop (x :: es) := by
  refine ⟨List.forall_mem_cons.2 ⟨by rw [hx]; exact ⟨le_rfl, hspan, le_rfl⟩, (h.mono hstart hstop).range⟩, ?_⟩
  apply List.pairwise_cons.2 ⟨fun e he => .inr (Span.encloses_iff.2 ?_), h.nests⟩
  have := h.range e he
  rw [hx]
  dsimp only
  omega

lemma single (hx : x.span = ⟨start, stop⟩) (hspan : start ≤ stop) : Laminar start stop [x] :=
  enclosed (h := nil) hx hspan (Int.le.intro 1 rfl) le_rfl (.inl (Int.lt_add_one_of_le le_rfl))

lemma between {mid mid' : Int} (h : Laminar lo mid es) (h' : Laminar mid' hi es') (hx : x.span = ⟨start, stop⟩)
    (hstart : mid < start) (hspan : start ≤ stop) (hstop : stop < mid') (hlo : lo ≤ start) (hhi : stop ≤ hi) :
    Laminar lo hi (x :: (es ++ es')) := by
  have hboth : Laminar lo hi (es ++ es') := h.append h' (by omega) (by omega) (by omega)
  refine ⟨List.forall_mem_cons.2 ⟨by rw [hx]; exact ⟨hlo, hspan, hhi⟩, hboth.range⟩, ?_⟩
  apply List.pairwise_cons.2 ⟨fun e he => .inl ?_, hboth.nests⟩
  rw [hx, Span.Apart]
  dsimp only
  rcases List.mem_append.1 he with he | he
  · have := h.range e he
    omega
  · have := h'.range e he
    omega

end Laminar

namespace Grammar

open LandUse.Parser Token

variable {src : Text.Bytes}

lemma laminar_kept {lo hi : Int} {x : Expr} (h : Laminar lo hi x.elements) :
    Laminar lo hi (keptElements (keptExpr x)) := by
  cases x with
  | number => exact .nil
  | _ => exact h

abbrev Held (f l : Token) (es : List Element) : Prop := Laminar f.pos ((l.past : Int) - 1) es

variable {l t : Token} {es : List Element} {x : Element}

lemma Held.widen {f f' l' : Token} (h : Held f l es) (hf : f'.pos ≤ f.pos) (hl : l.past ≤ l'.past) : Held f' l' es :=
  h.mono (Int.ofNat_le.2 hf) (Int.sub_le_sub_right (Int.ofNat_le.2 hl) 1)

lemma held_token (ht : t.Stands src) (hx : x.span = ⟨t.pos, t.last⟩) : Held t t [x] := by
  have hlt := ht.lt_past
  rw [last_eq ht] at hx
  exact .single hx (by omega)

lemma held_opened {lo : Nat} (ht : t.Stands src) (hlo : t.past ≤ lo) (hl : lo ≤ l.past)
    (hx : x.span = ⟨t.pos, (l.past : Int) - 1⟩) (hes : Laminar lo ((l.past : Int) - 1) es) : Held t l (x :: es) := by
  have hlt := ht.lt_past
  apply hes.enclosed hx <;> omega

lemma held_closed {ts : List Token} {left right f : Token} (ht : t.Stands src) (hleft : t.past ≤ left.pos)
    (hl : left.Stands src) (h : Between src left ts right f l) (hright : right.Stands src)
    (hkind : right.kind = .rparen) (hx : x.span = ⟨t.pos, right.pos⟩) (hfl : f.pos ≤ l.past) (hes : Held f l es) :
    Held t right (x :: es) := by
  have hpast := pos_eq (b := 41) hright (by rw [hkind]; rfl)
  have hlt := ht.lt_past
  have hlt' := hl.lt_past
  have hfirst := h.left.le
  have hlast := h.right.le
  rw [Held, ← hpast]
  apply hes.enclosed hx <;> omega

mutual

lemma Phrase.held (d : Depth) : (p : Phrase) → Laid src p.tokens → Held p.first p.final (p.expr d).elements
  | .number _ _, h | .equation _, h => held_token h.cons.1 rfl
  | .group _ body _, h => by
    obtain ⟨hleft, hbody, hright⟩ := laid_group h
    have hfirst := hleft.lt_past.le.trans hbody.left.le
    have hlast := hbody.right.le.trans hright.lt_past.le
    exact (body.held d hbody.laid).widen hfirst hlast
  | .loop keyword pos brace dim unbrace left body right, h => by
    obtain ⟨hname, hrest, hhead⟩ := Laid.cons h
    obtain ⟨hleft, hbody, hright⟩ :=
      hrest.cons.2.1.cons.2.1.cons.2.1.between body.head?_tokens body.getLast?_tokens
    have hle := hrest.le_of_mem (left.token .lparen) (by simp)
    exact held_closed hname ((hhead _ rfl).le.trans hle) hleft hbody hright.cons.1 rfl rfl
      (body.first_lt hbody.laid).le (body.held _ hbody.laid)
  | .call fn pos left args right, h => by
    obtain ⟨hname, hrest, hhead⟩ := Laid.cons h
    obtain ⟨hleft, hargs, hright⟩ := hrest.between args.head?_tokens args.getLast?_tokens
    exact held_closed hname (hhead _ rfl).le hleft hargs hright.cons.1 rfl rfl
      (args.first_lt hargs.laid).le (args.held _ hargs.laid)
  | .decision name subs, h | .parameter name subs, h => by
    have hle := h.past_le_of_mem (subs.getLast?_tokens _) _ List.mem_cons_self
    have hstop := subs.stop_eq h
    rw [← last_eq (t := name.token .ident) h.cons.1] at hstop
    exact held_opened h.cons.1 le_rfl hle (congrArg (Span.mk _) hstop) (subs.held d h)
  | .minus sign arg, h => by
    obtain ⟨hsign, harg, hhead⟩ := Laid.cons h
    have hle := (hhead _ arg.head?_tokens).le
    have hstop := arg.stop_span d harg
    exact held_opened hsign hle (arg.first_lt harg).le (congrArg (Span.mk _) hstop) (arg.held d harg)
  | .plus sign arg, h => by
    obtain ⟨hsign, harg, hhead⟩ := Laid.cons h
    exact (arg.held d harg).widen (hsign.lt_past.le.trans (hhead _ arg.head?_tokens).le) le_rfl
  | .binary lhs op mark rhs, h => by
    obtain ⟨hlhs, hmark, hrhs⟩ := laid_binary h
    have hstands := hmark.laid.stands _ (List.mem_singleton_self _)
    have hlt := hstands.lt_past
    have hleft := hmark.left.le
    have hright := hmark.right.le
    have hrangeL := lhs.first_lt hlhs
    have hrangeR := rhs.first_lt hrhs
    rw [Phrase.first, Phrase.final]
    refine .between (lhs.held d hlhs) (rhs.held d hrhs) (congrArg (Span.mk _) (last_eq hstands))
      ?_ ?_ ?_ ?_ ?_ <;> omega

lemma Arguments.held (d : Depth) : (args : Arguments) → Laid src args.tokens →
    Held args.first args.final (argumentElements (args.exprs d))
  | .last arg, h => by
    rw [Arguments.exprs, argumentElements, argumentElements, List.append_nil]
    exact arg.held d h
  | .more arg comma rest, h => by
    obtain ⟨harg, hcomma, hboth⟩ := Laid.append h
    obtain ⟨hstands, hrest, hhead⟩ := hcomma.cons
    have hleft := (hboth _ arg.getLast?_tokens _ rfl).le
    have hright := (hhead _ rest.head?_tokens).le
    have hlt := hstands.lt_past
    have hrangeL := arg.first_lt harg
    have hrangeR := rest.first_lt hrest
    apply (arg.held d harg).append (rest.held d hrest) <;> omega

lemma Brackets.held (d : Depth) : (subs : Brackets) → {t : Token} → Laid src (t :: subs.tokens) →
    Laminar t.past (((subs.final t).past : Int) - 1) (subscriptElements (subs.subscripts d))
  | .done, _, _ => .nil
  | .dim left name right rest, t, h | .option left name right _ rest, t, h => by
    have hrest := h.cons.2.1.cons.2.1.cons.2.1
    have hle := (h.cons.2.2 _ rfl).le
    have hle' := h.cons.2.1.le_of_mem (right.token .rbracket) (by simp)
    have hlt := hrest.cons.1.lt_past
    exact (rest.held d hrest).mono (by omega) le_rfl
  | .constant left value right _ rest, t, h => by
    obtain ⟨hleft, hvalue, hrest⟩ := h.cons.2.1.between value.head?_tokens value.getLast?_tokens
    have hle := (h.cons.2.2 _ rfl).le
    have hlt := hleft.lt_past
    have hlt' := hrest.cons.1.lt_past
    have hfirst := hvalue.left.le
    have hlast := hvalue.right.le
    have hrange := value.first_lt hvalue.laid
    have hfinal := hrest.past_le_of_mem (rest.getLast?_tokens _) _ List.mem_cons_self
    have hkept := (laminar_kept (value.held d hvalue.laid)).mono (show (t.past : Int) ≤ _ by omega) le_rfl
    apply hkept.append (rest.held d hrest) <;> omega

end

end Grammar

mutual

lemma Expr.laminar_codeElements : (e : Expr) → e.Applied → ∀ start : Nat,
    Laminar start ((start : Int) + e.codeSize - 1) (Elements.recorded (e.codeElements start))
  | .number .., _, start | .param .., _, start | .equation .., _, start => by
    refine .mono (.single rfl le_rfl) le_rfl ?_
    simp [Expr.codeSize]
  | .negate _ _ arg, h, start | .loop _ _ _ _ _ _ arg, h, start => by
    have hpos := arg.codeSize_pos h
    have harg := arg.laminar_codeElements h (start + 1)
    rw [Expr.codeSize]
    refine .mono (.enclosed harg rfl ?_ ?_ ?_ ?_) le_rfl ?_ <;> omega
  | .binary _ _ _ lhs rhs, h, start => by
    have hposL := lhs.codeSize_pos h.1
    have hposR := rhs.codeSize_pos h.2
    have hlhs := lhs.laminar_codeElements h.1 (start + 1)
    have hrhs := rhs.laminar_codeElements h.2 (start + 1 + lhs.codeSize)
    have hboth := hlhs.append hrhs (by omega) (by omega) (by omega)
    rw [Expr.codeElements, Elements.recorded_cons, Elements.recorded_append, Expr.codeSize]
    refine .mono (.enclosed hboth rfl ?_ ?_ ?_ ?_) le_rfl ?_ <;> omega
  | .group _ arg, h, start => arg.laminar_codeElements h start
  | .call _ fn _ _ _ args, h, start => by
    have hargs := laminar_argumentCodeElements args h.2 (start + (fn.head args.length).length)
    rw [Expr.codeElements, Expr.codeSize]
    rcases Function.head_cases h.1 with ⟨-, -, hhead⟩ | ⟨-, t, hhead, -⟩
    · rw [hhead] at hargs ⊢
      simpa [Elements.recorded] using hargs
    · rw [hhead] at hargs ⊢
      rw [List.length_singleton] at hargs ⊢
      refine .mono (.enclosed hargs rfl ?_ ?_ ?_ ?_) le_rfl ?_ <;> omega

lemma laminar_argumentCodeElements : (es : List Expr) → ArgumentsApplied es → ∀ start : Nat,
    Laminar start ((start : Int) + argumentsSize es - 1) (Elements.recorded (argumentCodeElements start es))
  | [], _, _ => .nil
  | e :: es, h, start => by
    have hpos := e.codeSize_pos h.1
    have he := e.laminar_codeElements h.1 start
    have hes := laminar_argumentCodeElements es h.2 (start + e.codeSize)
    rw [argumentCodeElements, Elements.recorded_append, argumentsSize]
    apply (he.append hes _ _ _).mono <;> omega

end

lemma Laminar.orderly {lo hi : Int} {es : List (Element × Bool)} {unmarked : Element → Bool}
    (h : Laminar lo hi (Elements.recorded es)) (hmarked : ∀ x ∈ es, x.2 = !unmarked x.1) (equation : String)
    (endAddressed : Bool) : (Elements.ofList equation endAddressed es).Orderly unmarked :=
  Elements.orderly_ofList hmarked (fun e he => (h.range e he).2.1) h.nests

theorem elements_orderly {symbols : Symbols} {self : String} {src : Text.Bytes} {e : Expr}
    (h : parseBytes symbols self src = .ok e) :
    (∀ endAddressed, (Elements.ofExpr self endAddressed e).Orderly fun _ => false) ∧
      (Code.ofExpr self e).elements.Orderly Element.isSingle := by
  have he := applied_of_parseBytes h
  obtain ⟨ts, p, hscan, hp, rfl⟩ := Grammar.derivation_of_parseBytes h
  obtain ⟨hlaid, -⟩ := (Token.cuts_of_scan hscan).laid [] rfl rfl
  rw [← hp.tokens] at hlaid
  refine ⟨fun endAddressed => ?_, ?_⟩
  · have hheld := p.held ⟨0, 0⟩ hlaid
    have hrecorded : Elements.recorded ((p.expr ⟨0, 0⟩).elements.map (·, true)) = (p.expr ⟨0, 0⟩).elements := by
      simp [Elements.recorded, List.filter_map, Function.comp_def]
    rw [Grammar.Held, ← hrecorded] at hheld
    refine hheld.orderly (fun x hx => ?_) self endAddressed
    obtain ⟨y, -, rfl⟩ := List.mem_map.1 hx
    rfl
  · exact ((p.expr ⟨0, 0⟩).laminar_codeElements he 0).orderly ((p.expr ⟨0, 0⟩).marked_codeElements he 0) self false

theorem negated_orderly : ∃ e, parseBytes Grammar.parametersOnly "q" (Text.bytes "-max(a, b)") = .ok e ∧
    ((Elements.ofExpr "q" true e).elementsAt 9).length = 2 ∧
    ((Elements.ofExpr "q" true e).elementsAt 9).Pairwise fun x y => x.span.Encloses y.span := by
  have hrun : (parseBytes Grammar.parametersOnly "q" (Text.bytes "-max(a, b)")).toOption.any
      (fun e => ((Elements.ofExpr "q" true e).elementsAt 9).length == 2) = true := by decide +kernel
  obtain ⟨e, he, hrun⟩ := Outcome.exists_of_any hrun
  exact ⟨e, he, beq_iff_eq.1 hrun, ((elements_orderly he).1 true).nested 9⟩

end LandUse
