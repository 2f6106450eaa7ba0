import LandUse.Proofs.Reversal.Addressing
import LandUse.Proofs.Reversal.Guarded

namespace LandUse

open Text

namespace Grammar

open LandUse.Parser Token

variable {src : Bytes}

lemma inside_closed {ts : List Token} {t left right f l : Token} (ht : t.Stands src) (hleft : t.past ≤ left.pos)
    (hl : left.Stands src) (h : Between src left ts right f l) (hfl : f.pos ≤ l.past) :
    Guarded.Inside ⟨t.pos, right.pos⟩ ⟨left.pos + 1, right.pos - 1⟩ := by
  have hlt := ht.lt_past
  have hlt' := hl.lt_past
  have hfirst := h.left.le
  have hlast := h.right.le
  constructor <;> dsimp only <;> omega

lemma Arguments.spaced : (args : Arguments) → Laid src args.tokens → ∀ {start stop : Int}, start ≤ args.first.pos →
    args.final.past ≤ stop + 1 → Guarded.Spaced start stop args.seps
  | .last _, _, _, _, _, _ => trivial
  | .more arg comma rest, h, start, stop, hstart, hstop => by
    obtain ⟨harg, hcomma, hboth⟩ := Laid.append h
    obtain ⟨hstands, hrest, hhead⟩ := hcomma.cons
    have hleft : arg.final.past ≤ comma.pos := (hboth _ arg.getLast?_tokens _ rfl).le
    have hright := (hhead _ rest.head?_tokens).le
    have hlt : comma.pos < (comma.token .comma).past := hstands.lt_past
    have hrangeL := arg.first_lt harg
    have hrangeR := rest.first_lt hrest
    rw [Arguments.first] at hstart
    rw [Arguments.final] at hstop
    exact ⟨by omega, by omega, rest.spaced hrest (by omega) hstop⟩

lemma Brackets.inRow (d : Depth) : {t : Token} → (subs : Brackets) → Laid src (t :: subs.tokens) →
    Guarded.InRow t.pos (subs.stop ((t.past : Int) - 1)) (subs.subscripts d)
  | t, .done, h => by
    have hlt := h.cons.1.lt_past
    rw [Brackets.stop, Brackets.subscripts, Guarded.InRow]
    omega
  | t, .dim left name right rest, h | t, .option left name right _ rest, h => by
    obtain ⟨ht, hleft, hhead⟩ := h.cons
    obtain ⟨hstands, hname, hnext⟩ := hleft.cons
    have hrest := hname.cons.2.1
    have hlt := ht.lt_past
    have hlt' : left.pos < (left.token .lbracket).past := hstands.lt_past
    have hle : t.past ≤ left.pos := (hhead _ rfl).le
    have hle' : (left.token .lbracket).past ≤ right.pos :=
      (hnext _ rfl).le.trans (hname.le_of_mem (right.token .rbracket) (by simp))
    have htail := rest.inRow d hrest
    rw [← pos_eq (b := 93) hrest.cons.1 rfl] at htail
    refine ⟨?_, ?_, ?_⟩
    · dsimp only [Subscript.span]
      omega
    · dsimp only [Subscript.span]
      omega
    · rw [Subscript.span, Int.sub_add_cancel]
      exact htail
  | t, .constant left value right _ rest, h => by
    obtain ⟨ht, htokens, hhead⟩ := h.cons
    obtain ⟨hleft, hvalue, hrest⟩ := htokens.between value.head?_tokens value.getLast?_tokens
    have hlt := ht.lt_past
    have hlt' : left.pos < (left.token .lbracket).past := hleft.lt_past
    have hle : t.past ≤ left.pos := (hhead _ rfl).le
    have hfirst := hvalue.left.le
    have hlast : value.final.past ≤ right.pos := hvalue.right.le
    have hrange := value.first_lt hvalue.laid
    have htail := rest.inRow d hrest
    rw [← pos_eq (b := 93) hrest.cons.1 rfl] at htail
    refine ⟨?_, ?_, ?_⟩
    · dsimp only [Subscript.span]
      omega
    · dsimp only [Subscript.span]
      omega
    · rw [Subscript.span, Int.sub_add_cancel]
      exact htail

mutual

lemma Phrase.holds (d : Depth) : (p : Phrase) → Laid src p.tokens → ∀ e ∈ (p.expr d).elements, Guarded.Holds e
  | .number .., _, e, he | .equation _, _, e, he => by
    obtain rfl := List.mem_singleton.1 he
    trivial
  | .group _ body _, h, e, he => body.holds d (laid_group h).2.1.laid e he
  | .loop keyword pos brace dim unbrace left body right, h, e, he => by
    obtain ⟨hname, hrest, hhead⟩ := Laid.cons h
    obtain ⟨hleft, hbody, -⟩ := hrest.cons.2.1.cons.2.1.cons.2.1.between body.head?_tokens body.getLast?_tokens
    have hle := hrest.le_of_mem (left.token .lparen) (by simp)
    rcases List.mem_cons.1 he with rfl | he
    · exact inside_closed hname ((hhead _ rfl).le.trans hle) hleft hbody (body.first_lt hbody.laid).le
    · exact body.holds _ hbody.laid e he
  | .call fn pos left args right, h, e, he => by
    obtain ⟨hname, hrest, hhead⟩ := Laid.cons h
    obtain ⟨hleft, hargs, -⟩ := hrest.between args.head?_tokens args.getLast?_tokens
    rcases List.mem_cons.1 he with rfl | he
    · have hlt : left.pos < (left.token .lparen).past := hleft.lt_past
      have hfirst := hargs.left.le
      have hlast : args.final.past ≤ right.pos := hargs.right.le
      refine ⟨inside_closed hname (hhead _ rfl).le hleft hargs (args.first_lt hargs.laid).le, rfl,
        args.spaced hargs.laid ?_ ?_⟩ <;> dsimp only <;> omega
    · exact args.holds _ hargs.laid e he
  | .decision name subs, h, e, he | .parameter name subs, h, e, he => by
    rcases List.mem_cons.1 he with rfl | he
    · have hrow := subs.inRow d h
      rwa [← last_eq (t := name.token .ident) h.cons.1] at hrow
    · exact subs.holds d h e he
  | .minus sign arg, h, e, he => by
    obtain ⟨hsign, harg, hhead⟩ := Laid.cons h
    rcases List.mem_cons.1 he with rfl | he
    · have hlt : sign.pos < (sign.token (.operator .minus)).past := hsign.lt_past
      have hle := (hhead _ arg.head?_tokens).le
      have hstart := arg.start_range d harg
      have hstop := arg.stop_span d harg
      exact ⟨show (sign.pos : Int) < _ by omega, by omega, le_rfl⟩
    · exact arg.holds d harg e he
  | .plus _ arg, h, e, he => arg.holds d h.cons.2.1 e he
  | .binary lhs op mark rhs, h, e, he => by
    obtain ⟨hlhs, -, hrhs⟩ := laid_binary h
    rcases List.mem_cons.1 he with rfl | he
    · trivial
    · rcases List.mem_append.1 he with he | he
      · exact lhs.holds d hlhs e he
      · exact rhs.holds d hrhs e he

lemma Arguments.holds (d : Depth) : (args : Arguments) → Laid src args.tokens →
    ∀ e ∈ argumentElements (args.exprs d), Guarded.Holds e
  | .last arg, h, e, he => by
    rw [Arguments.exprs, argumentElements, argumentElements, List.append_nil] at he
    exact arg.holds d h e he
  | .more arg comma rest, h, e, he => by
    obtain ⟨harg, hrest, -⟩ := Laid.append h
    rcases List.mem_append.1 he with he | he
    · exact arg.holds d harg e he
    · exact rest.holds d hrest.cons.2.1 e he

lemma Brackets.holds (d : Depth) : (subs : Brackets) → {t : Token} → Laid src (t :: subs.tokens) →
    ∀ e ∈ subscriptElements (subs.subscripts d), Guarded.Holds e
  | .done, _, _, _, he => by cases he
  | .dim _ _ _ rest, _, h, e, he | .option _ _ _ _ rest, _, h, e, he =>
    rest.holds d h.cons.2.1.cons.2.1.cons.2.1 e he
  | .constant _ value _ _ rest, _, h, e, he => by
    obtain ⟨-, hvalue, hrest⟩ := h.cons.2.1.between value.head?_tokens value.getLast?_tokens
    rcases List.mem_append.1 he with he | he
    · exact value.holds d hvalue.laid e (mem_kept he)
    · exact rest.holds d hrest e he

end

lemma orderly_placed {symbols : Symbols} {self : String} {e : Expr} (h : parseBytes symbols self src = .ok e) :
    ((Elements.ofExpr self true e).Orderly fun _ => false) ∧ ∀ x ∈ e.elements, Guarded.Placed src.length x := by
  obtain ⟨ts, p, hscan, hp, rfl⟩ := derivation_of_parseBytes h
  obtain ⟨hlaid, -⟩ := (Token.cuts_of_scan hscan).laid [] (List.nil_append src).symm rfl
  rw [← hp.tokens] at hlaid
  have hheld := p.held ⟨0, 0⟩ hlaid
  refine ⟨?_, fun x hx => ?_⟩
  · rw [Held, ← Elements.recorded_all (p.expr ⟨0, 0⟩).elements] at hheld
    refine hheld.orderly (fun x hx => ?_) self true
    obtain ⟨y, -, rfl⟩ := List.mem_map.1 hx
    rfl
  · have hfinal := (hlaid.stands _ (List.mem_of_getLast? p.getLast?_tokens)).past_le
    obtain ⟨hstart, hrange, hstop⟩ := hheld.range x hx
    exact ⟨by omega, hrange, by omega, p.holds ⟨0, 0⟩ hlaid x hx⟩

end Grammar

namespace Guarded

def reverseRange (src : Bytes) (elements : Elements) (start stop : Int) : Except Stop Bytes :=
  let r : Reversal := ⟨src, elements⟩
  range r r.fuel start stop

lemma reverseRange_gives {src : Bytes} {elements : Elements} (h : Fitted ⟨src, elements⟩) {start stop : Int}
    (hstart : 0 ≤ start) (hstop : stop < src.length) :
    Gives (LandUse.reverseRange src elements start stop) (reverseRange src elements start stop) := by
  apply (covers h _).range start stop hstart hstop <;> dsimp only [Reversal.fuel] <;> omega

lemma reverseRange_refused (src : Bytes) (elements : Elements) {start stop : Int}
    (h : start < 0 ∨ (src.length : Int) ≤ stop) :
    LandUse.reverseRange src elements start stop = .error ⟨elements.equation, start, stop⟩ ∧
      reverseRange src elements start stop = .error (.refused ⟨elements.equation, start, stop⟩) := by
  have hfuel : Reversal.fuel ⟨src, elements⟩ = 8 * src.length + 15 + 1 := Nat.mul_add 8 src.length 2
  have hbounds : (start < 0 || (src.length : Int) ≤ stop : Bool) = true := by simpa using h
  rw [LandUse.reverseRange, reverseRange, hfuel, Reversal.range, range]
  exact ⟨if_pos hbounds, if_pos hbounds⟩

end Guarded

/-- Reversal does not depend on how the elements are addressed, and a range is refused only if it leaves the source. -/
theorem reversal_ignores_addresses {symbols : Symbols} {self : String} {src : Bytes} {e : Expr}
    (h : parseBytes symbols self src = .ok e) :
    (∀ order, (Elements.ofExpr self false e).Lists order → ∀ pos,
      (Elements.ofExpr self false e).regrouped order pos = (Elements.ofExpr self true e).elementsAt pos ∧
        (Elements.ofExpr self false e).regrouped order pos = (Elements.ofExpr self false e).endingAt pos) ∧
    ∀ start stop,
      reverseRange src (.ofExpr self false e) start stop = reverseRange src (.ofExpr self true e) start stop ∧
      ∀ endAddressed,
        (0 ≤ start → stop < src.length → ∃ text, reverseRange src (.ofExpr self endAddressed e) start stop = .ok text ∧
          Guarded.reverseRange src (.ofExpr self endAddressed e) start stop = .ok text) ∧
        (start < 0 ∨ src.length ≤ stop →
          reverseRange src (.ofExpr self endAddressed e) start stop = .error ⟨self, start, stop⟩ ∧
            Guarded.reverseRange src (.ofExpr self endAddressed e) start stop =
            .error (.refused ⟨self, start, stop⟩)) := by
  obtain ⟨horderly, hplaced⟩ := Grammar.orderly_placed h
  have hending := Elements.endingAt_eq horderly
  refine ⟨fun order horder pos => ?_, fun start stop =>
    ⟨?_, fun endAddressed => ⟨fun hstart hstop => ?_, fun hout => ?_⟩⟩⟩
  · have hregrouped := Elements.regrouped_eq horderly horder pos
    refine ⟨hregrouped, ?_⟩
    rw [hregrouped, hending, Elements.elementsAt_ofExpr]
    rfl
  · have hsame : Reversal.Same ⟨src, .ofExpr self false e⟩ ⟨src, .ofExpr self true e⟩ :=
      ⟨rfl, rfl, fun pos => (hending false pos).trans (hending true pos).symm⟩
    exact congrFun (congrFun (hsame.reads _).1 start) stop
  · have hmem (pos : Int) (x : Element) (hx : x ∈ (Elements.ofExpr self endAddressed e).endingAt pos) :
        x ∈ e.elements ∧ x.span.stop = pos := by
      rw [hending, List.mem_filter, beq_iff_eq] at hx
      exact hx
    exact Guarded.reverseRange_gives
      ⟨fun pos x hx => (hmem pos x hx).2, fun pos x hx => hplaced x (hmem pos x hx).1⟩ hstart hstop
  · exact Guarded.reverseRange_refused src _ hout

theorem reversal_cut_through : ∃ e, parseBytes Grammar.parametersOnly "q" (bytes "-max(a, b)") = .ok e ∧
    (Elements.ofExpr "q" false e).Lists [8, 0, 5, 1] ∧
    (Elements.ofExpr "q" false e).regrouped [8, 0, 5, 1] 9 = (Elements.ofExpr "q" true e).elementsAt 9 ∧
    reverseRange (bytes "-max(a, b)") (.ofExpr "q" false e) 1 6 = .ok (bytes ",a)xam") ∧
    Guarded.reverseRange (bytes "-max(a, b)") (.ofExpr "q" false e) 1 6 = .ok (bytes ",a)xam") ∧
    Guarded.reverseRange (bytes "-max(a, b)") (.ofExpr "q" false e) 1 10 = .error (.refused ⟨"q", 1, 10⟩) := by
  have hrun : (parseBytes Grammar.parametersOnly "q" (bytes "-max(a, b)")).toOption.any (fun e =>
      (reverseRange (bytes "-max(a, b)") (.ofExpr "q" true e) 1 6).toOption.any fun text =>
        text == bytes ",a)xam" && e.elements.map (·.span.start) == [0, 1, 5, 8]) = true := by decide +kernel
  obtain ⟨e, he, hrun⟩ := Outcome.exists_of_any hrun
  obtain ⟨text, hreverse, hrun⟩ := Outcome.exists_of_any hrun
  rw [Bool.and_eq_true, beq_iff_eq, beq_iff_eq] at hrun
  obtain ⟨rfl, hstarts⟩ := hrun
  obtain ⟨hindex, hrange⟩ := reversal_ignores_addresses he
  have hlists : (Elements.ofExpr "q" false e).Lists [8, 0, 5, 1] := by
    refine Elements.lists_of_starts (by decide) fun pos => ?_
    rw [hstarts]
    simp only [List.mem_cons, List.not_mem_nil, or_false]
    omega
  obtain ⟨hsame, hinside⟩ := hrange 1 6
  obtain ⟨text, hok, hguarded⟩ := (hinside false).1 (by decide) (by decide +kernel)
  obtain rfl := Except.ok.inj (hok.symm.trans (hsame.trans hreverse))
  have hrefused := ((hrange 1 10).2 false).2 (.inr (by decide +kernel))
  exact ⟨e, he, hlists, (hindex _ hlists 9).1, hok, hguarded, hrefused.2⟩

end LandUse
