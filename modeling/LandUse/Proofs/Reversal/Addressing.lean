import LandUse.Proofs.Equation.Nesting
import LandUse.Proofs.Reversal.Turning

namespace LandUse

open Text

lemma perm_flatMap_filter {β : Type} (f : β → Int) {es : List β} {order : List Int} (horder : order.Nodup)
    (hes : ∀ e ∈ es, f e ∈ order) : (order.flatMap fun p => es.filter (f · == p)).Perm es := by
  induction order generalizing es with
  | nil =>
    cases es with
    | nil => exact .nil
    | cons e es => cases hes e List.mem_cons_self
  | cons p order ih =>
    obtain ⟨hp, horder⟩ := List.nodup_cons.1 horder
    have hrest : (order.flatMap fun q => es.filter (f · == q)) =
        order.flatMap fun q => (es.filter (!f · == p)).filter (f · == q) := by
      refine List.flatMap_congr fun q hq => ?_
      rw [List.filter_filter]
      refine List.filter_congr fun e _ => ?_
      by_cases h : f e = q
      · have hne : f e ≠ p := fun heq => hp (heq ▸ h ▸ hq)
        simp [h, h ▸ hne]
      · simp [h]
    rw [List.flatMap_cons, hrest]
    refine .trans (.append_left _ (ih horder fun e he => ?_)) (List.filter_append_perm _ es)
    obtain ⟨he, hne⟩ := List.mem_filter.1 he
    exact (List.mem_cons.1 (hes e he)).resolve_left (by simpa using hne)

namespace Elements

lemma mergeSort_starts {es fs : List Element} (h : fs.Perm es)
    (hes : es.Pairwise fun e f => e.span.start < f.span.start) :
    fs.mergeSort (·.span.start ≤ ·.span.start) = es := by
  have hsorted : (fs.mergeSort (·.span.start ≤ ·.span.start)).Pairwise fun e f =>
      decide (e.span.start ≤ f.span.start) = true := by
    apply List.pairwise_mergeSort
    · intro a b c hab hbc
      rw [decide_eq_true_eq] at *
      exact hab.trans hbc
    · intro a b
      rw [Bool.or_eq_true, decide_eq_true_eq, decide_eq_true_eq]
      exact Int.le_total _ _
  have hperm := (List.mergeSort_perm fs (·.span.start ≤ ·.span.start)).trans h
  refine hperm.eq_of_pairwise (fun e f he hf hef hfe => ?_) hsorted (hes.imp fun hlt => decide_eq_true hlt.le)
  have hstarts : (es.map (·.span.start)).Nodup := List.pairwise_map.2 (hes.imp fun hlt => hlt.ne)
  exact List.inj_on_of_nodup_map hstarts (hperm.mem_iff.1 he) hf
    (Int.le_antisymm (of_decide_eq_true hef) (of_decide_eq_true hfe))

def regrouped (a : Elements) (order : List Int) (pos : Int) : List Element :=
  ((order.flatMap a.elementsAt).filter (·.span.stop == pos)).mergeSort (·.span.start ≤ ·.span.start)

structure Lists (a : Elements) (order : List Int) : Prop where
  nodup : order.Nodup
  mem : ∀ pos, pos ∈ order ↔ a.elementsAt pos ≠ []

variable {self : String} {x : Expr}

lemma recorded_all (es : List Element) : recorded (es.map (·, true)) = es := by
  simp [recorded, List.filter_map, Function.comp_def]

lemma elementsAt_ofExpr (endAddressed : Bool) (pos : Int) : (ofExpr self endAddressed x).elementsAt pos =
    x.elements.filter fun e => address endAddressed e == pos := by
  rw [ofExpr, elementsAt_ofList, recorded_all]

lemma lists_of_starts {order : List Int} (hnodup : order.Nodup)
    (hmem : ∀ pos, pos ∈ order ↔ pos ∈ x.elements.map (·.span.start)) : (ofExpr self false x).Lists order := by
  refine ⟨hnodup, fun pos => (hmem pos).trans ?_⟩
  simp [elementsAt_ofExpr, address, List.filter_eq_nil_iff]

lemma starts_of_orderly (h : (ofExpr self true x).Orderly fun _ => false) (pos : Int) :
    (x.elements.filter (·.span.stop == pos)).Pairwise fun e f => e.span.start < f.span.start := by
  have hnested := h.nested pos
  rw [elementsAt_ofExpr] at hnested
  refine hnested.imp_of_mem fun {e f} he hf hencloses => ?_
  have hstop : e.span.stop = pos := beq_iff_eq.1 (List.mem_filter.1 he).2
  have hstop' : f.span.stop = pos := beq_iff_eq.1 (List.mem_filter.1 hf).2
  have := Span.encloses_iff.1 hencloses
  omega

lemma regrouped_eq (h : (ofExpr self true x).Orderly fun _ => false) {order : List Int}
    (horder : (ofExpr self false x).Lists order) (pos : Int) :
    (ofExpr self false x).regrouped order pos = (ofExpr self true x).elementsAt pos := by
  rw [elementsAt_ofExpr, regrouped]
  refine mergeSort_starts (.filter _ ?_) (starts_of_orderly h pos)
  rw [funext (elementsAt_ofExpr false)]
  refine perm_flatMap_filter _ horder.nodup fun e he => (horder.mem _).2 ?_
  rw [elementsAt_ofExpr]
  exact List.ne_nil_of_mem (List.mem_filter.2 ⟨he, beq_self_eq_true _⟩)

lemma endingAt_eq (h : (ofExpr self true x).Orderly fun _ => false) (endAddressed : Bool) (pos : Int) :
    (ofExpr self endAddressed x).endingAt pos = x.elements.filter (·.span.stop == pos) := by
  cases endAddressed with
  | true => exact endingAt_ofExpr self x pos
  | false =>
    have hmarks := filterMap_marks self false (x.elements.map (·, true)) fun _ e => some e
    rw [recorded_all, List.filterMap_some] at hmarks
    refine mergeSort_starts (.filter _ (.of_eq ?_)) (starts_of_orderly h pos)
    exact (List.filterMap_congr fun m _ => by simp [ofExpr]).trans hmarks

end Elements

namespace Reversal

structure Same (r r' : Reversal) : Prop where
  src : r.src = r'.src
  equation : r.elements.equation = r'.elements.equation
  ending : ∀ pos, r.elements.endingAt pos = r'.elements.endingAt pos

namespace Same

variable {r r' : Reversal} (h : Same r r')
include h

lemma byteAt? (pos : Int) : r.byteAt? pos = r'.byteAt? pos := by rw [Reversal.byteAt?, Reversal.byteAt?, h.src]

lemma cut (i j : Int) : r.cut i j = r'.cut i j := by rw [Reversal.cut, Reversal.cut, h.src]

lemma isBlankAt (pos : Int) : r.isBlankAt pos = r'.isBlankAt pos := by
  rw [Reversal.isBlankAt, Reversal.isBlankAt, h.byteAt?]

lemma back (pos limit : Int) : r.back pos limit = r'.back pos limit := by
  rw [Reversal.back, Reversal.back, ← h.src]
  generalize r.src.length = fuel
  induction fuel generalizing pos with
  | zero => rfl
  | succ fuel ih => rw [skipBack, skipBack, h.isBlankAt, ih]

lemma forth (pos limit : Int) : r.forth pos limit = r'.forth pos limit := by
  rw [Reversal.forth, Reversal.forth, ← h.src]
  generalize r.src.length = fuel
  induction fuel generalizing pos with
  | zero => rfl
  | succ fuel ih => rw [skipForth, skipForth, h.isBlankAt, ih]

lemma powerBefore (pos start : Int) : r.powerBefore pos start = r'.powerBefore pos start := by
  simp only [Reversal.powerBefore, isPower, h.back, h.ending]

lemma powerAfter (pos stop : Int) : r.powerAfter pos stop = r'.powerAfter pos stop := by
  simp only [Reversal.powerAfter, isPower, h.forth, h.ending]

lemma unitAt? (pos start : Int) : r.unitAt? pos start = r'.unitAt? pos start := by
  rw [Reversal.unitAt?, Reversal.unitAt?, h.ending]

lemma signedGroup? (pos start : Int) : r.signedGroup? pos start = r'.signedGroup? pos start := by
  simp only [Reversal.signedGroup?, h.byteAt?, h.back, h.ending]

lemma reads (fuel : Nat) : r.range fuel = r'.range fuel ∧ r.downFrom fuel = r'.downFrom fuel ∧
    r.unit fuel = r'.unit fuel ∧
    r.arguments fuel = r'.arguments fuel ∧ r.subscripts fuel = r'.subscripts fuel := by
  induction fuel with
  | zero =>
    refine ⟨?_, ?_, ?_, ?_, ?_⟩
    · funext start stop
      rw [range, range, h.equation]
    · funext start stop pos
      rw [downFrom, downFrom, h.equation]
    · funext e
      rw [unit, unit, h.equation]
    · funext args
      cases args <;> simp only [arguments, h.equation]
    · funext cursor stop subs
      cases subs <;> simp only [subscripts, h.equation, h.cut]
  | succ fuel ih =>
    obtain ⟨hrange, hdown, hunit, harguments, hsubscripts⟩ := ih
    refine ⟨?_, ?_, ?_, ?_, ?_⟩
    · funext start stop
      rw [range, range, h.equation, h.src, hdown]
    · funext start stop pos
      simp only [downFrom, h.unitAt?, h.signedGroup?, h.powerBefore, h.powerAfter, h.cut, hunit, hdown]
    · funext e
      cases e <;> simp only [unit, h.cut, hrange, harguments, hsubscripts]
    · funext args
      cases args <;> simp only [arguments, hrange, harguments]
    · funext cursor stop subs
      cases subs <;> simp only [subscripts, h.cut, hrange, hsubscripts]

end Same

end Reversal

end LandUse
