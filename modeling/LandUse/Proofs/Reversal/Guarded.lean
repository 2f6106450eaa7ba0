import LandUse.Proofs.Reversal.Turning

/-! Reversal as a machine that looks where it reads. -/

namespace LandUse.Guarded

open Text Outcome

inductive Stop where
  | refused (e : RangeError)
  | outOfRange
  | endless

section Machine

variable (r : Reversal)

def byteAt (pos : Int) : Except Stop UInt8 :=
  match r.byteAt? pos with
  | some b => .ok b
  | none => .error .outOfRange

def cut (i j : Int) : Except Stop Bytes :=
  if 0 ≤ i ∧ i ≤ j ∧ j ≤ r.src.length then .ok (r.cut i j) else .error .outOfRange

def signedGroup? (pos start : Int) : Except Stop (Option Reversal.SignedGroup) := do
  let b ← byteAt r pos
  let inner := r.back (pos - 1) start
  if b != 41 || inner < start then return none
  match (r.elements.endingAt inner).find? Element.isSign with
  | none => return none
  | some e =>
    let opening := r.back (e.span.start - 1) start
    if opening < start then return none
    let b ← byteAt r opening
    return if b != 40 then none else some ⟨opening, inner, e⟩

mutual

def range : Nat → Int → Int → Except Stop Bytes
  | 0, _, _ => .error .endless
  | fuel + 1, start, stop =>
    if start < 0 || (r.src.length : Int) ≤ stop then .error (.refused ⟨r.elements.equation, start, stop⟩)
    else downFrom fuel start stop stop

def downFrom : Nat → Int → Int → Int → Except Stop Bytes
  | 0, _, _, _ => .error .endless
  | fuel + 1, start, stop, pos =>
    if pos < start then .ok []
    else match r.unitAt? pos start with
      | some e => do
        let body ← unit fuel e
        let rest ← downFrom fuel start stop (e.span.start - 1)
        if e.isSign && r.powerBefore e.span.start start then return 40 :: (body ++ 41 :: rest)
        else return body ++ rest
      | none => do
        match ← signedGroup? r pos start with
        | some g =>
          let body ← unit fuel g.sign
          let rest ← downFrom fuel start stop (g.opening - 1)
          if !r.powerAfter pos stop || r.powerBefore g.opening start then
            let behind ← cut r (g.inner + 1) pos
            let before ← cut r (g.opening + 1) g.sign.span.start
            return 40 :: behind.reverse ++ body ++ before.reverse ++ 41 :: rest
          else return body ++ rest
        | none =>
          let b ← byteAt r pos
          let rest ← downFrom fuel start stop (pos - 1)
          return Reversal.turned b :: rest

def unit : Nat → Element → Except Stop Bytes
  | 0, _ => .error .endless
  | fuel + 1, e =>
    match e with
    | .loop _ _ _ span body => do
      let head ← cut r span.start body.start
      let inner ← range fuel body.start body.stop
      return head ++ inner ++ (← cut r (body.stop + 1) (span.stop + 1))
    | .call _ _ span body _ args => do
      let head ← cut r span.start body.start
      let inner ← arguments fuel args
      return head ++ inner ++ (← cut r (body.stop + 1) (span.stop + 1))
    | .param _ subs _ span => subscripts fuel span.start span.stop subs
    | .operator _ _ true span operand => do
      let head ← cut r span.start operand.start
      return head ++ (← range fuel operand.start operand.stop)
    | e => cut r e.span.start (e.span.stop + 1)

def arguments : Nat → List Span → Except Stop Bytes
  | _, [] => .ok []
  | 0, _ :: _ => .error .endless
  | fuel + 1, s :: ss => do
    let later ← arguments fuel ss
    let first ← range fuel s.start s.stop
    if ss.isEmpty then return first else return later ++ 44 :: first

def subscripts : Nat → Int → Int → List Subscript → Except Stop Bytes
  | _, cursor, stop, [] => cut r cursor (stop + 1)
  | 0, _, _, _ :: _ => .error .endless
  | fuel + 1, cursor, stop, s :: ss => do
    let head ← cut r cursor s.span.start
    let inner ← match s with
      | .index span _ (some _) => range fuel span.start span.stop
      | s => cut r s.span.start (s.span.stop + 1)
    return head ++ inner ++ (← subscripts fuel (s.span.stop + 1) stop ss)

end

end Machine

structure Inside (s body : Span) : Prop where
  start : s.start < body.start
  range : body.start ≤ body.stop + 1
  stop : body.stop ≤ s.stop

def Spaced (start stop : Int) : List Int → Prop
  | [] => True
  | sep :: seps => start ≤ sep ∧ sep ≤ stop ∧ Spaced (sep + 1) stop seps

def InRow (cursor stop : Int) : List Subscript → Prop
  | [] => cursor ≤ stop + 1
  | s :: ss => cursor < s.span.start ∧ s.span.start ≤ s.span.stop + 1 ∧ InRow (s.span.stop + 1) stop ss

def Holds : Element → Prop
  | .loop _ _ _ span body => Inside span body
  | .call _ _ span body seps args =>
    Inside span body ∧ args = argSpans body.start body.stop seps ∧ Spaced body.start body.stop seps
  | .param _ subs _ span => InRow span.start span.stop subs
  | .operator _ _ true span operand => Inside span operand
  | _ => True

structure Placed (length : Nat) (e : Element) : Prop where
  start : 0 ≤ e.span.start
  range : e.span.start ≤ e.span.stop
  stop : e.span.stop < length
  holds : Holds e

def Gives (x : Except RangeError Bytes) (y : Except Stop Bytes) : Prop := ∃ out, x = .ok out ∧ y = .ok out

lemma Gives.bind {x : Except RangeError Bytes} {y : Except Stop Bytes} (h : Gives x y)
    {f : Bytes → Except RangeError Bytes}
    {g : Bytes → Except Stop Bytes} (hfg : ∀ out, Gives (f out) (g out)) : Gives (x >>= f) (y >>= g) := by
  obtain ⟨out, rfl, rfl⟩ := h
  exact hfg out

lemma gives_ok (out : Bytes) : Gives (.ok out) (.ok out) := ⟨out, rfl, rfl⟩

section Agreement

variable {r : Reversal}

lemma cut_eq {i j : Int} (hi : 0 ≤ i) (hij : i ≤ j) (hj : j ≤ r.src.length) : cut r i j = .ok (r.cut i j) :=
  if_pos ⟨hi, hij, hj⟩

lemma byteAt_eq {pos : Int} (h : 0 ≤ pos) (hlt : pos < r.src.length) :
    ∃ b, r.byteAt? pos = some b ∧ byteAt r pos = .ok b ∧ r.cut pos (pos + 1) = [b] := by
  obtain ⟨k, rfl⟩ := Int.eq_ofNat_of_zero_le h
  have hk : k < r.src.length := by omega
  have hbyte : r.byteAt? k = some r.src[k] := by rw [Reversal.byteAt?_natCast, List.getElem?_eq_getElem hk]
  refine ⟨r.src[k], hbyte, by rw [byteAt, hbyte], ?_⟩
  have hcut : r.cut k ((k : Int) + 1) = slice r.src k (k + 1) := r.cut_natCast k (k + 1)
  rw [hcut]
  simp [slice, List.take_one_drop_eq_of_lt_length, hk]

lemma back_le (r : Reversal) (pos limit : Int) : r.back pos limit ≤ pos := by
  rw [Reversal.back]
  generalize r.src.length = fuel
  induction fuel generalizing pos with
  | zero => exact le_rfl
  | succ fuel ih =>
    rw [Reversal.skipBack]
    split
    · exact (ih (pos - 1)).trans (by omega)
    · exact le_rfl

structure Fitted (r : Reversal) : Prop where
  stop : ∀ pos, ∀ e ∈ r.elements.endingAt pos, e.span.stop = pos
  placed : ∀ pos, ∀ e ∈ r.elements.endingAt pos, Placed r.src.length e

lemma signedGroup?_eq (hr : Fitted r) {pos start : Int} (hstart : 0 ≤ start) (hpos : start ≤ pos)
    (hlt : pos < r.src.length) : signedGroup? r pos start = .ok (r.signedGroup? pos start) := by
  obtain ⟨b, hbyte, hread, -⟩ := byteAt_eq (hstart.trans hpos) hlt
  rw [signedGroup?, hread, ok_bind, Reversal.signedGroup?, hbyte]
  dsimp only
  by_cases hb : b = 41
  · by_cases hinner : r.back (pos - 1) start < start
    · simp [hb, hinner]
    · simp only [hb, hinner, bne_self_eq_false, Bool.false_or, decide_false, Bool.false_eq_true, if_false]
      cases he : (r.elements.endingAt (r.back (pos - 1) start)).find? Element.isSign with
      | none => rfl
      | some e =>
        have hmem := List.mem_of_find?_eq_some he
        have hplaced := hr.placed _ e hmem
        have hle := back_le r (e.span.start - 1) start
        dsimp only
        by_cases hopening : r.back (e.span.start - 1) start < start
        · simp [hopening]
        · have hrange := hplaced.range
          have hstop := hplaced.stop
          have hopened : r.back (e.span.start - 1) start < r.src.length := by omega
          obtain ⟨c, hbyte', hread', -⟩ := byteAt_eq (by omega) hopened
          simp only [hopening, if_false, hread', hbyte', ok_bind, decide_false, Bool.false_or]
          by_cases hc : c = 40 <;> simp [hc]
  · simp [hb]

lemma signedGroup?_eq_some {pos start : Int} {g : Reversal.SignedGroup} (h : r.signedGroup? pos start = some g) :
    g.sign ∈ r.elements.endingAt g.inner ∧ start ≤ g.opening ∧ g.opening < g.sign.span.start ∧ g.inner < pos := by
  rw [Reversal.signedGroup?] at h
  split at h
  · cases h
  dsimp only at h
  split at h
  · cases h
  split at h
  · cases h
  rename_i e he
  split at h
  · cases h
  rename_i hopening
  cases h
  have hle := back_le r (e.span.start - 1) start
  have hle' := back_le r (pos - 1) start
  simp only [Bool.or_eq_true, decide_eq_true_eq, not_or] at hopening
  refine ⟨List.mem_of_find?_eq_some he, ?_, ?_, ?_⟩ <;> dsimp only <;> omega

/-- A byte of a range costs four steps: down to it, into its element, into a part of that, and into its range. -/
structure Covers (r : Reversal) (fuel : Nat) : Prop where
  range : ∀ start stop : Int, 0 ≤ start → stop < r.src.length → 2 ≤ fuel → 4 * (stop - start + 1) + 2 ≤ fuel →
    Gives (r.range fuel start stop) (range r fuel start stop)
  downFrom : ∀ start stop pos : Int, 0 ≤ start → pos ≤ stop → stop < r.src.length → 1 ≤ fuel →
    4 * (pos - start + 1) + 1 ≤ fuel → Gives (r.downFrom fuel start stop pos) (downFrom r fuel start stop pos)
  unit : ∀ e, Placed r.src.length e → 4 * (e.span.stop - e.span.start + 1) ≤ fuel →
    Gives (r.unit fuel e) (unit r fuel e)
  arguments : ∀ (start stop : Int) seps, Spaced start stop seps → 0 ≤ start → start ≤ stop + 1 → stop < r.src.length →
    4 * (stop - start + 1) + 3 ≤ fuel →
      Gives (r.arguments fuel (argSpans start stop seps)) (arguments r fuel (argSpans start stop seps))
  subscripts : ∀ (cursor stop : Int) subs, InRow cursor stop subs → 0 ≤ cursor → stop < r.src.length →
    4 * (stop - cursor + 1) - 1 ≤ fuel →
      Gives (r.subscripts fuel cursor stop subs) (subscripts r fuel cursor stop subs)

lemma InRow.le {cursor stop : Int} : {subs : List Subscript} → InRow cursor stop subs → cursor ≤ stop + 1
  | [], h => h
  | _ :: _, h => by
    have := h.2.2.le
    have := h.1
    have := h.2.1
    omega

lemma subscripts_nil (fuel : Nat) {cursor stop : Int} (h : InRow cursor stop []) (hcursor : 0 ≤ cursor)
    (hstop : stop < r.src.length) : Gives (r.subscripts fuel cursor stop []) (subscripts r fuel cursor stop []) := by
  have hcut : cut r cursor (stop + 1) = _ := cut_eq hcursor h hstop
  cases fuel <;> exact ⟨_, by rw [Reversal.subscripts], by rw [subscripts, hcut]⟩

lemma covers_zero : Covers r 0 where
  range _ _ _ _ h _ := absurd h (by decide)
  downFrom _ _ _ _ _ _ h _ := absurd h (by decide)
  unit e he h := by
    have := he.range
    omega
  arguments start stop seps _ _ _ _ _ := by omega
  subscripts cursor stop subs hsubs hcursor hstop hfuel := by
    cases subs with
    | nil => exact subscripts_nil 0 hsubs hcursor hstop
    | cons s ss =>
      have := hsubs.1
      have := hsubs.2.1
      have := hsubs.2.2.le
      omega

namespace Covers

variable {fuel : Nat} (h : Covers r fuel)
include h

lemma range_succ {start stop : Int} (hstart : 0 ≤ start) (hstop : stop < r.src.length) (hfuel : 2 ≤ fuel + 1)
    (hwidth : 4 * (stop - start + 1) + 2 ≤ ((fuel + 1 : Nat) : Int)) :
    Gives (r.range (fuel + 1) start stop) (Guarded.range r (fuel + 1) start stop) := by
  have hbounds : (start < 0 || (r.src.length : Int) ≤ stop) = false := by simp [hstart, hstop]
  rw [Reversal.range, Guarded.range, hbounds]
  exact h.downFrom start stop stop hstart le_rfl hstop (by omega) (by omega)

lemma downFrom_succ (hr : Fitted r) {start stop pos : Int} (hstart : 0 ≤ start) (hpos : pos ≤ stop)
    (hstop : stop < r.src.length) (hwidth : 4 * (pos - start + 1) + 1 ≤ ((fuel + 1 : Nat) : Int)) :
    Gives (r.downFrom (fuel + 1) start stop pos) (Guarded.downFrom r (fuel + 1) start stop pos) := by
  rw [Reversal.downFrom, Guarded.downFrom]
  split_ifs with hend
  · exact gives_ok []
  have hrest (next : Int) (hnext : next < pos) :
      Gives (r.downFrom fuel start stop next) (Guarded.downFrom r fuel start stop next) :=
    h.downFrom start stop next hstart (by omega) hstop (by omega) (by omega)
  cases hunit : r.unitAt? pos start with
  | some e =>
    rw [Reversal.unitAt?] at hunit
    have hmem := List.mem_of_find?_eq_some hunit
    have hle := List.find?_some hunit
    rw [decide_eq_true_eq] at hle
    have hplaced := hr.placed pos e hmem
    have hspan := hr.stop pos e hmem
    have hrange := hplaced.range
    refine (h.unit e hplaced (by omega)).bind fun body => (hrest _ (by omega)).bind fun rest => ?_
    split <;> exact gives_ok _
  | none =>
    dsimp only
    rw [signedGroup?_eq hr hstart (by omega) (by omega), ok_bind]
    cases hgroup : r.signedGroup? pos start with
    | some g =>
      obtain ⟨hmem, hopening, hsign, hinner⟩ := signedGroup?_eq_some hgroup
      have hplaced := hr.placed _ _ hmem
      have hspan := hr.stop _ _ hmem
      have hrange := hplaced.range
      refine (h.unit g.sign hplaced (by omega)).bind fun body => (hrest _ (by omega)).bind fun rest => ?_
      split
      · rw [cut_eq (by omega) (by omega) (by omega), cut_eq (by omega) (by omega) (by omega)]
        exact gives_ok _
      · exact gives_ok _
    | none =>
      have hinside : pos < r.src.length := by omega
      obtain ⟨b, -, hread, hcut⟩ := byteAt_eq (by omega) hinside
      dsimp only
      rw [hread, ok_bind, hcut]
      exact (hrest _ (by omega)).bind fun rest => gives_ok _

omit h in
lemma cut_ends {span body : Span} (hin : Inside span body) (hstart : 0 ≤ span.start)
    (hstop : span.stop < r.src.length) :
    cut r span.start body.start = .ok (r.cut span.start body.start) ∧
      cut r (body.stop + 1) (span.stop + 1) = .ok (r.cut (body.stop + 1) (span.stop + 1)) := by
  obtain ⟨hin, hrange, hle⟩ := hin
  exact ⟨cut_eq hstart hin.le (by omega), cut_eq (by omega) (by omega) (by omega)⟩

lemma unit_succ {e : Element} (he : Placed r.src.length e)
    (hwidth : 4 * (e.span.stop - e.span.start + 1) ≤ ((fuel + 1 : Nat) : Int)) :
    Gives (r.unit (fuel + 1) e) (Guarded.unit r (fuel + 1) e) := by
  obtain ⟨hstart, hrange, hstop, hholds⟩ := he
  have hwhole : cut r e.span.start (e.span.stop + 1) = _ := cut_eq hstart (by omega) (by omega)
  cases e with
  | loop keyword dim level span body =>
    obtain ⟨hhead, htail⟩ := cut_ends hholds hstart hstop
    have := hholds.start
    have := hholds.stop
    dsimp only [Element.span] at *
    rw [Reversal.unit, Guarded.unit, hhead, ok_bind, htail]
    exact (h.range _ _ (by omega) (by omega) (by omega) (by omega)).bind fun inner => gives_ok _
  | call fn level span body seps args =>
    obtain ⟨hin, rfl, hspaced⟩ := hholds
    obtain ⟨hhead, htail⟩ := cut_ends hin hstart hstop
    have := hin.start
    have := hin.stop
    dsimp only [Element.span] at *
    rw [Reversal.unit, Guarded.unit, hhead, ok_bind, htail]
    exact (h.arguments _ _ _ hspaced (by omega) hin.range (by omega) (by omega)).bind fun inner => gives_ok _
  | param name subs isVariable span =>
    rw [Reversal.unit, Guarded.unit]
    exact h.subscripts _ _ _ hholds hstart hstop (by dsimp only [Element.span] at *; omega)
  | operator symbol opcode unary span operand =>
    cases unary with
    | true =>
      obtain ⟨hhead, -⟩ := cut_ends hholds hstart hstop
      have := hholds.start
      have := hholds.stop
      dsimp only [Element.span] at *
      rw [Reversal.unit, Guarded.unit, hhead, ok_bind]
      exact (h.range _ _ (by omega) (by omega) (by omega) (by omega)).bind fun inner => gives_ok _
    | false => exact ⟨_, rfl, hwhole⟩
  | number => exact ⟨_, rfl, hwhole⟩
  | equation => exact ⟨_, rfl, hwhole⟩

lemma arguments_succ {start stop : Int} {seps : List Int} (hseps : Spaced start stop seps) (hstart : 0 ≤ start)
    (hle : start ≤ stop + 1) (hstop : stop < r.src.length)
    (hwidth : 4 * (stop - start + 1) + 3 ≤ ((fuel + 1 : Nat) : Int)) :
    Gives (r.arguments (fuel + 1) (argSpans start stop seps)) (Guarded.arguments r (fuel + 1)
      (argSpans start stop seps)) := by
  cases seps with
  | nil =>
    rw [argSpans, Reversal.arguments, Guarded.arguments, Reversal.arguments, Guarded.arguments, ok_bind, ok_bind]
    exact (h.range _ _ hstart hstop (by omega) (by omega)).bind fun first => gives_ok _
  | cons sep seps =>
    obtain ⟨hsep, hsep', hseps⟩ := hseps
    rw [argSpans, Reversal.arguments, Guarded.arguments]
    refine (h.arguments _ _ _ hseps (by omega) (by omega) hstop (by omega)).bind fun later => ?_
    refine (h.range start (sep - 1) hstart (by omega) (by omega) (by omega)).bind fun first => ?_
    split <;> exact gives_ok _

lemma subscripts_succ {cursor stop : Int} {subs : List Subscript} (hsubs : InRow cursor stop subs)
    (hcursor : 0 ≤ cursor)
    (hstop : stop < r.src.length) (hwidth : 4 * (stop - cursor + 1) - 1 ≤ ((fuel + 1 : Nat) : Int)) :
    Gives (r.subscripts (fuel + 1) cursor stop subs) (Guarded.subscripts r (fuel + 1) cursor stop subs) := by
  cases subs with
  | nil => exact subscripts_nil _ hsubs hcursor hstop
  | cons s ss =>
    obtain ⟨hlt, hspan, hss⟩ := hsubs
    have hle := hss.le
    have hrest := h.subscripts _ _ _ hss (by omega) hstop (by omega)
    have hhead : cut r cursor s.span.start = _ := cut_eq hcursor hlt.le (by omega)
    have hwhole : cut r s.span.start (s.span.stop + 1) = _ := cut_eq (by omega) hspan (by omega)
    rcases s with _ | _ | ⟨span, _, _ | _⟩
    case index.some =>
      dsimp only [Subscript.span] at *
      have hinner := h.range span.start span.stop (by omega) (by omega) (by omega) (by omega)
      simp only [Reversal.subscripts, Guarded.subscripts, Subscript.span, hhead, ok_bind]
      exact hinner.bind fun inner => hrest.bind fun rest => gives_ok _
    all_goals
      simp only [Reversal.subscripts, Guarded.subscripts, hhead, hwhole, ok_bind]
      exact hrest.bind fun rest => gives_ok _

end Covers

lemma covers (hr : Fitted r) (fuel : Nat) : Covers r fuel := by
  induction fuel with
  | zero => exact covers_zero
  | succ fuel ih =>
    exact {
      range := fun _ _ hstart hstop hfuel hwidth => ih.range_succ hstart hstop hfuel hwidth
      downFrom := fun _ _ _ hstart hpos hstop _ hwidth => ih.downFrom_succ hr hstart hpos hstop hwidth
      unit := fun _ he hwidth => ih.unit_succ he hwidth
      arguments := fun _ _ _ hseps hstart hle hstop hwidth => ih.arguments_succ hseps hstart hle hstop hwidth
      subscripts := fun _ _ _ hsubs hcursor hstop hwidth => ih.subscripts_succ hsubs hcursor hstop hwidth }

end Agreement

end LandUse.Guarded
