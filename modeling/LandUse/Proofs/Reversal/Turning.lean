import LandUse.Proofs.Reversal.Places

/-! The reversal of a range, step by step from its end. -/

namespace LandUse

open Text Alphabet

lemma filterMap_zipIdx (es : List Element) (pos : Int) :
    (es.zipIdx.filterMap fun x => if x.1.span.stop == pos then es[x.2]? else none) =
    es.filter (·.span.stop == pos) := by
  have hfilter : es.filter (·.span.stop == pos) =
      es.zipIdx.filterMap fun x => if x.1.span.stop == pos then some x.1 else none := by
    conv_lhs => rw [← List.zipIdx_map_fst 0 es]
    rw [← List.filterMap_eq_filter, List.filterMap_map]
    rfl
  rw [hfilter]
  refine List.filterMap_congr fun x hx => ?_
  rw [List.mk_mem_zipIdx_iff_getElem?.1 hx]

lemma endingAt_ofExpr (equation : String) (x : Expr) (pos : Int) :
    (Elements.ofExpr equation true x).endingAt pos = x.elements.filter (·.span.stop == pos) := by
  rw [← filterMap_zipIdx]
  simp only [Elements.endingAt, Elements.ofExpr, Elements.ofList, Elements.elementsAt, Elements.indicesAt,
    Elements.address, if_true, List.map_map, List.zipIdx_map, List.filterMap_map, List.filterMap_filterMap]
  refine List.filterMap_congr fun y _ => ?_
  by_cases hy : y.1.span.stop = pos <;> simp [hy, Function.comp_def]

namespace Reversal

open Token

variable {r : Reversal} {i j k : Nat} {s e : Int}

lemma byteAt?_natCast (r : Reversal) (k : Nat) : r.byteAt? k = r.src[k]? := by simp [byteAt?]

lemma cut_natCast (r : Reversal) (i j : Nat) : r.cut i j = slice r.src i j := rfl

lemma isBlankAt_of_blanks (h : Blanks r.src i j) (hi : i ≤ k) (hj : k < j) : r.isBlankAt k = true := by
  obtain ⟨b, hb, hblank⟩ := h k hi hj
  rw [isBlankAt, byteAt?_natCast, hb]
  exact hblank

lemma not_isBlankAt {t : Token} (h : t.Stands r.src) (hi : t.pos ≤ k) (hj : k < t.past) : r.isBlankAt k = false := by
  obtain ⟨b, hb, hblank⟩ := h.not_blank hi hj
  rw [isBlankAt, byteAt?_natCast, hb]
  exact hblank

lemma skipBack_eq (hs : s ≤ i) (hstop : s = i ∨ r.isBlankAt ((i : Int) - 1) = false) : ∀ (n : Nat) {fuel : Nat},
    n ≤ fuel → Blanks r.src i (i + n) → r.skipBack fuel ((i : Int) + n - 1) s = (i : Int) - 1
  | 0, fuel, _, _ => by
    cases fuel with
    | zero => simp [skipBack]
    | succ fuel =>
      rw [skipBack, if_neg]
      · simp
      · simp only [Bool.and_eq_true, decide_eq_true_eq, Int.ofNat_zero, add_zero]
        rintro ⟨hle, hblank⟩
        rcases hstop with rfl | hstop
        · omega
        · rw [hstop] at hblank
          cases hblank
  | n + 1, fuel, hn, h => by
    obtain ⟨fuel, rfl⟩ := Nat.exists_eq_add_of_le' hn
    have hblank : r.isBlankAt ((i : Int) + (n + 1 : Nat) - 1) = true := by
      have := isBlankAt_of_blanks (k := i + n) h (by omega) (by omega)
      rwa [show ((i : Int) + (n + 1 : Nat) - 1) = ((i + n : Nat) : Int) by omega]
    have hprev : (i : Int) + (n + 1 : Nat) - 1 - 1 = (i : Int) + n - 1 := by omega
    rw [show fuel + (n + 1) = fuel + n + 1 from rfl, skipBack, if_pos, hprev]
    · exact skipBack_eq hs hstop n (by omega) fun k hk hk' => h k hk (by omega)
    · simp only [Bool.and_eq_true, decide_eq_true_eq]
      exact ⟨by omega, hblank⟩

lemma skipForth_eq (he : (j : Int) - 1 ≤ e) (hstop : e = (j : Int) - 1 ∨ r.isBlankAt j = false) :
    ∀ (n : Nat) {fuel : Nat} {i : Nat}, n ≤ fuel → i + n = j → Blanks r.src i j → r.skipForth fuel i e = j
  | 0, fuel, i, _, hi, _ => by
    obtain rfl : i = j := hi
    cases fuel with
    | zero => rfl
    | succ fuel =>
      rw [skipForth, if_neg]
      simp only [Bool.and_eq_true, decide_eq_true_eq]
      rintro ⟨hle, hblank⟩
      rcases hstop with rfl | hstop
      · omega
      · rw [hstop] at hblank
        cases hblank
  | n + 1, fuel, i, hn, hi, h => by
    obtain ⟨fuel, rfl⟩ := Nat.exists_eq_add_of_le' hn
    have hblank := isBlankAt_of_blanks h le_rfl (by omega)
    rw [show fuel + (n + 1) = fuel + n + 1 from rfl, skipForth, if_pos]
    · exact skipForth_eq he hstop n (i := i + 1) (by omega) (by omega) fun k hk hk' => h k (by omega) hk'
    · simp only [Bool.and_eq_true, decide_eq_true_eq]
      exact ⟨by omega, hblank⟩

lemma back_eq (h : Blanks r.src i j) (hij : i ≤ j) (hs : s ≤ i) (hstop : s = i ∨ r.isBlankAt ((i : Int) - 1) = false) :
    r.back ((j : Int) - 1) s = (i : Int) - 1 := by
  obtain ⟨n, rfl⟩ := Nat.exists_eq_add_of_le hij
  have hn : n ≤ r.src.length := by
    rcases Nat.eq_zero_or_pos n with rfl | hn
    · exact Nat.zero_le _
    · exact (Nat.le_add_left n i).trans (h.le_length (by omega))
  rw [back, Nat.cast_add]
  exact skipBack_eq hs hstop n hn h

lemma forth_eq (h : Blanks r.src i j) (hij : i ≤ j) (he : (j : Int) - 1 ≤ e)
    (hstop : e = (j : Int) - 1 ∨ r.isBlankAt j = false) : r.forth i e = j := by
  obtain ⟨n, rfl⟩ := Nat.exists_eq_add_of_le hij
  have hn : n ≤ r.src.length := by
    rcases Nat.eq_zero_or_pos n with rfl | hn
    · exact Nat.zero_le _
    · exact (Nat.le_add_left n i).trans (h.le_length (by omega))
  exact skipForth_eq he hstop n hn rfl h

/-! ### Powers -/

def Sound (r : Reversal) : Prop :=
  ∀ pos, ∀ e ∈ r.elements.endingAt pos, e.span.stop = pos ∧ ∃ t : Token, t.Stands r.src ∧ e.Ends t

lemma Sound.exists_token (hr : r.Sound) {e : Element} (he : e ∈ r.elements.endingAt k) :
    ∃ t : Token, t.Stands r.src ∧ e.Ends t ∧ t.pos ≤ k ∧ k < t.past := by
  obtain ⟨hstop, t, ht, hends⟩ := hr k e he
  have hlt := ht.lt_past
  have := hends.stop
  exact ⟨t, ht, hends, by omega, by omega⟩

lemma Sound.endingAt_blank (hr : r.Sound) (h : r.isBlankAt k = true) : r.elements.endingAt k = [] := by
  refine List.eq_nil_iff_forall_not_mem.2 fun e he => ?_
  obtain ⟨t, ht, -, hle, hlt⟩ := hr.exists_token he
  rw [not_isBlankAt ht hle hlt] at h
  cases h

lemma isPower_eq (r : Reversal) (pos : Int) :
    r.isPower pos = ((r.elements.endingAt pos).find? (·.kind = .operator)).any Element.isPower := by
  unfold isPower
  split
  · rename_i h
    rw [h]
    rfl
  · rename_i h
    cases hfind : (r.elements.endingAt pos).find? (·.kind = .operator) with
    | none => rfl
    | some e =>
      cases e with
      | operator => exact absurd hfind (h _ _ _ _ _)
      | _ => rfl

lemma Sound.caret_of_isPower (hr : r.Sound) (h : r.isPower k = true) : r.src[k]? = some 94 := by
  rw [isPower_eq, Option.any_eq_true] at h
  obtain ⟨e, he, hpower⟩ := h
  obtain ⟨t, ht, hends, hle, hlt⟩ := hr.exists_token (List.mem_of_find?_eq_some he)
  have hkind : e.kind = .operator := by simpa using List.find?_some he
  exact (ht.caret hle hlt).2 ((hends.power hkind).1 hpower)

lemma Sound.isPower_of_caret (hr : r.Sound) (h : r.src[k]? = some 94) {e : Element} (he : e ∈ r.elements.endingAt k)
    (hkind : e.kind = .operator) : r.isPower k = true := by
  obtain ⟨e', hfind⟩ : ∃ e', (r.elements.endingAt k).find? (·.kind = .operator) = some e' := by
    rw [← Option.isSome_iff_exists, List.find?_isSome]
    exact ⟨e, he, by simp [hkind]⟩
  obtain ⟨t, ht, hends, hle, hlt⟩ := hr.exists_token (List.mem_of_find?_eq_some hfind)
  have hkind' : e'.kind = .operator := by simpa using List.find?_some hfind
  rw [isPower_eq, hfind]
  exact (hends.power hkind').2 ((ht.caret hle hlt).1 h)

lemma Sound.isPower_eq_false (hr : r.Sound) {t : Token} (ht : t.Stands r.src) (hkind : t.kind ≠ .operator .pow)
    (hle : t.pos ≤ k) (hlt : k < t.past) : r.isPower k = false :=
  Bool.eq_false_iff.2 fun h => hkind ((ht.caret hle hlt).1 (hr.caret_of_isPower h))

lemma powerBefore_start {a : Nat} (h : Blanks r.src a j) (hle : a ≤ j) : r.powerBefore j a = false := by
  rw [powerBefore, back_eq h hle le_rfl (.inl rfl)]
  simp

lemma powerBefore_token {t u : Token} (h : Precedes r.src t u) (ht : t.Stands r.src) (hs : s ≤ t.pos) :
    r.powerBefore u.pos s = r.isPower ((t.past : Int) - 1) := by
  have hlt := ht.lt_past
  have hblank : r.isBlankAt ((t.past : Int) - 1) = false := by
    rw [show (t.past : Int) - 1 = (t.past - 1 : Nat) by omega]
    exact not_isBlankAt ht (by omega) (by omega)
  rw [powerBefore, back_eq h.blanks h.le (by omega) (.inr hblank)]
  have hle : s ≤ (t.past : Int) - 1 := by omega
  simp [hle]

lemma powerAfter_stop (h : Blanks r.src i j) (hle : i ≤ j) : r.powerAfter ((i : Int) - 1) ((j : Int) - 1) = false := by
  rw [powerAfter, Int.sub_add_cancel, forth_eq h hle le_rfl (.inl rfl)]
  simp

lemma powerAfter_token {t u : Token} (h : Precedes r.src t u) (hu : u.Stands r.src) (he : (u.pos : Int) ≤ e) :
    r.powerAfter ((t.past : Int) - 1) e = r.isPower u.pos := by
  have hblank := not_isBlankAt hu le_rfl hu.lt_past
  rw [powerAfter, Int.sub_add_cancel, forth_eq h.blanks h.le (by omega) (.inr hblank)]
  simp [he]

/-! ### Whose elements end where -/

/-- Of the elements that start at `s` or behind, those that end from `i` up to `j` are the given ones. -/
structure Own (r : Reversal) (s i j : Nat) (es : List Element) : Prop where
  start : ∀ e ∈ es, (s : Int) ≤ e.span.start
  inner : ∀ k : Nat, i ≤ k → k + 1 < j → r.elements.endingAt k = es.filter (·.span.stop == (k : Int))
  -- At the end, signs in front of the range end as well.
  last : ∀ k : Nat, i ≤ k → k + 1 = j →
    (r.elements.endingAt k).filter (fun e => (s : Int) ≤ e.span.start) = es.filter (·.span.stop == (k : Int))

lemma Own.unitAt? {es : List Element} {s : Nat} (h : Own r s i j es) (hi : i ≤ k) (hj : k < j) :
    r.unitAt? k s = es.find? (·.span.stop == (k : Int)) := by
  rw [Reversal.unitAt?, ← List.head?_filter, ← List.head?_filter]
  rcases Nat.lt_or_eq_of_le hj with hj | hj
  · rw [h.inner k hi hj, List.filter_eq_self.2 fun e he => by simpa using h.start e (List.mem_of_mem_filter he)]
  · rw [h.last k hi hj]

def Outside (s i j : Nat) (e : Element) : Prop :=
  e.span.stop < i ∨ j ≤ e.span.stop ∨ e.span.stop + 1 = j ∧ e.span.start < s

lemma Outside.mem_filter {es : List Element} {s : Nat} (h : ∀ e ∈ es, Outside s i j e) (hi : i ≤ k) (hj : k < j) :
    ∀ e ∈ es.filter (·.span.stop == (k : Int)), k + 1 = j ∧ e.span.start < s := by
  intro e he
  obtain ⟨hmem, hstop⟩ := List.mem_filter.1 he
  have hout := h e hmem
  rw [beq_iff_eq] at hstop
  unfold Outside at hout
  omega

lemma Own.sub {es es' : List Element} {s s' i' j' : Nat} (h : Own r s i j es) (before behind : List Element)
    (hes : es = before ++ (es' ++ behind)) (hi : i ≤ i') (hj : j' ≤ j) (hs : s ≤ s')
    (hstart : ∀ e ∈ es', (s' : Int) ≤ e.span.start) (houter : ∀ e ∈ before ++ behind, Outside s' i' j' e) :
    Own r s' i' j' es' := by
  subst hes
  obtain ⟨hbefore, hbehind⟩ := List.forall_mem_append.1 houter
  refine ⟨hstart, fun k hk hk' => ?_, fun k hk hk' => ?_⟩
  · have hnone : ∀ es : List Element, (∀ e ∈ es, Outside s' i' j' e) → es.filter (·.span.stop == (k : Int)) = [] := by
      refine fun es hes => List.eq_nil_iff_forall_not_mem.2 fun e he => ?_
      have := Outside.mem_filter hes hk (by omega) e he
      omega
    rw [h.inner k (by omega) (by omega), List.filter_append, List.filter_append, hnone _ hbefore, hnone _ hbehind,
      List.nil_append, List.append_nil]
  · have hnone : ∀ es : List Element, (∀ e ∈ es, Outside s' i' j' e) →
        (es.filter (·.span.stop == (k : Int))).filter (fun e => (s' : Int) ≤ e.span.start) = [] := by
      refine fun es hes => List.filter_eq_nil_iff.2 fun e he => ?_
      have := Outside.mem_filter hes hk (by omega) e he
      rw [decide_eq_true_eq]
      omega
    have hfilter : (r.elements.endingAt k).filter (fun e => (s' : Int) ≤ e.span.start) =
        ((before ++ (es' ++ behind)).filter (·.span.stop == (k : Int))).filter
        (fun e => (s' : Int) ≤ e.span.start) := by
      rcases Nat.lt_or_eq_of_le (show k + 1 ≤ j by omega) with hlt | heq
      · rw [h.inner k (by omega) hlt]
      · rw [← h.last k (by omega) heq, List.filter_filter]
        refine List.filter_congr fun e _ => ?_
        have : (s' : Int) ≤ e.span.start → (s : Int) ≤ e.span.start := by omega
        by_cases hle : (s' : Int) ≤ e.span.start <;> simp [hle, this]
    rw [hfilter, List.filter_append, List.filter_append, List.filter_append, List.filter_append, hnone _ hbefore,
      hnone _ hbehind, List.nil_append, List.append_nil]
    exact List.filter_eq_self.2 fun e he => by simpa using hstart e (List.mem_of_mem_filter he)

/-! ### Steps -/

/-- In the range from `s` up to `b`, what stands from `i` up to `j` is turned into a text. -/
def Turns (r : Reversal) (s b i j : Nat) (out : Bytes) : Prop :=
  -- A byte costs at most a step of `downFrom`, `unit` and `range` each.
  ∀ rest, (∀ fuel, 3 * (i - s) < fuel → r.downFrom fuel s ((b : Int) - 1) ((i : Int) - 1) = .ok rest) →
    ∀ fuel, 3 * (j - s) < fuel → r.downFrom fuel s ((b : Int) - 1) ((j : Int) - 1) = .ok (out ++ rest)

variable {s b : Nat} {out out' : Bytes}

lemma Turns.trans (h : Turns r s b k j out) (h' : Turns r s b i k out') : Turns r s b i j (out ++ out') := by
  intro rest hrest
  rw [List.append_assoc]
  exact h _ (h' rest hrest)

def Unfolds (r : Reversal) (e : Element) (out : Bytes) : Prop :=
  ∀ fuel : Nat, 3 * (e.span.stop + 1 - e.span.start) ≤ (fuel : Int) → r.unit fuel e = .ok out

lemma Turns.unit {e : Element} (h : r.Unfolds e out) (hunit : r.unitAt? ((j : Int) - 1) s = some e)
    (hstart : e.span.start = i) (hstop : e.span.stop = (j : Int) - 1) (hs : s ≤ i) (hij : i < j) :
    Turns r s b i j (if e.isSign && r.powerBefore i s then 40 :: (out ++ [41]) else out) := by
  intro rest hrest fuel hfuel
  obtain ⟨fuel, rfl⟩ := Nat.exists_eq_succ_of_ne_zero (Nat.ne_zero_of_lt hfuel)
  have hbody := h fuel (by rw [hstart, hstop]; omega)
  have hpos : ¬ ((j : Int) - 1 < s) := by omega
  rw [downFrom, if_neg hpos, hunit]
  simp only [hbody, hstart, hrest fuel (by omega), bind, Except.bind, pure, Except.pure]
  split_ifs <;> simp

lemma Turns.byte {c : UInt8} (hunit : r.unitAt? i s = none) (hgroup : r.signedGroup? i s = none)
    (hc : r.src[i]? = some c) (hs : s ≤ i) : Turns r s b i (i + 1) [turned c] := by
  intro rest hrest fuel hfuel
  obtain ⟨fuel, rfl⟩ := Nat.exists_eq_succ_of_ne_zero (Nat.ne_zero_of_lt hfuel)
  have hpos : ¬ ((i : Int) < s) := by omega
  have hcut : r.cut (i : Int) ((i : Int) + 1) = [c] := by
    rw [show (i : Int) + 1 = (i + 1 : Nat) from rfl, cut_natCast, slice, Nat.add_sub_cancel_left]
    obtain ⟨hlt, rfl⟩ := List.getElem?_eq_some_iff.1 hc
    rw [List.drop_eq_getElem_cons hlt]
    rfl
  rw [Nat.cast_add, Nat.cast_one, Int.add_sub_cancel, downFrom, if_neg hpos, hunit, hgroup]
  simp only [hcut, hrest fuel (by omega), bind, Except.bind, pure, Except.pure]
  rfl

lemma Turns.signed {g : SignedGroup} {opening : Nat} (h : r.Unfolds g.sign out) (hunit : r.unitAt? i s = none)
    (hgroup : r.signedGroup? i s = some g) (hopening : g.opening = opening) (hs : s ≤ opening)
    (hfirst : (opening : Int) < g.sign.span.start) (hlast : g.sign.span.stop < i) (hlt : opening < i) :
    Turns r s b opening (i + 1)
      (if !r.powerAfter i ((b : Int) - 1) || r.powerBefore opening s then
        40 :: (r.cut (g.inner + 1) i).reverse ++ out ++ (r.cut (g.opening + 1) g.sign.span.start).reverse ++ [41]
      else out) := by
  intro rest hrest fuel hfuel
  obtain ⟨fuel, rfl⟩ := Nat.exists_eq_succ_of_ne_zero (Nat.ne_zero_of_lt hfuel)
  have hpos : ¬ ((i : Int) < s) := by omega
  have hbody := h fuel (by omega)
  rw [Nat.cast_add, Nat.cast_one, Int.add_sub_cancel, downFrom, if_neg hpos, hunit, hgroup]
  simp only [hbody, hopening, hrest fuel (by omega), bind, Except.bind, pure, Except.pure]
  split_ifs <;> simp

def Leaves (r : Reversal) (s b i j : Nat) (ts : List Token) : Prop :=
  ∃ out, Turns r s b i j out ∧ Spread out (ts.map unplaced)

lemma Leaves.trans {ts us : List Token} (h : Leaves r s b k j ts) (h' : Leaves r s b i k us) :
    Leaves r s b i j (ts ++ us) := by
  obtain ⟨out, hturns, hspread⟩ := h
  obtain ⟨out', hturns', hspread'⟩ := h'
  exact ⟨out ++ out', hturns.trans hturns', by rw [List.map_append]; exact hspread.append hspread'⟩

lemma signedGroup?_of_ne (h : r.byteAt? i ≠ some 41) (s : Int) : r.signedGroup? i s = none := by
  rw [signedGroup?, if_pos]
  simpa using h

lemma turned_blank : ∀ c : UInt8, isBlankByte c = true → turned c = c ∧ c ≠ 41 := by decide +kernel

lemma leaves_blanks (hr : r.Sound) (hs : s ≤ i) : ∀ (n : Nat), Blanks r.src i (i + n) → Leaves r s b i (i + n) []
  | 0, _ => ⟨[], fun _ h => h, .done⟩
  | n + 1, h => by
    obtain ⟨c, hc, hblank⟩ := h (i + n) (by omega) (by omega)
    obtain ⟨hturned, hne⟩ := turned_blank c hblank
    have hnone : r.elements.endingAt (i + n : Nat) = [] :=
      hr.endingAt_blank (isBlankAt_of_blanks h (by omega) (by omega))
    have hunit : r.unitAt? (i + n : Nat) s = none := by
      rw [unitAt?, hnone]
      rfl
    have hgroup : r.signedGroup? (i + n : Nat) s = none := by
      refine signedGroup?_of_ne ?_ s
      rw [byteAt?_natCast, hc]
      simpa using hne
    obtain ⟨out, hturns, hspread⟩ := leaves_blanks hr hs n fun k hk hk' => h k hk (by omega)
    refine ⟨turned c :: out, (Turns.byte hunit hgroup hc (by omega)).trans hturns, ?_⟩
    rw [hturned]
    exact .blank hblank hspread

lemma Leaves.blanks {ts : List Token} (h : Leaves r s b k j ts) (hr : r.Sound) (hb : Blanks r.src i k) (hik : i ≤ k)
    (hs : s ≤ i) : Leaves r s b i j ts := by
  obtain ⟨n, rfl⟩ := Nat.exists_eq_add_of_le hik
  rw [← List.append_nil ts]
  exact h.trans (leaves_blanks hr hs n hb)

def Yields (r : Reversal) (a b : Nat) (ts : List Token) : Prop :=
  ∃ out, (∀ fuel, 3 * (b - a) + 2 ≤ fuel → r.range fuel a ((b : Int) - 1) = .ok out) ∧ Spread out (ts.map unplaced)

lemma Leaves.yields {a : Nat} {ts : List Token} (h : Leaves r a b a b ts) (hb : b ≤ r.src.length) :
    Yields r a b ts := by
  obtain ⟨out, hturns, hspread⟩ := h
  refine ⟨out, fun fuel hfuel => ?_, hspread⟩
  obtain ⟨fuel, rfl⟩ := Nat.exists_eq_succ_of_ne_zero (show fuel ≠ 0 by omega)
  rw [range, if_neg]
  · have hend := hturns [] (fun fuel hfuel => ?_) fuel (by omega)
    · rw [hend, List.append_nil]
    · obtain ⟨fuel, rfl⟩ := Nat.exists_eq_succ_of_ne_zero (Nat.ne_zero_of_lt hfuel)
      rw [downFrom, if_pos (by omega)]
  · simp only [Bool.or_eq_true, decide_eq_true_eq]
    omega

end Reversal

end LandUse
