import LandUse.Proofs.Expansion.Grouping
import LandUse.Proofs.Expansion.Numbering
import LandUse.Proofs.Grammar.Numbers

/-! Integers are told apart up to `2 ^ 53`, and beyond only by the nearest one of 53 significant bits. -/

namespace LandUse

open Number

namespace Number

variable {x y : Float} {m : Nat} {q : Int}

lemma general_neg (hx : parts x = .finite false m q) : general (-x) = "-" ++ general x := by
  simp only [general, parts_neg hx, hx, signText, Bool.not_false, if_true, Bool.false_eq_true, if_false,
    String.empty_append]
  split_ifs <;> rfl

lemma value_general (hx : parts x = .finite false m q) : Token.numberValue? (general x) = some x := by
  obtain ⟨lex, hlex, hs⟩ := spelled_general hx
  change general x = Text.ascii lex at hs
  rw [hs]
  exact hlex.number.2

lemma general_ne_minus (hx : parts x = .finite false m q) (s : String) : general x ≠ "-" ++ s := by
  obtain ⟨lex, hlex, hs⟩ := spelled_general hx
  obtain ⟨b, r, rfl⟩ := List.exists_cons_of_ne_nil hlex.ne_nil
  intro h
  have hlist := congrArg String.toList (hs.symm.trans h)
  rw [Text.ascii, String.toList_ofList, String.toList_append] at hlist
  have hb := congrArg Char.toNat (List.cons.inj hlist).1
  rw [Token.char_toNat_ofNat] at hb
  obtain rfl : b = 45 := UInt8.toNat_inj.1 hb
  exact absurd hlex.number.1.head (by decide)

lemma neg_neg_of_finite {negative : Bool} (hx : parts x = .finite negative m q) : - -x = x := by
  apply eq_of_parts
  rw [parts_neg (parts_neg hx), hx, Bool.not_not]

lemma general_inj {negative negative' : Bool} {m' : Nat} {q' : Int} (hx : parts x = .finite negative m q)
    (hy : parts y = .finite negative' m' q') (h : general x = general y) : x = y := by
  cases negative with
  | false =>
    cases negative' with
    | false => exact Option.some.inj ((value_general hx).symm.trans (h ▸ value_general hy))
    | true =>
      rw [← neg_neg_of_finite hy, general_neg (parts_neg hy)] at h
      exact absurd h (general_ne_minus hx _)
  | true =>
    have hx' := parts_neg hx
    rw [← neg_neg_of_finite hx, general_neg hx'] at h
    cases negative' with
    | false => exact absurd h.symm (general_ne_minus hy _)
    | true =>
      have hy' := parts_neg hy
      rw [← neg_neg_of_finite hy, general_neg hy', String.append_right_inj] at h
      have hneg : -x = -y := Option.some.inj ((value_general hx').symm.trans (h ▸ value_general hy'))
      rw [← neg_neg_of_finite hx, hneg, neg_neg_of_finite hy]

lemma Whole.unit_mul {n k : Nat} (h : Whole m q n) (hk : 0 ≤ q + k) : (n : Int) * unit k = m * unit (q + k).toNat := by
  unfold unit
  exact_mod_cast h.scaled hk

lemma le_nearestWhole {n : Nat} (hn : 2 ^ 53 ≤ n) : 2 ^ 53 ≤ nearestWhole n := by
  have hlog : 53 ≤ n.log2 := (Nat.le_log2 (by omega)).2 hn
  calc 2 ^ 53 ≤ 2 ^ 52 * 2 ^ (n.log2 - 52) := by
        rw [← Nat.pow_add]
        exact Nat.pow_le_pow_right (by decide) (by omega)
    _ ≤ nearestWhole n := Nat.mul_le_mul_right _ ((shifted_bounds (by omega)).1.trans (le_roundDiv _ _).1)

end Number

namespace Value

variable {i j : Int64}

def nearestInt (i : Int64) : Int := i.toInt.sign * nearestWhole i.toInt.natAbs

lemma height_ofInt64 (i : Int64) : (parts (ofInt64 i)).height = nearestInt i * unit 1074 := by
  rcases parts_ofInt64 i with ⟨h, h'⟩ | ⟨negative, m, q, -, hp, hw, hs⟩
  · rw [h', parts_zero, height_finite, nearestInt, h]
    simp
  · have hc := canonical_parts (ofInt64 i)
    rw [hp] at hc
    have hscaled : (nearestWhole i.toInt.natAbs : Int) * unit 1074 = m * unit (q + 1074).toNat :=
      hw.unit_mul (by have := hc.2.1; omega)
    rw [hp, height_finite, nearestInt, hs]
    cases negative
    · simp only [Bool.false_eq_true, if_false, one_mul, hscaled]
    · simp only [if_true, neg_mul, one_mul, hscaled]

lemma ofInt64_inj_iff : ofInt64 i = ofInt64 j ↔ nearestInt i = nearestInt j := by
  have hi := number_proper (v := .int i) trivial
  have hj := number_proper (v := .int j) trivial
  constructor
  · intro h
    have hheight := height_ofInt64 i
    rw [h, height_ofInt64 j] at hheight
    exact (Int.eq_of_mul_eq_mul_right (unit_pos 1074).ne' hheight).symm
  · intro h
    refine eq_of_height hi hj ?_
    rw [height_ofInt64, height_ofInt64, h]

lemma finite_ofInt64 (i : Int64) : ∃ negative m q, parts (ofInt64 i) = .finite negative m q := by
  rcases parts_ofInt64 i with ⟨-, h⟩ | ⟨negative, m, q, -, h, -⟩
  · exact ⟨false, 0, -1074, by rw [h, parts_zero]⟩
  · exact ⟨negative, m, q, h⟩

lemma key_int_iff : (Value.int i).key = (Value.int j).key ↔ nearestInt i = nearestInt j := by
  obtain ⟨_, _, _, hi⟩ := finite_ofInt64 i
  obtain ⟨_, _, _, hj⟩ := finite_ofInt64 j
  rw [key_of_isNumber rfl, key_of_isNumber rfl, String.append_right_inj, ← ofInt64_inj_iff]
  exact ⟨general_inj hi hj, congrArg general⟩

lemma equal_int_iff : (Value.int i).equal (.int j) = true ↔ nearestInt i = nearestInt j := by
  have hi := number_proper (v := .int i) trivial
  have hj := number_proper (v := .int j) trivial
  rw [equal_of_isNumber rfl rfl, beq_iff_height hi.1 hj.1]
  change (parts (ofInt64 i)).height = (parts (ofInt64 j)).height ↔ _
  rw [height_ofInt64, height_ofInt64]
  exact ⟨Int.eq_of_mul_eq_mul_right (unit_pos 1074).ne', congrArg (· * unit 1074)⟩

lemma nearestInt_eq (hi : i.toInt.natAbs ≤ 2 ^ 53) : nearestInt i = i.toInt := by
  rw [nearestInt, nearestWhole_eq hi, Int.sign_mul_natAbs]

lemma eq_of_nearestInt (hi : i.toInt.natAbs < 2 ^ 53) (h : nearestInt i = nearestInt j) : i = j := by
  rw [nearestInt_eq hi.le] at h
  by_cases hj : j.toInt.natAbs ≤ 2 ^ 53
  · rw [nearestInt_eq hj] at h
    exact Int64.toInt_inj.1 h
  · -- Rounding does not lead back below a power of two.
    have hlarge := le_nearestWhole (Nat.le_of_lt (Nat.not_le.1 hj))
    have hj0 : j.toInt ≠ 0 := by
      rintro h0
      rw [h0] at hj
      exact hj (by decide)
    have habs := congrArg Int.natAbs h
    rw [nearestInt, Int.natAbs_mul, Int.natAbs_sign_of_ne_zero hj0, Nat.one_mul, Int.natAbs_natCast] at habs
    omega

end Value

open Value

def Cell.ofInts (is : List Int64) : List Cell := is.map fun i => some (.int i)

lemma map_eq_map_iff {α β γ : Type} {f : α → β} {g : α → γ} (h : ∀ a b, f a = f b ↔ g a = g b) {l l' : List α} :
    l.map f = l'.map f ↔ l.map g = l'.map g := by
  induction l generalizing l' with
  | nil => cases l' <;> simp
  | cons a l ih => cases l' <;> simp [h, ih]

lemma Cell.tupleKey_iff {t u : List Cell} (ht : VariableInstance.Plain t) (hu : VariableInstance.Plain u) :
    Cell.tupleKey t = Cell.tupleKey u ↔ t.map Cell.key = u.map Cell.key := by
  have hname : Number.Visible "" := by decide
  refine ⟨fun h => (VariableInstance.keyOf_injective hname hname ht hu ?_).2, fun h => ?_⟩
  · rw [VariableInstance.keyOf, VariableInstance.keyOf, h]
  · rw [Cell.tupleKey, Cell.tupleKey, h]

lemma Cell.tupleKey_ofInts (is js : List Int64) :
    Cell.tupleKey (ofInts is) = Cell.tupleKey (ofInts js) ↔ is.map nearestInt = js.map nearestInt := by
  have hplain : ∀ is, VariableInstance.Plain (ofInts is) := by
    intro is s hs
    obtain ⟨i, -, hi⟩ := List.mem_map.1 hs
    cases hi
  rw [tupleKey_iff (hplain is) (hplain js), ofInts, ofInts, List.map_map, List.map_map]
  exact map_eq_map_iff fun _ _ => key_int_iff

namespace Program

lemma sameValues_ints (is js : List Int64) :
    sameValues (is.map .int) (js.map .int) = true ↔ is.map nearestInt = js.map nearestInt := by
  induction is generalizing js with
  | nil => cases js <;> simp [sameValues]
  | cons i is ih => cases js <;> simp [sameValues, equal_int_iff, ih]

section Groups

variable {key : Row → List Value} {rows : List Row} {r r' : Row}

lemma splitGroups_cons (key : Row → List Value) (row : Row) (rows : List Row) :
    ∃ first groups, splitGroups key (row :: rows) = (row :: first) :: groups := by
  rw [splitGroups]
  split
  · exact ⟨_, _, rfl⟩
  · exact ⟨_, _, rfl⟩
  · split
    · exact ⟨_, _, rfl⟩
    · exact ⟨_, _, rfl⟩

lemma splitGroups_cons_cons {next : Row} {first : List Row} {groups : List (List Row)}
    (h : splitGroups key (next :: rows) = (next :: first) :: groups) (row : Row) :
    splitGroups key (row :: next :: rows) =
      if sameValues (key row) (key next) then (row :: next :: first) :: groups
        else [row] :: (next :: first) :: groups := by
  rw [splitGroups, h]

lemma chain_of_mem_splitGroups {g : List Row} (hg : g ∈ splitGroups key rows) :
    g.IsChain fun a b => sameValues (key a) (key b) = true := by
  induction rows generalizing g with
  | nil => cases hg
  | cons row rows ih =>
    cases rows with
    | nil =>
      rw [List.mem_singleton.1 hg]
      exact .singleton row
    | cons next rows =>
      obtain ⟨first, groups, h⟩ := splitGroups_cons key next rows
      rw [splitGroups_cons_cons h] at hg
      rw [h, List.forall_mem_cons] at ih
      split_ifs at hg with hsame
      · rcases List.mem_cons.1 hg with rfl | hg
        · exact .cons_cons hsame ih.1
        · exact ih.2 g hg
      · rcases List.mem_cons.1 hg with rfl | hg
        · exact .singleton row
        · exact List.forall_mem_cons.2 ih g hg

lemma exists_mem_splitGroups (hsame : sameValues (key r) (key r') = true) (h : [r, r'] <:+: rows) :
    ∃ g ∈ splitGroups key rows, [r, r'] <:+: g := by
  induction rows with
  | nil => exact absurd (List.infix_nil.1 h) (List.cons_ne_nil _ _)
  | cons row rows ih =>
    cases rows with
    | nil => exact absurd h.length_le (by simp)
    | cons next rows =>
      obtain ⟨first, groups, hsplit⟩ := splitGroups_cons key next rows
      rw [splitGroups_cons_cons hsplit]
      rcases List.infix_cons_iff.1 h with hhead | htail
      · obtain ⟨rfl, hsecond⟩ := List.cons_prefix_cons.1 hhead
        obtain ⟨rfl, -⟩ := List.cons_prefix_cons.1 hsecond
        rw [if_pos hsame]
        exact ⟨_, List.mem_cons_self, [], first, rfl⟩
      · obtain ⟨g, hg, hin⟩ := ih htail
        rw [hsplit] at hg
        split_ifs
        · rcases List.mem_cons.1 hg with rfl | hg
          · exact ⟨_, List.mem_cons_self, hin.trans (List.suffix_cons _ _).isInfix⟩
          · exact ⟨g, List.mem_cons_of_mem _ hg, hin⟩
        · exact ⟨g, List.mem_cons_of_mem _ hg, hin⟩

lemma together_iff {columns free : List String} (hfree : free ≠ []) (h : [r, r'] <:+: rows) :
    (∃ g ∈ groupRows columns free rows, [r, r'] <:+: g) ↔
      sameValues (project columns free r) (project columns free r') = true := by
  rw [groupRows, if_neg (by simpa using hfree)]
  constructor
  · rintro ⟨g, hg, hin⟩
    obtain ⟨front, back, rfl⟩ := hin
    have hchain := (List.isChain_append.1 (chain_of_mem_splitGroups hg)).1
    simpa using (List.isChain_append.1 hchain).2.1
  · exact fun hsame => exists_mem_splitGroups hsame h

lemma iterated_together_iff {column : Nat} {v w : Value} (hr : r ∈ rows) (hr' : r' ∈ rows) (hv : r[column]? = some v)
    (hw : r'[column]? = some w) : (∃ it ∈ groupBy column rows, r ∈ it.rows ∧ r' ∈ it.rows) ↔ v.key = w.key := by
  have hgroups := groups_groupBy column rows
  constructor
  · rintro ⟨it, hit, hmem, hmem'⟩
    rw [hgroups.filtered it hit, List.mem_filter, hasKey] at hmem hmem'
    rw [hv, Option.any_some, beq_iff_eq] at hmem
    rw [hw, Option.any_some, beq_iff_eq] at hmem'
    exact hmem.2.trans hmem'.2.symm
  · intro hkey
    obtain ⟨it, hit, hitkey⟩ := List.mem_map.1 (hgroups.all r hr v hv)
    refine ⟨it, hit, ?_⟩
    rw [hgroups.filtered it hit, List.mem_filter, List.mem_filter, hasKey, hasKey, hv, hw, hitkey]
    simp [hr, hr', hkey]

end Groups

end Program

lemma Offsets.offset_iff {o : Offsets} {name : String} {t u : List Cell} {k : Nat} (h : o.offset name t = .ok k) :
    o.offset name u = .ok k ↔ Cell.tupleKey t = Cell.tupleKey u := by
  have hlast : ∀ t, o.offset name t = .ok k ↔ lastIndex (VariableInstance.keyOf name t) o.keys = some k := by
    intro t
    unfold offset
    split
    · rename_i hsome
      rw [hsome, Except.ok.injEq, Option.some.injEq]
    · rename_i hnone
      simp [hnone]
  rw [hlast] at h ⊢
  constructor
  · intro h'
    have hkey := Option.some.inj ((getElem?_of_lastIndex h).symm.trans (getElem?_of_lastIndex h'))
    exact String.append_right_inj _ |>.1 hkey
  · intro hkey
    rwa [VariableInstance.keyOf, ← hkey]

/-- Integers are identified exactly if the same integer of 53 significant bits is nearest to them. -/
theorem integers_told_apart (i j : Int64) (is js : List Int64) :
    ((Value.int i).key = (Value.int j).key ↔ nearestInt i = nearestInt j) ∧
    ((Value.int i).equal (.int j) = true ↔ nearestInt i = nearestInt j) ∧
    (Cell.tupleKey (Cell.ofInts is) = Cell.tupleKey (Cell.ofInts js) ↔ is.map nearestInt = js.map nearestInt) ∧
    (∀ columns free rows r r', free ≠ [] → [r, r'] <:+: rows → Program.project columns free r = is.map .int →
      Program.project columns free r' = js.map .int →
      ((∃ g ∈ Program.groupRows columns free rows, [r, r'] <:+: g) ↔ is.map nearestInt = js.map nearestInt)) ∧
    (∀ column rows r r', r ∈ rows → r' ∈ rows → r[column]? = some (.int i) → r'[column]? = some (.int j) →
      ((∃ it ∈ Program.groupBy column rows, r ∈ it.rows ∧ r' ∈ it.rows) ↔ nearestInt i = nearestInt j)) ∧
    (∀ (o : Offsets) name k, o.offset name (Cell.ofInts is) = .ok k →
      (o.offset name (Cell.ofInts js) = .ok k ↔ is.map nearestInt = js.map nearestInt)) ∧
    (i.toInt.natAbs ≤ 2 ^ 53 → nearestInt i = i.toInt) ∧
    (i.toInt.natAbs < 2 ^ 53 → (nearestInt i = nearestInt j ↔ i = j)) := by
  refine ⟨key_int_iff, equal_int_iff, Cell.tupleKey_ofInts is js, ?_, ?_, ?_, nearestInt_eq, ?_⟩
  · intro columns free rows r r' hfree hrows hr hr'
    rw [Program.together_iff hfree hrows, hr, hr', Program.sameValues_ints]
  · intro column rows r r' hr hr' hi hj
    rw [Program.iterated_together_iff hr hr' hi hj, key_int_iff]
  · intro o name k h
    rw [Offsets.offset_iff h, Cell.tupleKey_ofInts]
  · exact fun hi => ⟨eq_of_nearestInt hi, congrArg nearestInt⟩

theorem large_ids_identified :
    (Value.int 9007199254740992).key = (Value.int 9007199254740993).key ∧
    (Value.int 9007199254740992).equal (.int 9007199254740993) = true ∧
    (∃ g ∈ Program.groupRows ["unit"] ["unit"] [[.int 9007199254740992], [.int 9007199254740993]],
      [[.int 9007199254740992], [.int 9007199254740993]] <:+: g) ∧
    (∃ it ∈ Program.groupBy 0 [[.int 9007199254740992], [.int 9007199254740993]],
      [.int 9007199254740992] ∈ it.rows ∧ [.int 9007199254740993] ∈ it.rows) ∧
    Offsets.offset (Offsets.extend {} [⟨"X", [.int 9007199254740992], .real⟩, ⟨"X", [.int 9007199254740993], .real⟩])
      "X" (Cell.ofInts [9007199254740992]) = .ok 1 ∧
    (Value.int 9007199254740991).key ≠ (Value.int 9007199254740992).key := by
  have hnearest : nearestInt 9007199254740992 = nearestInt 9007199254740993 := by decide
  obtain ⟨hkey, hequal, -, hgroups, hiterations, -⟩ :=
    integers_told_apart 9007199254740992 9007199254740993 [9007199254740992] [9007199254740993]
  obtain ⟨-, -, -, -, -, hoffsets, -⟩ := integers_told_apart 0 0 [9007199254740993] [9007199254740992]
  obtain ⟨hkey', -, -, -, -, -, -, hsmall⟩ := integers_told_apart 9007199254740991 9007199254740992 [] []
  refine ⟨hkey.2 hnearest, hequal.2 hnearest, ?_, ?_, ?_, ?_⟩
  · exact (hgroups _ _ _ _ _ (by decide) List.infix_rfl rfl rfl).2 (by decide)
  · exact (hiterations 0 _ _ _ (by simp) (by simp) rfl rfl).2 hnearest
  · exact (hoffsets _ "X" 1 (by simp [Offsets.offset, Offsets.extend, Offsets.lastIndex, List.findIdx?_cons,
      VariableInstance.key, Cell.ofInts])).2 (by decide)
  · intro h
    exact absurd ((hsmall (by decide)).1 (hkey'.1 h)) (by decide)

end LandUse
