import LandUse.Proofs.Problem.Equations
import LandUse.Proofs.Table.Sums

/-! Constraints find their option with letter case aside, but the area of its zone by its letters. -/

namespace LandUse

open Exact Outcome Model Number

section Whole

lemma Number.Whole.cast_eq {m n : Nat} {q : Int} (h : Whole m q n) : (m * 2 ^ q : ℚ) = n := by
  rcases Int.le_total 0 q with hq | hq
  · obtain ⟨k, rfl⟩ := Int.eq_ofNat_of_zero_le hq
    rw [h.of_nonneg hq, Int.toNat_natCast, Nat.cast_mul, Nat.cast_pow, zpow_natCast, Nat.cast_ofNat]
  · obtain ⟨k, hk⟩ := Int.eq_ofNat_of_zero_le (Int.neg_nonneg_of_nonpos hq)
    obtain rfl : q = -(k : Int) := by omega
    rw [← h.of_nonpos hq, Int.neg_neg, Int.toNat_natCast, Nat.cast_mul, Nat.cast_pow, zpow_neg,
      zpow_natCast, Nat.cast_ofNat,
      mul_inv_cancel_right₀ (by positivity)]

lemma Exact.rational_ofInt {i : Int} (hi : i.natAbs < 2 ^ 53) : rational (Float.ofInt i) = i := by
  by_cases hzero : i = 0
  · subst hzero
    decide +kernel
  · obtain ⟨m, q, hc, hw⟩ := exists_whole (Int.natAbs_pos.mpr hzero) hi
    have hcanonical : (Parts.finite (decide (i < 0)) m q).Canonical := hc
    obtain ⟨x, hx⟩ := exists_parts hcanonical
    rw [ofInt_whole hx hw hzero decide_eq_true_iff.symm, rational_of_parts hx, hw.cast_eq]
    split
    · rename_i hneg
      have := decide_eq_true_iff.mp hneg
      rw [← Int.cast_natCast, ← Int.cast_neg, Int.ofNat_natAbs_of_nonpos (by omega), Int.neg_neg]
    · rename_i hpos
      have := decide_eq_true_iff.not.mp hpos
      rw [← Int.cast_natCast, Int.natAbs_of_nonneg (by omega)]

end Whole

variable {K : Type} [Field K] [LinearOrder K] [Functions K]

def Cell.IsExact : Cell → Prop
  | none | some (.double _) => True
  | some (.int i) => i.toInt.natAbs < 2 ^ 53
  | some (.text _) => False

omit [LinearOrder K] [Functions K] in
lemma amount_eq_areaOf [LinearOrder K] [Functions K] {s : Settings} {t : Table} {r : List Cell}
    (h : (t.cellOf s.areaField r).IsExact) : (t.cellOf s.areaField r).amount K = s.areaOf K t r := by
  unfold Settings.areaOf Table.numberAt Table.valueAt
  cases hcell : t.cellOf s.areaField r with
  | none =>
    have hempty : (Table.readCell none).toFloat = .error (.notNumeric "") := rfl
    rw [hempty]
    rfl
  | some v =>
    rw [hcell] at h
    cases v with
    | int i =>
      change ((i.toInt : Int) : K) = (rational (Float.ofInt i.toInt) : K)
      rw [rational_ofInt h, Rat.cast_intCast]
    | double => rfl
    | text => exact h.elim

namespace Settings

variable (K) (s : Settings) (t : Table)

def zoneArea (zone : String) (o : Nat) (rows : List (List Cell)) : K :=
  ((rows.filter fun r => s.mentioned K t zone r o = 1).map fun r => (t.cellOf s.areaField r).amount K).sum

def rounded (v : K) : K := if s.kind = .int then Functions.floor v else v

end Settings

lemma contains_empty {part : String} (h : part ≠ "") : Text.contains "" part = false := by
  unfold Text.contains
  cases hpart : part.toList with
  | nil => exact absurd (String.toList_inj.mp hpart) h
  | cons => rfl

lemma mentions_eq_contains {cell : Cell} (hcell : cell = none ∨ ∃ s, cell = some (.text s))
    {part : String} (h : part ≠ "") :
    cell.mentions part = Text.contains (Table.readCell cell).toText part := by
  obtain rfl | ⟨s, rfl⟩ := hcell
  · exact (contains_empty h).symm
  · rfl

section Zone

variable {config : Config} {s : Settings} {t : Table} {zone option : String} {o : Nat} {rows : List (List Cell)}

omit [LinearOrder K] [Functions K] in
lemma mentioned_eq_one_iff (hzone : zone ≠ "") (hspelled : s.options[o]? = some option) (r : List Cell) :
    s.mentioned K t zone r o = 1 ↔ Text.contains (t.valueAt zone r).toText option = true := by
  have hempty : zone.isEmpty = false := by simpa using hzone
  rw [Settings.mentioned, hempty, Bool.false_or, List.getD_eq_getElem?_getD, hspelled, Option.getD_some]
  split
  · rename_i hcontains
    simp [hcontains]
  · rename_i hcontains
    simp [hcontains]

lemma indicator_gives (name : String) (hzone : zone ≠ "") (hspelled : s.options[o]? = some option) (r : List Cell) :
    (zoneParameter s name zone).Gives (t.valueAt zone r) o (s.mentioned K t zone r o) := by
  have hempty : zone.isEmpty = false := by simpa using hzone
  have hoptions : s.options.isEmpty = false := by
    cases hlist : s.options with
    | nil =>
      rw [hlist] at hspelled
      cases hspelled
    | cons => rfl
  have hscale : (Program.scaleOf (zoneParameter s name zone) : K) = 1 := scaleOf_one rfl
  refine (if_neg (by rw [zoneParameter, hoptions]; exact Bool.false_ne_true)).mpr ⟨option, hspelled, ?_⟩
  rw [Settings.mentioned, hempty, Bool.false_or, List.getD_eq_getElem?_getD, hspelled, Option.getD_some, hscale,
    zero_eq]

lemma convert_zone (hzone : zone ≠ "") (value : Float) :
    (Area.convert config s t value .percentOfZone option zone : Except Failure K) =
    (Area.ofZone config s t option zone).map fun a => s.rounded K (a * (rational value : K) / 100) := by
  have hempty : ¬ zone.isEmpty = true := by simpa using hzone
  have hhundred : (Scalar.ofFloat 100 : K) = 100 := by
    have hrational : rational 100 = 100 := by decide +kernel
    exact (congrArg Rat.cast hrational).trans (by norm_num)
  unfold Area.convert Area.base
  dsimp only
  rw [if_neg hempty, hhundred]
  cases Area.ofZone (α := K) config s t option zone <;> rfl

variable (ht : t.Stored) {i j : Nat} (hi : t.columnIndex? zone = some i) (hj : t.columnIndex? s.areaField = some j)
include ht hi

lemma ofZone_eq : (Area.ofZone config s t option zone : Except Failure K) =
    Area.require (Area.queryText s t (selection config t
      ("instr(" ++ SqlText.quoteName zone ++ ", " ++ SqlText.quoteText option ++ ") > 0")))
      (t.sum? s.areaField (selection config t "") fun r => (t.cellOf zone r).mentions option) := by
  obtain ⟨_, -, hcolumn⟩ := ht.filterColumns_eq hi
  simp only [Area.ofZone, hcolumn, Option.bind_eq_bind, Option.bind_some, Table.Stored.cellOf_eq hi]

variable (hzone : zone ≠ "") (hspelled : s.options[o]? = some option) (hoption : option ≠ "")
  {c : Column} (hc : t.columns[i]? = some c) (htext : c.type = .text)
  (hrows : t.selected? (selection config t "") = some rows)
include hzone hspelled hoption hc htext hrows

omit [Functions K] in
lemma filter_mentions : (rows.filter fun r => (t.cellOf zone r).mentions option) =
    rows.filter fun r => s.mentioned K t zone r o = 1 := by
  refine List.filter_congr fun r hr => ?_
  rw [mentions_eq_contains (ht.text_or_empty hi hc htext hrows hr) hoption, Bool.eq_iff_iff, decide_eq_true_iff,
    mentioned_eq_one_iff hzone hspelled]
  rfl

include hj

lemma eq_zoneArea_of_ofZone {a : K} (h : Area.ofZone config s t option zone = .ok a) :
    a = s.zoneArea K t zone o rows := by
  rw [ofZone_eq ht hi] at h
  cases hsum : (t.sum? s.areaField (selection config t "") fun r => (t.cellOf zone r).mentions option : Option K) with
  | none =>
    rw [hsum] at h
    cases h
  | some a' =>
    rw [hsum] at h
    cases h
    rw [Table.eq_sum_of_sum? hrows ht hj hsum, filter_mentions (K := K) ht hi hzone hspelled hoption hc htext hrows]
    rfl

lemma ofZone_eq_ok (hsize : (rows.map fun r => Table.cellSize (t.cellOf s.areaField r)).sum < 2 ^ 63) :
    Area.ofZone config s t option zone = .ok (s.zoneArea K t zone o rows) := by
  rw [ofZone_eq ht hi, Table.sum?_eq_some hrows ht hj hsize, filter_mentions (K := K) ht hi hzone hspelled
    hoption hc htext hrows]
  rfl

end Zone

lemma Table.exists_column {t : Table} {name : String} (h : t.hasColumn name = true) :
    ∃ i, t.columnIndex? name = some i :=
  Option.isSome_iff_exists.mp h

/-- A percentage of a zone refers to the area of those selected units for which the indicator is one. -/
theorem Area.percentage_of_zone {config : Config} {s : Settings} {t : Table} {name : String} {columns : List Column}
    {given : List (List Cell)} (ht : Table.create name columns given = .ok t) (hs : s.check t.hasColumn = .ok ())
    {c : ArealConstraint} (hc : c ∈ s.arealConstraints) (hunit : c.unit = .percentOfZone) (hzone : c.zone ≠ "")
    (htext : (t.filterColumns c.zone).map (·.2) = some .text) {o : Nat} (ho : s.optionIndex? c.option = some o)
    (hspelled : s.options[o]? = some c.option) (hoption : c.option ≠ "") {rows : List (List Cell)}
    (hrows : t.selected? (selection config t "") = some rows) :
    (∀ (i : Nat) (r : List Cell),
      (zoneParameter s ("__zone_areal_" ++ toString i) c.zone).Gives (t.valueAt c.zone r) o
      (s.mentioned K t c.zone r o) ∧
        s.arealFactor K t c r o = s.measure K t r * s.mentioned K t c.zone r o) ∧
    (∀ rhs : K, Area.convert config s t c.value c.unit c.option c.zone = .ok rhs →
      rhs = s.rounded K (s.zoneArea K t c.zone o rows * (rational c.value : K) / 100)) ∧
    ((rows.map fun r => Table.cellSize (t.cellOf s.areaField r)).sum < 2 ^ 63 →
      Area.convert config s t c.value c.unit c.option c.zone =
        .ok (s.rounded K (s.zoneArea K t c.zone o rows * (rational c.value : K) / 100))) ∧
    ((∀ r ∈ rows, (t.cellOf s.areaField r).IsExact) → s.zoneArea K t c.zone o rows =
      ((rows.filter fun r => s.mentioned K t c.zone r o = 1).map (s.areaOf K t)).sum) := by
  have haccepted := Settings.check_eq_ok.mp hs
  have hstored := Table.stored_create ht
  obtain ⟨i, hi⟩ := Table.exists_column ((haccepted.arealConstraints c hc).2 hzone)
  obtain ⟨j, hj⟩ := Table.exists_column (haccepted.area (.inr (List.ne_nil_of_mem hc))).2
  obtain ⟨column, hcolumn, hfilter⟩ := hstored.filterColumns_eq hi
  have htype : column.type = .text := by
    rw [hfilter] at htext
    exact Option.some.inj htext
  rw [hunit, convert_zone hzone]
  refine ⟨fun i r => ⟨indicator_gives _ hzone hspelled r, if_pos ho⟩, fun rhs hrhs => ?_,
    fun hsize => ?_, fun hexact => ?_⟩
  · cases harea : (Area.ofZone config s t c.option c.zone : Except Failure K) with
    | error =>
      rw [harea] at hrhs
      cases hrhs
    | ok a =>
      rw [harea] at hrhs
      cases hrhs
      rw [eq_zoneArea_of_ofZone hstored hi hj hzone hspelled hoption hcolumn htype hrows harea]
  · rw [ofZone_eq_ok hstored hi hj hzone hspelled hoption hcolumn htype hrows hsize]
    rfl
  · refine congrArg List.sum (List.map_congr_left fun r hr => ?_)
    exact amount_eq_areaOf (hexact r (List.mem_of_mem_filter hr))

def halfZone (option : String) : Settings where
  areaField := "area"
  unitDimension := "SDU"
  options := ["A", "B"]
  arealConstraints := [⟨"half", option, "zone", .le, 50, .percentOfZone⟩]
  dimensions := [("SDU", "nm_id")]

def zonedLand : Except Failure Table :=
  Table.create "land" [⟨"nm_id", .int⟩, ⟨"area", .double⟩, ⟨"zone", .text⟩]
    [[some (.int 1), some (.double 10), some (.text "A only")], [some (.int 2), some (.double 30),
      some (.text "B only")]]

theorem half_of_zone_spelled : ∃ (t : Table) (rows : List (List Cell)), zonedLand = .ok t ∧
    t.selected? (selection {} t "") = some rows ∧
    Area.convert {} (halfZone "A") t 50 .percentOfZone "A" "zone" =
      .ok ((halfZone "A").rounded ℚ ((halfZone "A").zoneArea ℚ t "zone" 0 rows * (rational 50 : ℚ) / 100)) ∧
    (halfZone "A").zoneArea ℚ t "zone" 0 rows = 10 := by
  have hrun : zonedLand.toOption.any (fun t => (t.selected? (selection {} t "")).any fun rows =>
      ((halfZone "A").check t.hasColumn).toOption.any fun _ => (t.filterColumns "zone").map (·.2) == some .text &&
        decide ((rows.map fun r => Table.cellSize (t.cellOf "area" r)).sum < 2 ^ 63) &&
        decide ((halfZone "A").zoneArea ℚ t "zone" 0 rows = 10)) = true := by decide +kernel
  obtain ⟨t, ht, hrun⟩ := exists_of_any hrun
  obtain ⟨rows, hrows, hrun⟩ := (Option.any_eq_true _ _).1 hrun
  obtain ⟨_, hs, hrun⟩ := exists_of_any hrun
  simp only [Bool.and_eq_true, decide_eq_true_eq, beq_iff_eq] at hrun
  obtain ⟨⟨htext, hsize⟩, harea⟩ := hrun
  have hzone := Area.percentage_of_zone (K := ℚ) (o := 0) ht hs (List.mem_singleton_self _) rfl (by decide)
    htext (by decide) rfl
    (by decide) hrows
  exact ⟨t, rows, ht, hrows, hzone.2.2.1 hsize, harea⟩

/-- In another letter case it is the same option, but the area of its zone is not found. -/
example : (match zonedLand with
    | .error _ => false
    | .ok t => (halfZone "a").optionIndex? "a" == some 0 &&
      match (Area.convert {} (halfZone "a") t 50 .percentOfZone "a" "zone" : Except Failure ℚ) with
      | .error _ => false
      | .ok rhs => rhs == 0) = true := by
  decide +kernel

end LandUse
