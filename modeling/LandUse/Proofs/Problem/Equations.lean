import LandUse.Proofs.Problem.Terms
import LandUse.Proofs.Settings.Accepted

namespace LandUse

open Exact Outcome Direct Grammar Model

def Table.valueAt (t : Table) (column : String) (r : List Cell) : Value := Table.readCell (t.cellOf column r)

def Table.numberAt (K : Type) [Field K] (t : Table) (column : String) (r : List Cell) : K :=
  match (t.valueAt column r).toFloat with
  | .ok x => (rational x : K)
  | .error _ => 0

namespace Settings

variable (K : Type) [Field K] [LinearOrder K] [Functions K] (s : Settings) (t : Table)

def areaOf (r : List Cell) : K := t.numberAt K s.areaField r

def measure (r : List Cell) : K := if s.kind = .binary then s.areaOf K t r else 1

def mentioned (zone : String) (r : List Cell) (o : Nat) : K :=
  if zone.isEmpty || Text.contains (t.valueAt zone r).toText (s.options.getD o "") then 1 else 0

def arealFactor (c : ArealConstraint) (r : List Cell) (o : Nat) : K :=
  if s.optionIndex? c.option = some o then s.measure K t r * s.mentioned K t c.zone r o else 0

def criterionFactor (c : CriterionConstraint) (r : List Cell) (o : Nat) : K :=
  if c.isTotal then s.measure K t r * t.numberAt K (c.fields.getD o "") r * s.mentioned K t c.zone r o
  else if s.optionIndex? c.option = some o then
    s.measure K t r * t.numberAt K (c.fields.getD 0 "") r * s.mentioned K t c.zone r o
  else 0

def worth (criterion : String) (r : List Cell) (o : Nat) : K :=
  let v := t.numberAt K (((s.criteria.get? criterion).getD []).getD o "") r
  match s.kind with
  | .real => v
  | .int => Functions.floor v
  | .binary => Functions.floor v * Functions.floor (s.areaOf K t r)

def usedArea (r : List Cell) : K := if s.kind = .int then Functions.floor (s.areaOf K t r) else s.areaOf K t r

end Settings

section Words

lemma isWord_append {a b : String} (ha : IsWord a = true) (hb : ∀ c ∈ b.toList, isWordChar c = true) :
    IsWord (a ++ b) = true := by
  unfold IsWord at ha ⊢
  rw [String.toList_append]
  split at ha
  · cases ha
  · rename_i c cs hcs
    rw [hcs, List.cons_append]
    simp only [Bool.and_eq_true, List.all_eq_true, List.mem_append] at ha ⊢
    exact ⟨ha.1, fun x hx => hx.elim (ha.2 x) (hb x)⟩

lemma isWord_numbered {stem : String} (h : IsWord stem = true) (i : Nat) : IsWord (stem ++ toString i) = true := by
  refine isWord_append h fun c hc => ?_
  have hdigit : c.isDigit = true :=
    Nat.isDigit_of_mem_toDigits (by decide) (by decide) (Nat.toList_repr ▸ hc : c ∈ Nat.toDigits 10 i)
  rw [isWordChar, hdigit, Bool.or_true, Bool.true_or]

lemma isWord_criterion (criterion : String) : IsWord (criterionParameter criterion) = true := by
  refine isWord_append (by decide) fun c hc => ?_
  rw [identifier, String.toList_ofList] at hc
  obtain ⟨d, -, rfl⟩ := List.mem_map.mp hc
  split
  · assumption
  · rfl

end Words

structure Program.Knows (p : Program) (s : Settings) (t : Table) (qs : List Parameter) : Prop where
  parameters : ∀ q ∈ qs, p.settings.parameters.get? q.name = some q
  options : p.catalog.options = s.options
  table : p.catalog.table = t

variable {K : Type} [Field K] [LinearOrder K] [Functions K] {p : Program} {s : Settings} {t : Table}
  {column owner : String}
  {kind : VariableKind} {units : List (List Cell)} {qs : List Parameter} {sel : Selector}

section Factors

variable {text : String} {f : Formula} {value value' : List Cell → Nat → K}

lemma Factor.congr {dim : String} {l : Level} (h : Factor p dim column owner sel l text f value)
    (hvalue : ∀ r o, value r o = value' r o) : Factor p dim column owner sel l text f value' := by
  obtain rfl : value = value' := funext fun r => funext (hvalue r)
  exact h

variable (hp : p.Models s.unitDimension column kind units) (hk : p.Knows s t qs)
include hp hk

lemma Factor.ofArea (harea : columnParameter areaParameter [s.areaField] ∈ qs) (owner : String) (sel : Selector) :
    Factor p s.unitDimension column owner sel .prim areaParameter (.reference areaParameter false []) fun r _ =>
    s.areaOf K t r := by
  have hq : p.settings.parameters.get? areaParameter = some (columnParameter areaParameter [s.areaField]) :=
    hk.parameters _ harea
  refine (Factor.ofColumn hp (by decide) (by decide) (by decide) hq).congr fun r _ => ?_
  rw [Settings.areaOf, ← hk.table]
  rfl

lemma exists_measure (harea : columnParameter areaParameter [s.areaField] ∈ qs) (owner : String) (sel : Selector) :
    ∃ f, Factor p s.unitDimension column owner sel .prim (if s.kind = .binary then areaParameter else "1") f
      fun r _ => s.measure K t r := by
  unfold Settings.measure
  split
  · exact ⟨_, Factor.ofArea hp hk harea owner sel⟩
  · exact ⟨_, Factor.one⟩

lemma exists_zoned (h : Factor p s.unitDimension column owner sel .mul text f value) (hsel : sel.OfOption)
    {zone indicator : String}
    (hword : IsWord indicator = true) (hx : indicator ≠ "X") (hb : indicator ≠ "b")
    (hzone : zone.isEmpty = false → zoneParameter s indicator zone ∈ qs) :
    ∃ f', Factor p s.unitDimension column owner sel .mul (zonedText text zone indicator sel.text) f'
      fun r o => value r o * s.mentioned K t zone r o := by
  unfold zonedText Settings.mentioned
  cases hempty : zone.isEmpty with
  | true =>
    refine ⟨f, h.congr fun r o => ?_⟩
    rw [Bool.true_or, if_pos rfl, mul_one]
  | false =>
    have hindicator : Factor p s.unitDimension column owner sel .prim (indicator ++ Selector.bracketed [sel]) _ _ :=
      Factor.ofZone (K := K) hp hword hx hb hsel hk.options (hk.parameters _ (hzone hempty))
    have htext : text ++ " * " ++ indicator ++ "[" ++ sel.text ++ "]" = text ++ " * " ++
      (indicator ++ Selector.bracketed [sel]) := by
      simp [Selector.bracketed, String.join, String.append_assoc]
    rw [if_neg (by simp), htext]
    refine ⟨_, (h.times (hindicator.loosen (by decide))).congr fun r o => ?_⟩
    rw [Bool.false_or, ← hk.table]
    rfl

lemma exists_sized (harea : columnParameter areaParameter [s.areaField] ∈ qs)
    (h : Factor p s.unitDimension column owner sel .prim text f value) :
    ∃ f', Factor p s.unitDimension column owner sel .mul
      (if s.kind = .binary then areaParameter ++ " * " ++ text else text) f'
      fun r o => s.measure K t r * value r o := by
  unfold Settings.measure
  split
  · exact ⟨_, ((Factor.ofArea hp hk harea owner sel).loosen (by decide)).times (h.loosen (by decide))⟩
  · exact ⟨_, (h.loosen (by decide)).congr fun r o => (one_mul _).symm⟩

end Factors

lemma bracketed_options (name : String) : name ++ Selector.bracketed [.bound optionsDimension] = name ++ "[OPTIONS]" :=
  congrArg (name ++ ·) (by decide)

lemma arealVariable_eq {config : Config} (hx : config.arealVariable = "X") (sel : Selector) :
    arealVariable config s sel.text = "X" ++ Selector.bracketed [.bound s.unitDimension, sel] := by
  rw [← String.toList_inj]
  simp [arealVariable, hx, Selector.bracketed, Selector.text, String.join]

lemma AreaSum.congr {dim text : String} {f : Formula} {a a' : List Cell → Nat → K} {b : List Cell → K}
    (h : AreaSum p dim column units owner text f a b) (ha : ∀ r o, a r o = a' r o) :
    AreaSum p dim column units owner text f a' b := by
  obtain rfl : a = a' := funext fun r => funext (ha r)
  exact h

lemma optionIndex?_lt {name : String} {o : Nat} (h : s.optionIndex? name = some o) : o < s.options.length :=
  (List.findIdx?_eq_some_iff_getElem.mp h).1

section Sums

variable {config : Config} (hx : config.arealVariable = "X") (hp : p.Models s.unitDimension column kind units)
  (hk : p.Knows s t qs) (harea : columnParameter areaParameter [s.areaField] ∈ qs)
include hx hp hk harea

lemma exists_areal (owner : String) {c : ArealConstraint} {i o : Nat} (ho : s.optionIndex? c.option = some o)
    (hzone : c.zone.isEmpty = false → zoneParameter s ("__zone_areal_" ++ toString i) c.zone ∈ qs) :
    ∃ f, AreaSum p s.unitDimension column units owner (arealText config s i c) f (s.arealFactor K t c)
    fun _ => (0 : K) := by
  have hlt : o < p.catalog.options.length := by
    rw [hk.options]
    exact optionIndex?_lt ho
  have hsel : (Selector.option o).OfOption := .position (Nat.lt_of_lt_of_le hlt hp.options)
  obtain ⟨f, hf⟩ := exists_measure (K := K) hp hk harea owner (.option o)
  obtain ⟨f', hf'⟩ := exists_zoned hp hk (hf.loosen (by decide)) hsel (isWord_numbered (by decide) i)
    (append_ne (by decide) _) (append_ne (by decide) _) hzone
  have hsum := (AreaTerm.ofFactor hp hsel hf').single hp hlt
  rw [← arealVariable_eq hx] at hsum
  have htext : optionText s c.option = (Selector.option o).text := by rw [optionText, ho]; rfl
  rw [arealText, htext]
  refine ⟨_, hsum.congr fun r o' => ?_⟩
  rw [Settings.arealFactor, ho]
  by_cases heq : o' = o
  · rw [if_pos heq, heq, if_pos rfl]
  · rw [if_neg heq, if_neg fun h => heq (Option.some.inj h).symm]

lemma exists_criterion (owner : String) {c : CriterionConstraint} {i : Nat} (hc : s.MatchesOptions c)
    (hfields : columnParameter ("__crifields_" ++ toString i) c.fields ∈ qs)
    (hzone : c.zone.isEmpty = false → zoneParameter s ("__zone_cricons_" ++ toString i) c.zone ∈ qs) :
    ∃ f, AreaSum p s.unitDimension column units owner (criterionText config s i c) f (s.criterionFactor K t c)
    fun _ => (0 : K) := by
  have hname : IsWord ("__crifields_" ++ toString i) = true := isWord_numbered (by decide) i
  have hq : p.settings.parameters.get? ("__crifields_" ++ toString i) =
      some (columnParameter ("__crifields_" ++ toString i) c.fields) := hk.parameters _ hfields
  have hindicator : IsWord ("__zone_cricons_" ++ toString i) = true := isWord_numbered (by decide) i
  unfold Settings.MatchesOptions at hc
  cases htotal : c.isTotal with
  | true =>
    rw [htotal, if_pos rfl, ← hk.options] at hc
    have hvalue : Factor p s.unitDimension column owner (.bound optionsDimension) .prim _ _ _ :=
      Factor.ofFields (K := K) hp hname (append_ne (by decide) _) (append_ne (by decide) _) .loop hc hq
    obtain ⟨f, hf⟩ := exists_sized hp hk harea hvalue
    obtain ⟨f', hf'⟩ := exists_zoned hp hk hf .loop hindicator (append_ne (by decide) _) (append_ne (by decide) _) hzone
    have hsum := (AreaTerm.ofFactor hp .loop hf').total hp
    rw [← arealVariable_eq hx, bracketed_options] at hsum
    rw [criterionText, htotal]
    refine ⟨_, hsum.congr fun r o => ?_⟩
    rw [Settings.criterionFactor, htotal, if_pos rfl, ← hk.table]
    rfl
  | false =>
    rw [htotal, if_neg Bool.false_ne_true] at hc
    obtain ⟨hoption, hlength⟩ := hc
    obtain ⟨o, ho⟩ := Option.isSome_iff_exists.mp hoption
    obtain ⟨field, hfield⟩ := List.length_eq_one_iff.mp hlength
    rw [hfield] at hq
    have hlt : o < p.catalog.options.length := by
      rw [hk.options]
      exact optionIndex?_lt ho
    have hsel : (Selector.option o).OfOption := .position (Nat.lt_of_lt_of_le hlt hp.options)
    have hvalue : Factor p s.unitDimension column owner (.option o) .prim _ _ _ :=
      Factor.ofColumn (K := K) hp hname (append_ne (by decide) _) (append_ne (by decide) _) hq
    obtain ⟨f, hf⟩ := exists_sized hp hk harea hvalue
    obtain ⟨f', hf'⟩ := exists_zoned hp hk hf hsel hindicator (append_ne (by decide) _) (append_ne (by decide) _) hzone
    have hsum := (AreaTerm.ofFactor hp hsel hf').single hp hlt
    have htext : optionText s c.option = (Selector.option o).text := by rw [optionText, ho]; rfl
    rw [← arealVariable_eq hx, ← htext] at hsum
    rw [criterionText, htotal]
    refine ⟨_, hsum.congr fun r o' => ?_⟩
    rw [Settings.criterionFactor, htotal, if_neg Bool.false_ne_true, ho, hfield, ← hk.table]
    by_cases heq : o' = o
    · rw [if_pos heq, heq, if_pos rfl]
      rfl
    · rw [if_neg heq, if_neg fun h => heq (Option.some.inj h).symm]

lemma exists_criterionSum (owner : String) {criterion : String} {fields : List String}
    (hfields : s.criteria.get? criterion = some fields) (hlength : fields.length = s.options.length)
    (hparameter : columnParameter (criterionParameter criterion) fields ∈ qs) :
    ∃ f, AreaSum p s.unitDimension column units owner (criterionSum config s criterion) f (s.worth K t criterion)
    fun _ => (0 : K) := by
  have hq : p.settings.parameters.get? (criterionParameter criterion) =
      some (columnParameter (criterionParameter criterion) fields) := hk.parameters _ hparameter
  rw [← hk.options] at hlength
  have hvalue : Factor p s.unitDimension column owner (.bound optionsDimension) .prim _ _ _ :=
    Factor.ofFields (K := K) hp (isWord_criterion criterion) (append_ne (by decide) _)
      (append_ne (by decide) _) .loop hlength hq
  rw [bracketed_options] at hvalue
  have hfactor : ∃ f, Factor p s.unitDimension column owner (.bound optionsDimension) .mul (match s.kind with
      | .real => criterionParameter criterion ++ "[OPTIONS]"
      | .int => "floor(" ++ (criterionParameter criterion ++ "[OPTIONS]") ++ ")"
      | .binary => "floor(" ++ (criterionParameter criterion ++ "[OPTIONS]") ++ ") * floor(" ++ areaParameter ++ ")") f
      (s.worth K t criterion) := by
    cases hkind : s.kind with
    | real =>
      refine ⟨_, (hvalue.loosen (by decide)).congr fun r o => ?_⟩
      simp only [Settings.worth, hkind, hfields, ← hk.table]
      rfl
    | int =>
      refine ⟨_, ((hvalue.loosen (by decide)).floor.loosen (by decide)).congr fun r o => ?_⟩
      simp only [Settings.worth, hkind, hfields, ← hk.table]
      rfl
    | binary =>
      have htext : "floor(" ++ (criterionParameter criterion ++ "[OPTIONS]") ++ ") * floor(" ++ areaParameter ++ ")" =
          "floor(" ++ (criterionParameter criterion ++ "[OPTIONS]") ++ ")" ++ " * " ++
          ("floor(" ++ areaParameter ++ ")") := by
        rw [← String.toList_inj]
        simp
      have hfloor := (hvalue.loosen (show Level.rel.rank ≤ Level.prim.rank by decide)).floor
      have harea := ((Factor.ofArea (K := K) hp hk harea owner (.bound optionsDimension)).loosen
        (show Level.rel.rank ≤ Level.prim.rank by decide)).floor
      dsimp only
      rw [htext]
      refine ⟨_, ((hfloor.loosen (by decide)).times (harea.loosen (by decide))).congr fun r o => ?_⟩
      simp only [Settings.worth, hkind, hfields, ← hk.table]
      rfl
  obtain ⟨f, hf⟩ := hfactor
  have hsum := (AreaTerm.ofFactor hp .loop hf).total hp
  rw [← arealVariable_eq hx] at hsum
  exact ⟨_, hsum⟩

end Sums

def Table.onlyAt (t : Table) (column : String) (r : List Cell) (a : List Cell → K) (r' : List Cell) : K :=
  if (t.valueAt column r').key = (t.valueAt column r).key then a r' else 0

structure UnitForm (p : Program) (dim column : String) (units : List (List Cell)) (owner text : String) (f : Formula)
    (a b : List Cell → K) : Prop where
  expresses : Expresses (p.context owner) .rel text f
  dimensions : f.dimensions? [] {} = some ⟨[dim], []⟩
  yields : ∀ {columns frame r}, r ∈ units → Frame.AtUnit p dim column columns r frame → Yields p columns frame f
    (p.areaForm column units (fun r' _ => p.catalog.table.onlyAt column r a r') (p.catalog.table.onlyAt column r b))

omit [LinearOrder K] [Functions K] in
lemma areaForm_onlyAt {dim : String} (h : p.catalog.Units dim column units) {r : List Cell} (hr : r ∈ units)
    (a b : List Cell → K)
    (x : List K) :
    p.areaForm column units (fun r' _ => p.catalog.table.onlyAt column r a r') (p.catalog.table.onlyAt column r b) x =
      ((List.range p.catalog.options.length).map fun o => a r * p.offsets.read x "X"
        (p.catalog.arealCells column r o)).sum +
        b r * p.offsets.read x "b" (p.catalog.binaryCells column r) := by
  unfold Program.areaForm
  rw [sum_map_single h.keys hr]
  · simp only [Table.onlyAt, if_true]
  · intro r' _ hne
    have hzero : ∀ c : List Cell → K, p.catalog.table.onlyAt column r c r' = 0 := fun c => if_neg hne
    simp only [hzero, zero_mul, List.map_const', List.sum_replicate, smul_zero, add_zero]

section Feature

variable {config : Config} (hp : p.Models s.unitDimension column kind units) (hk : p.Knows s t qs)
  (harea : columnParameter areaParameter [s.areaField] ∈ qs)
include hp hk harea

lemma exists_usedArea (owner : String) (sel : Selector) :
    ∃ f, Factor p s.unitDimension column owner sel .prim (if s.kind = .int then "floor(" ++ areaParameter ++ ")"
      else areaParameter) f
      fun r _ => s.usedArea K t r := by
  have hfactor : Factor p s.unitDimension column owner sel .prim areaParameter _ fun r _ => s.areaOf K t r :=
    Factor.ofArea hp hk harea owner sel
  unfold Settings.usedArea
  split
  · exact ⟨_, (hfactor.loosen (by decide)).floor⟩
  · exact ⟨_, hfactor⟩

lemma exists_measured (hx : config.arealVariable = "X") (owner : String) :
    ∃ f, AreaTerm p s.unitDimension column owner (.bound optionsDimension)
      (if s.kind = .binary then areaParameter ++ " * " ++ arealVariable config s optionsDimension
        else arealVariable config s optionsDimension) f fun r _ => s.measure K t r := by
  have htext : arealVariable config s optionsDimension =
      "X" ++ Selector.bracketed [.bound s.unitDimension, .bound optionsDimension] :=
    arealVariable_eq hx (.bound optionsDimension)
  rw [htext]
  unfold Settings.measure
  split
  · exact ⟨_, AreaTerm.ofFactor hp .loop ((Factor.ofArea hp hk harea owner _).loosen (by decide))⟩
  · exact ⟨_, AreaTerm.plain hp .loop⟩

lemma exists_feature (hx : config.arealVariable = "X") (hb : config.binaryVariable = "b") (hoptions : s.options ≠ [])
    (owner : String) :
    ∃ f, UnitForm p s.unitDimension column units owner (featureText config s) f (s.measure K t) fun r =>
    -s.usedArea K t r := by
  obtain ⟨f, hf⟩ := exists_measured (K := K) hp hk harea hx owner
  obtain ⟨g, hg⟩ := exists_usedArea (K := K) hp hk harea owner (.option 0)
  have hbinary : Expresses (p.context owner) .prim ("b" ++ Selector.bracketed [.bound s.unitDimension])
      (.reference "b" true [.bound s.unitDimension]) := by
    refine expresses_decision (by decide) ((hp.arities "b").trans ((if_neg (by decide)).trans (if_pos rfl)))
      (List.forall_mem_singleton.mpr ⟨hp.word, ?_⟩)
    exact hp.isDimension
  have hareas := expresses_loop (hf.expresses.loosen (by decide))
    (show (p.context owner).isDimension optionsDimension = true by simp [Parser.Context.isDimension]) (by decide)
  have htext : featureText config s = loopText optionsDimension
      (if s.kind = .binary then areaParameter ++ " * " ++ arealVariable config s optionsDimension
        else arealVariable config s optionsDimension) ++ " - " ++
      ((if s.kind = .int then "floor(" ++ areaParameter ++ ")" else areaParameter) ++ " * " ++
        ("b" ++ Selector.bracketed [.bound s.unitDimension])) := by
    rw [← String.toList_inj]
    cases hkind : s.kind <;> simp [featureText, hkind, hb, Selector.bracketed, Selector.text, String.join]
  refine ⟨.binary .minus (.loop .sum optionsDimension f)
    (.binary .times g (.reference "b" true [.bound s.unitDimension])), ?_, ?_, ?_⟩
  · rw [htext]
    exact ((hareas.loosen (by decide)).minus ((hg.expresses.loosen (by decide)).times
      (hbinary.loosen (by decide)))).loosen (by decide)
  · have hdim := hp.dim_ne
    have hselect : ({} : Dimensions).select [optionsDimension] (.bound s.unitDimension) = ⟨[s.unitDimension], []⟩ := by
      rw [Dimensions.select, if_neg (by simpa using hdim)]
      rfl
    have hagain : (⟨[s.unitDimension], []⟩ : Dimensions).select [] (.bound s.unitDimension) =
      ⟨[s.unitDimension], []⟩ := by
      rw [Dimensions.select, if_neg (by simp), Index.append, if_pos (by simp)]
    have hleft := hf.dimensions [optionsDimension] {} List.mem_cons_self
    have hright := hg.dimensions [] ⟨[s.unitDimension], []⟩ trivial
    change (f.dimensions? [optionsDimension] {}).bind _ = _
    rw [hleft, hselect, Option.bind_some, Formula.dimensions?, hright, Option.bind_some]
    exact congrArg some hagain
  · intro columns frame r hr hframe x v hv
    have hareas : Yields p columns frame (.loop .sum optionsDimension f) fun x =>
      ((List.range p.catalog.options.length).map fun o =>
        s.measure K t r * p.offsets.read x "X" (p.catalog.arealCells column r o)).sum := by
      refine Yields.options fun o ho => ?_
      obtain ⟨hunit, hselects⟩ := hframe.option hp.dim_ne o
      exact hf.yields hunit hselects ho
    have hpos : 0 < p.catalog.options.length := by
      rw [hk.options]
      exact List.length_pos_of_ne_nil hoptions
    have hused := hg.yields hframe rfl hpos
    have hbinary : Yields p columns frame (.reference "b" true [.bound s.unitDimension]) fun x : List K =>
        p.offsets.read x "b" (p.catalog.binaryCells column r) := Yields.variable (.cons hframe.unit .nil)
    have hvalue := (hareas.minus (hused.times hbinary)) x v hv
    dsimp only at hvalue
    rw [areaForm_onlyAt hp.catalog hr, hvalue, sub_eq_add_neg, ← neg_mul]

end Feature

end LandUse
