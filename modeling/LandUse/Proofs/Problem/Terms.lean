import LandUse.Proofs.Expansion.Free
import LandUse.Proofs.Problem.Areas
import LandUse.Proofs.Problem.Synthesis

/-! Factors, terms and their sums over options and units, as texts and as linear forms. -/

namespace LandUse

open Exact Outcome Direct Grammar Model

structure Program.Models (p : Program) (dim column : String) (kind : VariableKind) (units : List (List Cell)) : Prop
    extends p.Laid dim column kind units where
  word : IsWord dim = true
  dimension : p.settings.dimensions.contains dim = true
  arities : ∀ name, p.settings.symbols.variableArity? name = if name = "X" then some 2 else if name =
    "b" then some 1 else none

structure Frame.AtUnit (p : Program) (dim column : String) (columns : List String) (r : List Cell)
    (frame : Frame) : Prop where
  rows : frame.rows = [p.catalog.readColumns columns r]
  unit : frame.binding? dim = some (some (p.catalog.valueAt column r))

def Selector.Within (bound : List String) : Selector → Prop
  | .bound dim => dim ∈ bound
  | .option _ => True

def Program.context (p : Program) (owner : String) : Parser.Context := ⟨p.settings.symbols, owner, []⟩

variable {K : Type} [Field K] [LinearOrder K] [Functions K]

structure Factor (p : Program) (dim column owner : String) (sel : Selector) (l : Level) (text : String) (f : Formula)
    (value : List Cell → Nat → K) : Prop where
  expresses : Expresses (p.context owner) l text f
  dimensions : ∀ bound d, sel.Within bound → f.dimensions? bound d = some d
  yields : ∀ {columns frame r o}, Frame.AtUnit p dim column columns r frame →
    sel.Selects frame (some (.int (Int64.ofNat o))) →
    o < p.catalog.options.length → Yields p columns frame f fun _ => value r o

structure AreaTerm (p : Program) (dim column owner : String) (sel : Selector) (text : String) (f : Formula)
    (value : List Cell → Nat → K) : Prop where
  expresses : Expresses (p.context owner) .mul text f
  dimensions : ∀ bound d, sel.Within bound → f.dimensions? bound d = some (d.select bound (.bound dim))
  yields : ∀ {columns frame r o}, Frame.AtUnit p dim column columns r frame →
    sel.Selects frame (some (.int (Int64.ofNat o))) →
    o < p.catalog.options.length → Yields p columns frame f fun x =>
      value r o * p.offsets.read x "X" (p.catalog.arealCells column r o)

variable {p : Program} {dim column owner : String} {kind : VariableKind} {units : List (List Cell)}
  {sel : Selector} {l : Level}

inductive Selector.OfOption : Selector → Prop
  | loop : OfOption (.bound optionsDimension)
  | position {o : Nat} : o < 2 ^ 53 → OfOption (.option o)

omit [Field K] [LinearOrder K] [Functions K] in
lemma Selector.OfOption.isOption (h : sel.OfOption) : sel.isOption = true := by
  cases h <;> rfl

omit [Field K] [LinearOrder K] [Functions K] in
lemma Selector.OfOption.known (h : sel.OfOption) {c : Parser.Context} : Known c sel := by
  cases h with
  | loop => exact ⟨by decide, by simp [Parser.Context.isDimension]⟩
  | position ho => exact ho

omit [Field K] [LinearOrder K] [Functions K] in
lemma select_within {bound : List String} (h : sel.Within bound) (d : Dimensions) : d.select bound sel = d := by
  cases sel with
  | bound dim => exact if_pos (List.contains_iff_mem.2 h)
  | option => rfl

namespace Factor

variable {text text' : String} {f f' : Formula} {value value' : List Cell → Nat → K}

lemma loosen {l' : Level} (h : Factor p dim column owner sel l text f value) (hl : l'.rank ≤ l.rank) :
    Factor p dim column owner sel l' text f value := ⟨h.expresses.loosen hl, h.dimensions, h.yields⟩

lemma one : Factor p dim column owner sel .prim "1" (.number (Number.ofDecimal false 1 0)) fun _ _ => (1 : K) where
  expresses := expresses_number (spelled_index 1)
  dimensions _ _ _ := rfl
  yields {columns frame _ _} _ _ _ := by
    have hone : rational (Number.ofDecimal false 1 0) = 1 := by decide +kernel
    have h : Yields p columns frame _ fun _ => (rational (Number.ofDecimal false 1 0) : K) := Yields.number _
    rwa [hone, Rat.cast_one] at h

lemma floor (h : Factor p dim column owner sel .rel text f value) :
    Factor p dim column owner sel .prim ("floor(" ++ text ++ ")") (.call .floor [f]) fun r o =>
    Functions.floor (value r o) where
  expresses := h.expresses.call .floor rfl
  dimensions bound d hd := by
    rw [Formula.dimensions?, argumentDimensions?, h.dimensions bound d hd]
    rfl
  yields hframe hsel ho := (h.yields hframe hsel ho).floor

lemma times (h : Factor p dim column owner sel .mul text f value)
    (h' : Factor p dim column owner sel .pow text' f' value') :
    Factor p dim column owner sel .mul (text ++ " * " ++ text') (.binary .times f f') fun r o =>
    value r o * value' r o where
  expresses := h.expresses.times h'.expresses
  dimensions bound d hd := by
    rw [Formula.dimensions?, h.dimensions bound d hd]
    exact h'.dimensions bound d hd
  yields hframe hsel ho := (h.yields hframe hsel ho).times (h'.yields hframe hsel ho)

section Parameters

variable (hp : p.Models dim column kind units) {name : String} (hname : IsWord name = true)
  (hx : name ≠ "X") (hb : name ≠ "b")
include hp hname hx hb

omit [LinearOrder K] [Functions K] [Field K] in
lemma expresses_reference {subs : List Selector} (hsubs : ∀ sub ∈ subs, Known (p.context owner) sub) {q : Parameter}
    (hq : p.settings.parameters.get? name = some q) :
    Expresses (p.context owner) .prim (name ++ Selector.bracketed subs) (.reference name false subs) := by
  refine expresses_parameter hname ?_ ?_ hsubs
  · exact (hp.arities name).trans (by rw [if_neg hx, if_neg hb])
  · change p.settings.parameters.contains name = true
    rw [Dict.contains, hq]
    rfl

lemma ofColumn {field : String} (hq : p.settings.parameters.get? name = some (columnParameter name [field])) :
    Factor p dim column owner sel .prim name (.reference name false []) fun r _ => p.catalog.numberAt K field r where
  expresses := by
    have h : Expresses (p.context owner) .prim (name ++ Selector.bracketed []) _ :=
      expresses_reference hp hname hx hb (List.forall_mem_nil _) hq
    rwa [Selector.bracketed, List.map_nil, String.join_nil, String.append_empty] at h
  dimensions _ _ _ := rfl
  yields hframe _ _ := Yields.column hframe.rows .nil hq

lemma ofFields (hsel : sel.OfOption) {fields : List String} (hfields : fields.length = p.catalog.options.length)
    (hq : p.settings.parameters.get? name = some (columnParameter name fields)) :
    Factor p dim column owner sel .prim (name ++ Selector.bracketed [sel]) (.reference name false [sel])
      fun r o => p.catalog.numberAt K (fields.getD o "") r where
  expresses := expresses_reference hp hname hx hb (List.forall_mem_singleton.2 hsel.known) hq
  dimensions bound d hd := congrArg some (select_within hd d)
  yields hframe hselects ho := by
    have hlt := Nat.lt_of_lt_of_le ho hp.options
    refine Yields.field hframe.rows hsel.isOption hlt hselects hq ?_
    rw [← hfields] at ho
    rw [List.getElem?_eq_getElem ho, List.getD_eq_getElem _ _ ho]

lemma ofZone (hsel : sel.OfOption) {s : Settings} (hoptions : p.catalog.options = s.options) {zone : String}
    (hq : p.settings.parameters.get? name = some (zoneParameter s name zone)) :
    Factor p dim column owner sel .prim (name ++ Selector.bracketed [sel]) (.reference name false [sel])
      fun r o => if Text.contains (p.catalog.valueAt zone r).toText (s.options.getD o "") then (1 : K) else 0 where
  expresses := expresses_reference hp hname hx hb (List.forall_mem_singleton.2 hsel.known) hq
  dimensions bound d hd := congrArg some (select_within hd d)
  yields hframe hselects ho := by
    have hlt := Nat.lt_of_lt_of_le ho hp.options
    refine Yields.indicator hframe.rows hsel.isOption hlt hselects hq ?_
    rw [hoptions] at ho
    rw [List.getElem?_eq_getElem ho, List.getD_eq_getElem _ _ ho]

end Parameters

end Factor

lemma expresses_areal (hp : p.Models dim column kind units) (hsel : sel.OfOption) :
    Expresses (p.context owner) .prim ("X" ++ Selector.bracketed [.bound dim, sel])
    (.reference "X" true [.bound dim, sel]) := by
  refine expresses_decision (by decide) ((hp.arities "X").trans (if_pos rfl)) ?_
  refine List.forall_mem_cons.2 ⟨⟨hp.word, ?_⟩, List.forall_mem_singleton.2 hsel.known⟩
  rw [Parser.Context.isDimension, Bool.or_eq_true]
  exact .inr hp.dimension

omit [LinearOrder K] [Functions K] [Field K] in
lemma dimensions_areal {bound : List String} (hd : sel.Within bound) (d : Dimensions) :
    (Formula.reference "X" true [.bound dim, sel]).dimensions? bound d = some (d.select bound (.bound dim)) :=
  congrArg some (select_within hd _)

lemma yields_areal {columns : List String} {frame : Frame} {r : List Cell} {o : Nat}
    (hframe : Frame.AtUnit p dim column columns r frame) (hselects : sel.Selects frame (some (.int (Int64.ofNat o)))) :
    Yields p columns frame (.reference "X" true [.bound dim, sel]) fun x : List K =>
      p.offsets.read x "X" (p.catalog.arealCells column r o) :=
  Yields.variable (.cons hframe.unit (.cons hselects .nil))

namespace AreaTerm

variable {text : String} {f : Formula} {value : List Cell → Nat → K}

lemma plain (hp : p.Models dim column kind units) (hsel : sel.OfOption) :
    AreaTerm p dim column owner sel ("X" ++ Selector.bracketed [.bound dim, sel])
    (.reference "X" true [.bound dim, sel])
      fun _ _ => (1 : K) where
  expresses := (expresses_areal hp hsel).loosen (by decide)
  dimensions _ d hd := dimensions_areal hd d
  yields hframe hselects _ := by
    simp only [one_mul]
    exact yields_areal hframe hselects

lemma ofFactor (hp : p.Models dim column kind units) (hsel : sel.OfOption)
    (h : Factor p dim column owner sel .mul text f value) :
    AreaTerm p dim column owner sel (text ++ " * " ++ ("X" ++ Selector.bracketed [.bound dim, sel]))
      (.binary .times f (.reference "X" true [.bound dim, sel])) value where
  expresses := h.expresses.times ((expresses_areal hp hsel).loosen (by decide))
  dimensions bound d hd := by
    rw [Formula.dimensions?, h.dimensions bound d hd]
    exact dimensions_areal hd d
  yields hframe hselects ho := (h.yields hframe hselects ho).times (yields_areal hframe hselects)

end AreaTerm

structure AreaSum (p : Program) (dim column : String) (units : List (List Cell)) (owner text : String) (f : Formula)
    (a : List Cell → Nat → K) (b : List Cell → K) : Prop where
  expresses : Expresses (p.context owner) .rel text f
  dimensions : f.dimensions? [] {} = some ⟨[], [dim]⟩
  reads : ∀ {columns x frame v}, Evaluates (K := K) p columns x frame f v → columns ≠ []
  yields : ∀ {columns name} {cs : List (List Cell)}, cs.Perm units →
    Yields p columns ⟨name, [], cs.map (p.catalog.readColumns columns)⟩ f
    (p.areaForm column units a b)

section Sums

omit [LinearOrder K] [Functions K] [Field K] in
lemma atUnit_within (frame : Frame) (columns : List String) (r : List Cell) :
    Frame.AtUnit p dim column columns r (within frame dim ⟨p.catalog.valueAt column r,
      [p.catalog.readColumns columns r]⟩) :=
  ⟨rfl, by rw [within, Frame.binding?_bind, if_pos rfl]⟩

omit [LinearOrder K] [Functions K] [Field K] in
lemma Frame.AtUnit.option {columns : List String} {r : List Cell} {frame : Frame}
    (h : Frame.AtUnit p dim column columns r frame)
    (hdim : dim ≠ optionsDimension) (o : Nat) :
    Frame.AtUnit p dim column columns r (within frame optionsDimension ⟨.int (Int64.ofNat o), frame.rows⟩) ∧
      (Selector.bound optionsDimension).Selects (within frame optionsDimension ⟨.int (Int64.ofNat o), frame.rows⟩)
        (some (.int (Int64.ofNat o))) := by
  refine ⟨⟨h.rows, ?_⟩, ?_⟩
  · rw [within, Frame.binding?_bind, if_neg hdim]
    exact h.unit
  · rw [Selector.Selects, within, Frame.binding?_bind, if_pos rfl]

lemma reads_loop {dim : String} (hdim : dim ≠ optionsDimension) {columns : List String} {x : List K}
    {frame : Frame} {f : Formula}
    {v : K} (h : Evaluates p columns x frame (.loop .sum dim f) v) : columns ≠ [] := by
  have hits : ∃ its, Iterates p columns frame dim its := by
    cases h with
    | empty h | loop h => exact ⟨_, h⟩
  obtain ⟨its, hits⟩ := hits
  rcases iterates_cases hits with ⟨hoptions, -⟩ | ⟨column, i, -, hi, -⟩
  · exact absurd hoptions hdim
  · rintro rfl
    cases hi

omit [LinearOrder K] [Functions K] [Field K] in
lemma Program.Models.dim_ne (hp : p.Models dim column kind units) : dim ≠ optionsDimension := by
  rintro rfl
  have h := hp.catalog.dimension
  rw [Catalog.resolve, if_pos (beq_self_eq_true _)] at h
  cases h

variable {text : String} {f : Formula} {value : List Cell → Nat → K}

lemma expresses_loop {c : Parser.Context} {d : String} (h : Expresses c .rel text f) (hdim : c.isDimension d = true)
    (hword : IsWord d = true) : Expresses c .prim (loopText d text) (.loop .sum d f) := by
  have htext : loopText d text = Keyword.sum.name ++ "\x7b" ++ d ++ "\x7d(" ++ text ++ ")" := by
    rw [loopText, show "sum\x7b" = Keyword.sum.name ++ "\x7b" by decide]
  rw [htext]
  exact h.loop .sum hdim hword

omit [LinearOrder K] [Functions K] [Field K] in
lemma Program.Models.isDimension (hp : p.Models dim column kind units) : (p.context owner).isDimension dim = true := by
  rw [Parser.Context.isDimension, Bool.or_eq_true]
  exact .inr hp.dimension

omit [LinearOrder K] [Functions K] [Field K] in
lemma dimensions_enter (hdim : dim ≠ optionsDimension) :
    (({} : Dimensions).enter dim).select [dim] (.bound dim) = ⟨[], [dim]⟩ := by
  rw [Dimensions.enter, if_neg hdim, Dimensions.select, if_pos (by simp)]
  rfl

lemma yields_units (hp : p.Models dim column kind units) {columns : List String} {name : String} {cs : List (List Cell)}
    (hperm : cs.Perm units) {L : List Cell → List K → K} {a : List Cell → Nat → K} {b : List Cell → K}
    (h : ∀ {frame r}, Frame.AtUnit p dim column columns r frame → Yields p columns frame f (L r))
    (hform : ∀ x, ∀ r ∈ units, L r x = ((List.range p.catalog.options.length).map fun o =>
      a r o * p.offsets.read x "X" (p.catalog.arealCells column r o)).sum + b r * p.offsets.read x "b"
        (p.catalog.binaryCells column r)) :
    Yields p columns ⟨name, [], cs.map (p.catalog.readColumns columns)⟩ (.loop .sum dim f)
    (p.areaForm column units a b) := by
  intro x v hv
  have hkeys : (cs.map fun c => (p.catalog.valueAt column c).key).Nodup := (hperm.map _).nodup_iff.2 hp.catalog.keys
  have hsum := Yields.rows hp.catalog.dimension rfl hkeys (fun r _ => h (atUnit_within _ columns r)) x v hv
  dsimp only at hsum
  rw [hsum, (hperm.map _).sum_eq]
  exact congrArg List.sum (List.map_congr_left (hform x))

lemma AreaTerm.single (hp : p.Models dim column kind units) {o : Nat} (ho : o < p.catalog.options.length)
    (h : AreaTerm p dim column owner (.option o) text f value) :
    AreaSum p dim column units owner (loopText dim text) (.loop .sum dim f) (fun r o' => if o' = o then value r o
      else 0) fun _ => 0 where
  expresses := (expresses_loop (h.expresses.loosen (by decide)) hp.isDimension hp.word).loosen (by decide)
  dimensions := (h.dimensions _ _ trivial).trans (congrArg some (dimensions_enter hp.dim_ne))
  reads := reads_loop hp.dim_ne
  yields hperm := by
    refine yields_units hp hperm (fun hframe => h.yields hframe rfl ho) fun x r _ => ?_
    rw [zero_mul, add_zero, sum_map_single (k := id) (by simpa using List.nodup_range) (List.mem_range.2 ho),
      if_pos rfl]
    intro o' _ hne
    rw [if_neg (by exact hne), zero_mul]

lemma AreaTerm.total (hp : p.Models dim column kind units)
    (h : AreaTerm p dim column owner (.bound optionsDimension) text f value) :
    AreaSum p dim column units owner (loopText dim (loopText optionsDimension text))
    (.loop .sum dim (.loop .sum optionsDimension f))
      value fun _ => 0 where
  expresses := by
    have hinner := expresses_loop (h.expresses.loosen (by decide)) (show (p.context owner).isDimension
      optionsDimension = true by
      simp [Parser.Context.isDimension]) (by decide)
    exact (expresses_loop (hinner.loosen (by decide)) hp.isDimension hp.word).loosen (by decide)
  dimensions := by
    have hterm := h.dimensions [dim, optionsDimension] (({} : Dimensions).enter dim) (by simp [Selector.Within])
    have hselect : (({} : Dimensions).enter dim).select [dim, optionsDimension] (.bound dim) = ⟨[], [dim]⟩ := by
      rw [Dimensions.enter, if_neg hp.dim_ne, Dimensions.select, if_pos (by simp)]
      rfl
    rw [hselect] at hterm
    exact hterm
  reads := reads_loop hp.dim_ne
  yields hperm := by
    refine yields_units hp hperm (L := fun r x => ((List.range p.catalog.options.length).map fun o =>
      value r o * p.offsets.read x "X" (p.catalog.arealCells column r o)).sum) (fun hframe => ?_) fun x r _ => ?_
    · refine Yields.options fun o ho => ?_
      obtain ⟨hunit, hselects⟩ := hframe.option hp.dim_ne o
      exact h.yields hunit hselects ho
    · rw [zero_mul, add_zero]

end Sums

end LandUse
