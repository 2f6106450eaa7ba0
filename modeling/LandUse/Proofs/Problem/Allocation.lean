import LandUse.Proofs.Problem.Equations

/-! The matrix of the land-use model: a column for every unit and option, and two rows for every unit. -/

namespace LandUse

open Exact Outcome Direct Grammar Model

variable {K : Type} [Field K] [LinearOrder K] [Functions K]

structure MatrixRow.Weighs (row : MatrixRow K) (label : String) (op : Comparison) (rhs : K)
    (units : List (List Cell)) (n : Nat)
    (a : List Cell → Nat → K) (b : List Cell → K) : Prop where
  name : row.name = label
  relation : op.rowRelation = .ok row.relation
  rhs : row.rhs = rhs
  coeffs : row.coeffs.Weigh units n a b

section Rows

variable {p : Program} {dim column : String} {kind : VariableKind} {units : List (List Cell)} {j : Job K}
  {entry : IndexEntry}
  {groups : List (List Binding × List Row)} {e : Expr} {rows : List (MatrixRow K)} {text : String}
  {op : Comparison} {rhs : K}

variable {b : List Cell → K}

lemma weighs_of_means (hlaid : p.Laid dim column kind units) (hkind : j.segment.kind = .constraint op rhs)
    {group : List Binding × List Row} {row : MatrixRow K} {a : List Cell → Nat → K}
    (h : row.Means p entry.columns j.segment j.equation e group)
    (hyields : Yields p entry.columns ⟨j.equation, group.1, group.2⟩ e.formula (p.areaForm column units a b)) :
    row.Weighs (j.segment.forGroup group.1).label op rhs units p.catalog.options.length a b := by
  obtain ⟨op', rhs', c, hkind', hrelation, hrhs, hmean⟩ := h.mean
  cases hkind.symm.trans hkind'
  obtain ⟨rfl, hweigh⟩ := hlaid.coefficients hmean hyields
  exact ⟨h.label, hrelation, by rw [hrhs, sub_zero], hweigh⟩

variable (hlaid : p.Laid dim column kind units) (hi : p.Indexed) (hrows : j.Rows p entry groups e rows)
  (hkind : j.segment.kind = .constraint op rhs)
include hlaid hi hrows hkind

lemma row_of_areaSum {a : List Cell → Nat → K} (hsum : AreaSum p dim column units j.equation text e.formula a b) :
    ∃ row, rows = [row] ∧ row.Weighs j.segment.label op rhs units p.catalog.options.length a b := by
  obtain ⟨⟨code, hgroups⟩, htree, hmeans⟩ := hrows
  obtain ⟨hentry, -, table, cs, hread, hcs, rfl⟩ := Program.groupsOf_eq_ok hgroups
  obtain ⟨hfree, -⟩ := hi.dimensions hentry htree hsum.dimensions
  rw [hfree] at hcs hmeans
  obtain rfl : cs = [] := (Except.ok.inj hcs).symm
  have hgroup : (Program.groupRows entry.columns [] table).map (fun rows =>
      (Program.groupBindings entry.columns (([] : List String).zip []) rows, rows)) = [([], table)] := by
    cases table <;> rfl
  rw [hgroup] at hmeans
  cases hmeans with
  | @cons _ row _ _ hrow hnil =>
    cases hnil
    refine ⟨row, rfl, weighs_of_means hlaid hkind hrow ?_⟩
    obtain ⟨-, -, c, -, -, -, hmean⟩ := hrow.mean
    have hcolumns := hsum.reads (hmean.evaluates (List.replicate p.offsets.keys.length 0) List.length_replicate)
    obtain ⟨selected, cs, hselected, hperm, rfl⟩ := Program.readRows_selected hread hcolumns
    obtain ⟨selected', hselected', rfl⟩ := hlaid.catalog.selected
    obtain rfl := Option.some.inj (hselected.symm.trans hselected')
    exact hsum.yields (hperm.trans (Table.sorted_perm _ _).symm)

lemma rows_of_unitForm (hs : p.Supplied) {a : List Cell → K}
    (hform : UnitForm p dim column units j.equation text e.formula a b) :
    List.Forall₂ (fun r row => row.Weighs (Segment.labelFor j.segment.label
      [(p.catalog.table.valueAt column r).toText]) op rhs units
      p.catalog.options.length (fun r' _ => p.catalog.table.onlyAt column r a r') (p.catalog.table.onlyAt column r b))
      units rows := by
  obtain ⟨⟨code, hgroups⟩, htree, hmeans⟩ := hrows
  obtain ⟨hentry, -, table, cs, hread, hcs, rfl⟩ := Program.groupsOf_eq_ok hgroups
  obtain ⟨hfree, hloops⟩ := hi.dimensions hentry htree hform.dimensions
  rw [List.filter_nil] at hloops
  have hdim : Program.columnsOf p.catalog [dim] = .ok [column] := by
    rw [Program.columnsOf, List.mapM_cons, hlaid.catalog.dimension]
    rfl
  have hcolumn : column ∈ entry.columns := by
    obtain ⟨hne, column', hget, hmem⟩ := (hi.covers hentry).sorted dim (by rw [hfree]; exact List.mem_cons_self)
    rw [← hs.columns] at hget
    cases (Program.resolve_eq hne hget).symm.trans hlaid.catalog.dimension
    exact hmem
  have htable : table = units.map (p.catalog.readColumns entry.columns) := by
    rw [Program.readRows, if_neg (by simpa using List.ne_nil_of_mem hcolumn), hfree, hloops, List.append_nil,
      hdim, ok_bind] at hread
    obtain ⟨selected, hselected, rfl⟩ := Table.select_eq_ok hread
    obtain ⟨selected', hselected', rfl⟩ := hlaid.catalog.selected
    cases hselected.symm.trans hselected'
    rfl
  rw [hfree] at hcs hmeans
  cases hdim.symm.trans hcs
  rw [htable, Program.groupRows, if_neg (by simp), hlaid.catalog.splitGroups_units hcolumn, List.map_map,
    List.forall₂_map_left_iff] at hmeans
  refine ((List.forall₂_and_left (p := (· ∈ units)) _ _).mpr ⟨fun _ h => h, hmeans⟩).imp fun r row hrow => ?_
  obtain ⟨hr, hmean⟩ := hrow
  have hbindings : Program.groupBindings entry.columns ([dim].zip [column]) [p.catalog.readColumns entry.columns r] =
      [⟨dim, some (p.catalog.valueAt column r)⟩] := by
    simp only [Program.groupBindings, List.zip_cons_cons, List.zip_nil_right, List.filterMap_cons, List.filterMap_nil,
      Catalog.Units.bind_valueAt hcolumn, Option.map_some]
  dsimp only [Function.comp_apply] at hmean
  rw [hbindings] at hmean
  exact weighs_of_means hlaid hkind hmean (hform.yields hr ⟨rfl, by simp [Frame.binding?]⟩)

end Rows

/-- Settings of the land-use model alone, and the rows of their units, which a column tells apart. -/
structure Allocation (config : Config) (s : Settings) (t : Table) (column : String) (rows : List (List Cell)) :
    Prop where
  areal : config.arealVariable = "X"
  binary : config.binaryVariable = "b"
  equations : s.equations = []
  decisions : s.decisions = []
  parameters : s.parameters = []
  classic : isClassic s = true
  criteria : (s.criteria.map fun c => criterionParameter c.1).Nodup
  word : IsWord s.unitDimension = true
  dimension : s.dimensions.get? s.unitDimension = some column
  options : s.options.length ≤ 2 ^ 53
  proper : t.Proper
  selected : t.selected? (selection config t "") = some rows
  keys : (rows.map fun r => (t.valueAt column r).key).Nodup

structure Build.Prepared (b : Build K) (config : Config) (s : Settings) (t : Table) (column : String)
    (units : List (List Cell))
    (bounds : List K) : Prop where
  areal : config.arealVariable = "X"
  binary : config.binaryVariable = "b"
  accepted : s.Accepted t.hasColumn
  indexed : b.program.Indexed
  supplied : b.program.Supplied
  models : b.program.Models s.unitDimension column s.kind units
  knows : b.program.Knows s t (allParameters config s bounds)
  declared : b.program.offsets.declared = decisions config s
  sources : b.program.settings.equations = Dict.ofList ((parts config s bounds).map fun q => (q.equation, q.text))
  parameters : b.program.settings.parameters = Dict.ofList ((allParameters config s bounds).map fun q => (q.name, q))
  converted : List.Forall₂ (fun c rhs => Area.convert config s t c.value c.unit c.option c.zone = .ok rhs)
    s.arealConstraints bounds
  jobs : b.jobs = (parts config s bounds).flatMap Model.Part.jobs

lemma Catalog.ne_options_of_make {t : Table} {columns : Dict String} {options : List String}
    {condition : String} {c : Catalog}
    (h : make t columns options condition = .ok c) {dim column : String} (hget : columns.get? dim = some column) :
    dim ≠ optionsDimension := by
  simp only [make, bind_eq_ok, pure_eq_ok, Except.ok.injEq] at h
  obtain ⟨⟨⟩, hcolumns, -⟩ := h
  have hdim := forM_eq_ok.mp hcolumns _ (Dict.mem_of_get? hget)
  rintro rfl
  cases hdim

namespace Allocation

variable {config : Config} {s : Settings} {t : Table} {column : String} {rows : List (List Cell)}
  (h : Allocation config s t column rows) {b : Build K}
include h

lemma unambiguous : Unambiguous s.criteria :=
  fun _ hx _ hy hname => congrArg Prod.snd (List.inj_on_of_nodup_map h.criteria hx hy hname)

lemma units {c : Catalog} (hc : c = ⟨t, s.dimensions, s.options, selection config t "", fnv1a⟩)
    (hdim : s.unitDimension ≠ optionsDimension) :
    c.Units s.unitDimension column (t.sortBy [column] rows) := by
  subst hc
  refine ⟨h.proper, ?_, ⟨rows, h.selected, rfl⟩, ?_⟩
  · unfold Catalog.resolve
    rw [if_neg fun heq => hdim (beq_iff_eq.mp heq)]
    dsimp only
    rw [h.dimension]
  · exact ((Table.sorted_perm _ _).map _).nodup_iff.mpr h.keys

lemma models {st : Settings} {memo : Catalog.Memo} {p : Program} (hst : st.decisions = Model.decisions config s ∧
      st.dimensions = s.dimensions ∧ st.options = s.options) (hp :
      Program.make st t (selection config t "") = .ok (p, memo)) :
    p.Models s.unitDimension column s.kind (t.sortBy [column] rows) := by
  obtain ⟨hdecisions, hdimensions, hoptions⟩ := hst
  obtain ⟨rfl, hcatalog⟩ := Program.make_catalog hp
  have hdim : s.unitDimension ≠ optionsDimension := by
    simp only [Program.make, bind_eq_ok] at hp
    obtain ⟨_, -, _, hc, -⟩ := hp
    exact Catalog.ne_options_of_make hc (hdimensions ▸ h.dimension)
  rw [hdimensions, hoptions] at hcatalog
  have hunits := h.units hcatalog hdim
  obtain ⟨-, hentries, hkeys⟩ := Offsets.make_offsets hp
  refine ⟨⟨hunits, ?_, ?_, hkeys⟩, h.word, ?_, fun name => ?_⟩
  · rw [hcatalog]
    exact h.options
  · rw [hentries, hdecisions, Model.decisions, Offsets.instances_units hunits rfl rfl rfl, h.areal, h.binary]
  · rw [hdimensions, Dict.contains, h.dimension]
    rfl
  · simp only [Settings.symbols, Settings.findVariable, hdecisions, Model.decisions, h.areal, h.binary]
    by_cases hx : name = "X"
    · subst hx
      rfl
    · by_cases hb : name = "b"
      · subst hb
        rfl
      · simp [hx, hb, Ne.symm hx, Ne.symm hb]

lemma prepared (hb : Build.prepare config s t = .ok b) :
    ∃ bounds, b.Prepared config s t column (t.sortBy [column] rows) bounds := by
  have hcheck : s.check t.hasColumn = .ok () := by
    unfold Build.prepare at hb
    split at hb
    · cases hb
    · assumption
  have haccepted := Settings.check_eq_ok.mp hcheck
  have hobjectives : s.equationObjectives = [] := List.eq_nil_iff_forall_not_mem.mpr fun o ho => by
    have := haccepted.equationObjectives o ho
    rw [h.equations] at this
    cases this
  have hconstraints : s.constraints = [] := List.eq_nil_iff_forall_not_mem.mpr fun c hc => by
    have := haccepted.constraints c hc
    rw [h.equations] at this
    cases this
  obtain ⟨model, hmodel, hjobs, hprogram⟩ := Build.prepare_model hb
  obtain ⟨bounds, hbounds, hparts, hsettings⟩ :=
    make_parts hmodel h.classic h.equations h.parameters h.decisions hobjectives hconstraints
  obtain ⟨hset, hcatalog⟩ := Program.make_catalog hprogram
  have hmodels := h.models (by rw [hsettings]; exact ⟨rfl, rfl, rfl⟩) hprogram
  refine ⟨bounds, h.areal, h.binary, haccepted, Program.make_indexed hprogram, Program.make_supplied hprogram,
    hmodels, ⟨fun q hq => ?_, ?_, ?_⟩, ?_, ?_,
    ?_, hbounds, hjobs.trans hparts⟩
  · rw [hset, hsettings]
    have hnodup := nodup_parameters config s bounds h.criteria
    exact (Dict.get?_ofList_eq_some (by rwa [List.map_map])).mpr (List.mem_map.mpr ⟨q, hq, rfl⟩)
  · rw [hcatalog, hsettings]
  · rw [hcatalog]
  · rw [(Offsets.make_offsets hprogram).1, hsettings]
  · rw [hset, hsettings]
  · rw [hset, hsettings]

end Allocation

section Lists

variable {β γ : Type} {P : β → γ → Prop}

lemma forall₂_flatten_singles {l : List β} {rowss : List (List γ)}
    (h : List.Forall₂ (fun b rows => ∃ row, rows = [row] ∧ P b row) l rowss) : List.Forall₂ P l rowss.flatten := by
  induction h with
  | nil => exact .nil
  | cons hrow _ ih =>
    obtain ⟨row, rfl, hrow⟩ := hrow
    exact .cons hrow ih

lemma exists_append_of_forall₂ {l l' : List β} {rs : List γ} (h : List.Forall₂ P (l ++ l') rs) :
    ∃ us vs, rs = us ++ vs ∧ List.Forall₂ P l us ∧ List.Forall₂ P l' vs := by
  induction l generalizing rs with
  | nil => exact ⟨[], rs, rfl, .nil, h⟩
  | cons b l ih =>
    cases h with
    | cons hb h =>
      obtain ⟨us, vs, rfl, hus, hvs⟩ := ih h
      exact ⟨_ :: us, vs, rfl, .cons hb hus, hvs⟩

end Lists

def Job.Generates (p : Program) (j : Job K) (rows : List (MatrixRow K)) : Prop :=
  ∃ entry groups e, j.Rows p entry groups e rows

namespace Settings

variable (s : Settings)

def goalWeight (g : Objective) : Float := if !s.interactive && g.weight != 0 then g.weight else 1

variable (K : Type) [Field K]

def goalShare (g : Objective) : K :=
  (if s.objectives.head?.map (·.sense) = some g.sense then 1 else -1) * (rational (s.goalWeight g) : K)

def goal [LinearOrder K] [Functions K] (t : Table) (r : List Cell) (o : Nat) : K :=
  (s.objectives.map fun g => s.goalShare K g * s.worth K t g.criterion r o).sum

end Settings

omit [LinearOrder K] [Functions K] in
lemma areaForm_sum {β : Type} (p : Program) (column : String) (units : List (List Cell)) (gs : List β) (w : β → K)
    (a : β → List Cell → Nat → K) (x : List K) :
    p.areaForm column units (fun r o => (gs.map fun g => w g * a g r o).sum) (fun _ => 0) x =
      (gs.map fun g => w g * p.areaForm column units (a g) (fun _ => 0) x).sum := by
  induction gs with
  | nil => simp [Program.areaForm]
  | cons g gs ih =>
    simp only [List.map_cons, List.sum_cons]
    rw [← ih]
    simp only [Program.areaForm, add_mul, mul_assoc, zero_mul, add_zero, List.sum_map_add, List.sum_map_mul_left]

namespace Build.Prepared

variable {config : Config} {s : Settings} {t : Table} {column : String} {units : List (List Cell)}
  {bounds : List K} {b : Build K}
  (hb : b.Prepared config s t column units bounds)
include hb

variable {q : Model.Part K} {rows : List (MatrixRow K)} {rowss : List (List (MatrixRow K))}

lemma formula_eq (hq : q ∈ parts config s bounds) {f : Formula}
    (hf : Expresses (b.program.context q.equation) .rel q.text f) {e : Expr}
    (he : b.program.trees.get? q.equation = some e) : e.formula = f := by
  have hnodup : (((parts config s bounds).map fun q => (q.equation, q.text)).map (·.1)).Nodup := by
    rw [List.map_map]
    exact nodup_equations config s bounds
  have hsource : b.program.settings.equations.get? q.equation = some q.text := by
    rw [hb.sources]
    exact (Dict.get?_ofList_eq_some hnodup).mpr (List.mem_map.mpr ⟨q, hq, rfl⟩)
  have hparse := (hb.indexed.get?_trees.mp he).2
  obtain ⟨e', hparse', hformula⟩ := parse_of_expresses hf
  simp only [parseNamed, hsource, hparse'] at hparse
  cases hparse
  exact hformula

lemma length_options : b.program.catalog.options.length = s.options.length := by rw [hb.knows.options]

lemma row_of_part (hq : q ∈ parts config s bounds) {segment : Segment K} {op : Comparison} {rhs : K}
    (hkind : segment.kind = .constraint op rhs) {f : Formula} {a : List Cell → Nat → K}
    (hf : AreaSum b.program s.unitDimension column units q.equation q.text f a fun _ => 0)
    (h : Job.Generates b.program ⟨q.equation, segment⟩ rows) :
    ∃ row, rows = [row] ∧ row.Weighs segment.label op rhs units s.options.length a fun _ => 0 := by
  obtain ⟨entry, groups, e, hrows⟩ := h
  obtain rfl := hb.formula_eq hq hf.expresses hrows.tree
  rw [← hb.length_options]
  exact row_of_areaSum hb.models.toLaid hb.indexed hrows hkind hf

lemma rows_of_family {β : Type} {cs : List β} {part : β × Nat → Model.Part K} {label : β → String}
    {op : β → Comparison} {rhs : β → K} {a : β → List Cell → Nat → K}
    (hparts : cs.zipIdx.map part ⊆ parts config s bounds)
    (hsegments : ∀ x, (part x).segments = [{ label := label x.1, kind := .constraint (op x.1) (rhs x.1) }])
    (hsums : ∀ x ∈ cs.zipIdx, ∃ f, AreaSum b.program s.unitDimension column units (part x).equation (part x).text
      f (a x.1) fun _ => 0)
    (h : List.Forall₂ (Job.Generates b.program) ((cs.zipIdx.map part).flatMap Model.Part.jobs) rowss) :
    List.Forall₂ (fun c row => row.Weighs (label c) (op c) (rhs c) units
      s.options.length (a c) fun _ => 0) cs rowss.flatten := by
  have hjobs : (cs.zipIdx.map part).flatMap Model.Part.jobs =
      cs.zipIdx.map fun x => ⟨(part x).equation, { label := label x.1, kind := .constraint (op x.1) (rhs x.1) }⟩ := by
    simp only [List.flatMap_map, Model.Part.jobs, hsegments, List.map_cons, List.map_nil]
    exact List.flatMap_pure_eq_map _ _
  rw [hjobs, List.forall₂_map_left_iff] at h
  have hrows := ((List.forall₂_and_left (p := (· ∈ cs.zipIdx)) _ _).mpr ⟨fun _ hx => hx, h⟩).imp
    fun x rows ⟨hx, hrows⟩ => by
    obtain ⟨f, hf⟩ := hsums x hx
    exact hb.row_of_part (hparts (List.mem_map_of_mem hx)) rfl hf hrows
  have hall := forall₂_flatten_singles hrows
  rw [← List.zipIdx_map_fst 0 cs, List.forall₂_map_left_iff]
  exact hall

omit hb in
lemma area_mem : columnParameter areaParameter [s.areaField] ∈ allParameters config s bounds :=
  List.mem_append_left _ List.mem_cons_self

omit hb in
lemma parameter_mem (hq : q ∈ parts config s bounds) {r : Parameter} (hr : r ∈ q.parameters) :
    r ∈ allParameters config s bounds := List.mem_append_right _ (List.mem_flatMap.mpr ⟨q, hq, hr⟩)

omit hb in
lemma zone_mem {name zone : String} {qs : List Parameter}
    (hqs : (if zone.isEmpty then [] else [zoneParameter s name zone]) ⊆ qs)
    (hzone : zone.isEmpty = false) : zoneParameter s name zone ∈ qs := by
  rw [hzone] at hqs
  exact hqs (List.mem_singleton_self _)

lemma exists_worth (owner : String) {criterion : String} (hcriterion : s.criteria.contains criterion = true) :
    ∃ f, AreaSum b.program s.unitDimension column units owner (criterionSum config s criterion) f
    (s.worth K t criterion)
      fun _ => (0 : K) := by
  obtain ⟨fields, hfields⟩ := Option.isSome_iff_exists.mp hcriterion
  have hmem := Dict.mem_of_get? hfields
  exact exists_criterionSum hb.areal hb.models hb.knows area_mem owner hfields (hb.accepted.criteria _ hmem).1
    (List.mem_append_left _ (List.mem_cons_of_mem _ (List.mem_map.mpr ⟨_, hmem, rfl⟩)))

lemma limit_rows
    (h : List.Forall₂ (Job.Generates b.program)
      ((if s.interactive then s.objectiveConstraints.zipIdx.map fun (c, i) => limitPart config s i c
        else []).flatMap Model.Part.jobs) rowss) :
    List.Forall₂ (fun c row => row.Weighs c.label c.op (rational c.value : K) units s.options.length
      (s.worth K t c.criterion) fun _ => 0)
      (if s.interactive then s.objectiveConstraints else []) rowss.flatten := by
  have hlimits : (if s.interactive then s.objectiveConstraints.zipIdx.map fun (c, i) =>
    limitPart config s i c else []) =
      (if s.interactive then s.objectiveConstraints else []).zipIdx.map fun (c, i) =>
      (limitPart config s i c : Model.Part K) := by
    split <;> rfl
  rw [hlimits] at h
  refine hb.rows_of_family ?_ (fun _ => rfl) (fun x hx => ?_) h
  · rw [← hlimits, parts]
    intro q hq
    simp only [List.mem_append]
    exact .inl (.inl (.inl (.inr hq)))
  · refine hb.exists_worth _ (hb.accepted.objectiveConstraints x.1 ?_)
    have hmem := List.fst_mem_of_mem_zipIdx hx
    split at hmem
    · exact hmem
    · cases hmem

lemma areal_rows
    (h : List.Forall₂ (Job.Generates b.program) (((s.arealConstraints.zip bounds).zipIdx.map fun ((c, rhs), i) =>
      arealPart config s i c rhs).flatMap Model.Part.jobs) rowss) :
    List.Forall₂ (fun c row => row.Weighs (if c.1.zone.isEmpty then c.1.label else c.1.label ++ "_in") c.1.op c.2
      units s.options.length
      (s.arealFactor K t c.1) fun _ => 0) (s.arealConstraints.zip bounds) rowss.flatten := by
  have hparts : ((s.arealConstraints.zip bounds).zipIdx.map fun ((c, rhs), i) => arealPart config s i c rhs) ⊆
    parts config s bounds := by
    intro q hq
    simp only [parts, List.mem_append]
    exact .inl (.inl (.inr hq))
  refine hb.rows_of_family hparts (fun _ => rfl) (fun x hx => ?_) h
  obtain ⟨o, ho⟩ := Option.isSome_iff_exists.mp (hb.accepted.arealConstraints x.1.1
    (List.of_mem_zip (List.fst_mem_of_mem_zipIdx hx)).1).1
  exact exists_areal hb.areal hb.models hb.knows area_mem _ ho
    (zone_mem fun r hr => parameter_mem (hparts (List.mem_map_of_mem hx)) hr)

lemma criterion_rows
    (h : List.Forall₂ (Job.Generates b.program)
      ((s.criteriaConstraints.zipIdx.map fun (c, i) => criterionPart config s i c).flatMap Model.Part.jobs) rowss) :
    List.Forall₂ (fun c row => row.Weighs c.label c.op (rational c.rhs : K) units s.options.length
      (s.criterionFactor K t c) fun _ => 0)
      s.criteriaConstraints rowss.flatten := by
  have hparts : (s.criteriaConstraints.zipIdx.map fun (c, i) => (criterionPart config s i c : Model.Part K)) ⊆
    parts config s bounds := by
    intro q hq
    simp only [parts, List.mem_append]
    exact .inl (.inr hq)
  refine hb.rows_of_family hparts (fun _ => rfl) (fun x hx => ?_) h
  have hparameters : (criterionPart config s x.2 x.1 : Model.Part K).parameters ⊆ allParameters config s bounds :=
    fun r hr =>
    parameter_mem (hparts (List.mem_map_of_mem hx)) hr
  exact exists_criterion hb.areal hb.models hb.knows area_mem _ (hb.accepted.criteriaConstraints x.1
    (List.fst_mem_of_mem_zipIdx hx)).1
    (hparameters List.mem_cons_self) (zone_mem fun r hr => hparameters (List.mem_cons_of_mem _ hr))

lemma feature_rows {label : String} {op : Comparison}
    (h : Job.Generates b.program ⟨"__feature", { label := label, kind := .constraint op Scalar.zero }⟩ rows) :
    List.Forall₂ (fun r row => row.Weighs (Segment.labelFor label [(t.valueAt column r).toText]) op (0 : K)
      units s.options.length (fun r' _ => t.onlyAt column r (s.measure K t) r')
      (t.onlyAt column r fun r => -s.usedArea K t r)) units rows := by
  obtain ⟨entry, groups, e, hrows⟩ := h
  obtain ⟨f, hf⟩ := exists_feature (K := K) hb.models hb.knows area_mem hb.areal hb.binary
    hb.accepted.options "__feature"
  have hmem : featurePart config s ∈ parts config s bounds := List.mem_append_right _ (List.mem_singleton_self _)
  obtain rfl := hb.formula_eq hmem hf.expresses hrows.tree
  have hall := rows_of_unitForm hb.models.toLaid hb.indexed hrows rfl hb.supplied hf
  rw [hb.length_options, hb.knows.table, zero_eq] at hall
  exact hall

lemma declaration_areal : b.program.offsets.declaration? "X" =
    some ⟨"X", [s.unitDimension, optionsDimension], 0, if s.kind = .binary then 1 else Number.infinity,
      true, s.kind⟩ := by
  simp [Offsets.declaration?, hb.declared, decisions, hb.areal]

lemma declaration_binary : b.program.offsets.declaration? "b" = some ⟨"b", [s.unitDimension], 0, 1, true, .binary⟩ := by
  simp [Offsets.declaration?, hb.declared, decisions, hb.areal, hb.binary]

lemma valueText_unit (v : Value) : VariableInstance.valueText (some s.unitDimension) (some v) = v.toText := by
  have hdim := hb.models.dim_ne
  simp [VariableInstance.valueText, hdim]

lemma valueText_option {o : Nat} (ho : o < s.options.length) :
    VariableInstance.valueText (some optionsDimension) (some (.int (Int64.ofNat o))) = toString (o + 1) := by
  have hlt : o < 2 ^ 53 := Nat.lt_of_lt_of_le (hb.length_options ▸ ho) hb.models.options
  have hint : (Int64.ofNat o + 1).toInt = ((o + 1 : Nat) : Int) := by
    rw [← Int64.toInt_ofNat_of_lt (n := o + 1) (by omega), Int64.ofNat_add]
    rfl
  simp only [VariableInstance.valueText, Cell.toInt, Value.toInt, beq_self_eq_true, if_true, hint]
  rfl

lemma column_areal (r : List Cell) {o : Nat} (ho : o < s.options.length) :
    b.column (Offsets.arealInstance b.program.catalog column "X" s.kind r o) =
      ⟨"X_" ++ (t.valueAt column r).toText ++ "_" ++ toString (o + 1), s.kind, 0, if s.kind = .binary then 1
        else Number.infinity⟩ := by
  have hname : "X" ++ VariableInstance.tupleText [s.unitDimension, optionsDimension]
      [some (b.program.catalog.valueAt column r), some (.int (Int64.ofNat o))] =
      "X_" ++ (t.valueAt column r).toText ++ "_" ++ toString (o + 1) := by
    rw [VariableInstance.tupleText, VariableInstance.tupleText, hb.valueText_unit, hb.valueText_option ho,
      VariableInstance.tupleText,
      ← hb.knows.table, ← String.toList_inj]
    simp [Catalog.valueAt, Table.valueAt]
  simp only [Build.column, Build.bounds, Offsets.nameOf, VariableInstance.nameOf, Offsets.dimensionsOf,
    Offsets.arealInstance,
    hb.declaration_areal, Option.map_some, Option.getD_some, List.map_cons, List.map_nil, hname,
    Build.boundsOf, if_true]

lemma column_binary (r : List Cell) :
    b.column (Offsets.binaryInstance b.program.catalog column "b" r) = ⟨"b_" ++ (t.valueAt column r).toText,
      .binary, 0, 1⟩ := by
  have hname : "b" ++ VariableInstance.tupleText [s.unitDimension] [some (b.program.catalog.valueAt column r)] =
      "b_" ++ (t.valueAt column r).toText := by
    rw [VariableInstance.tupleText, hb.valueText_unit, VariableInstance.tupleText, ← hb.knows.table,
      ← String.toList_inj]
    simp [Catalog.valueAt, Table.valueAt]
  simp only [Build.column, Build.bounds, Offsets.nameOf, VariableInstance.nameOf, Offsets.dimensionsOf,
    Offsets.binaryInstance,
    hb.declaration_binary, Option.map_some, Option.getD_some, List.map_cons, List.map_nil, hname,
    Build.boundsOf, if_true]

lemma columns_eq : b.program.offsets.entries.map b.column =
    (units.flatMap fun r => (List.range s.options.length).map fun o => ⟨"X_" ++ (t.valueAt column r).toText ++
      "_" ++ toString (o + 1),
      s.kind, 0, if s.kind = .binary then 1 else Number.infinity⟩) ++
    units.map fun r => ⟨"b_" ++ (t.valueAt column r).toText, .binary, 0, 1⟩ := by
  rw [hb.models.entries, Offsets.unitInstances, hb.length_options, List.map_append, List.map_map, List.map_flatMap]
  congr 1
  · refine List.flatMap_congr fun r _ => ?_
    rw [List.map_map]
    exact List.map_congr_left fun o ho => hb.column_areal r (List.mem_range.mp ho)
  · exact List.map_congr_left fun r _ => hb.column_binary r

section Goals

variable {g : Objective} {i : Nat} (hg : (g, i) ∈ s.objectives.zipIdx)
include hg

omit hb in
lemma goal_mem : goalPart config s i g ∈ parts config s bounds := by
  simp only [parts, List.mem_append]
  exact .inl (.inl (.inl (.inl (.inl (List.mem_map.mpr ⟨_, hg, rfl⟩)))))

lemma expresses_goal : Expresses (b.program.context "__objective") .prim ("__obj_" ++ toString i)
    (.equation ("__obj_" ++ toString i)) := by
  have hnodup : (((parts config s bounds).map fun q => (q.equation, q.text)).map (·.1)).Nodup := by
    rw [List.map_map]
    exact nodup_equations config s bounds
  refine expresses_equation (isWord_numbered (by decide) i) ?_ ?_ ?_
    (show _ ≠ "__objective" from append_ne (by decide) _)
  · exact (hb.models.arities _).trans ((if_neg (append_ne (by decide) _)).trans (if_neg (append_ne (by decide) _)))
  · have hnone : b.program.settings.parameters.get? ("__obj_" ++ toString i) = none := by
      rw [hb.parameters, Dict.get?_ofList_of_not_mem]
      rw [List.map_map]
      rintro hmem
      obtain ⟨q, hq, hname⟩ := List.mem_map.mp hmem
      obtain ⟨stem, hstem, rest, hrest⟩ := stem_of_parameter config s bounds hq
      have hstems : ∀ stem ∈ parameterStems, ¬ stem.toList <+: "__obj_".toList ∧
        ¬ "__obj_".toList <+: stem.toList := by decide
      exact append_ne_append (hstems stem hstem).1 (hstems stem hstem).2 _ _ (hrest.symm.trans hname)
    exact congrArg Option.isSome hnone
  · have hsome : b.program.settings.equations.get? ("__obj_" ++ toString i) =
      some (criterionSum config s g.criterion) := by
      rw [hb.sources]
      exact (Dict.get?_ofList_eq_some hnodup).mpr (List.mem_map.mpr ⟨_, goal_mem hg, rfl⟩)
    exact congrArg Option.isSome hsome

lemma exists_goal : ∃ f, AreaSum b.program s.unitDimension column units ("__obj_" ++ toString i)
    (criterionSum config s g.criterion) f
    (s.worth K t g.criterion) fun _ => (0 : K) :=
  hb.exists_worth _ (hb.accepted.objectives g (List.fst_mem_of_mem_zipIdx hg))

lemma yields_goal {columns : List String} {name : String} {cs : List (List Cell)} (hcs : cs.Perm units) :
    Yields b.program columns ⟨name, [], cs.map (b.program.catalog.readColumns columns)⟩
    (.equation ("__obj_" ++ toString i))
      (b.program.areaForm column units (s.worth K t g.criterion) fun _ => 0) := by
  intro x v hv
  cases hv with
  | equation he hv =>
    obtain ⟨f, hf⟩ := hb.exists_goal hg
    obtain rfl := hb.formula_eq (goal_mem hg) hf.expresses he
    exact hf.yields hcs x v hv

lemma reads_goal {columns : List String} {x : List K} {frame : Frame} {v : K}
    (hv : Evaluates b.program columns x frame (.equation ("__obj_" ++ toString i)) v) : columns ≠ [] := by
  cases hv with
  | equation he hv =>
    obtain ⟨f, hf⟩ := hb.exists_goal hg
    obtain rfl := hb.formula_eq (goal_mem hg) hf.expresses he
    exact hf.reads hv

end Goals

omit hb in
lemma criterionTerms_eq : criterionTerms s =
    s.objectives.zipIdx.map fun x => ⟨"__obj_" ++ toString x.2, x.1.sense, s.goalWeight x.1⟩ := rfl

section Objective

variable {first : ObjectiveTerm} {rest : List ObjectiveTerm} (hterms : criterionTerms s = first :: rest)
include hterms

omit hb in
lemma head_sense : s.objectives.head?.map (·.sense) = some first.sense := by
  have hhead := congrArg (·.head?.map (·.sense)) hterms
  rw [criterionTerms_eq] at hhead
  cases hobjectives : s.objectives with
  | nil =>
    rw [hobjectives] at hhead
    cases hhead
  | cons g gs =>
    rw [hobjectives] at hhead
    exact hhead

lemma sum_goals {columns : List String} {x : List K} {cs : List (List Cell)} (hcs : cs.Perm units) {us : List K}
    (hus : Valued b.program columns x ⟨"__objective", [], cs.map (b.program.catalog.readColumns columns)⟩
      (first :: rest) us) :
    (List.zipWith (fun o u => o.share K first.sense * u) (first :: rest) us).sum =
      b.program.areaForm column units (s.goal K t) (fun _ => 0) x := by
  have hvalues : us = s.objectives.zipIdx.map fun y => b.program.areaForm column units (s.worth K t y.1.criterion)
    (fun _ => 0) x := by
    rw [← hterms, criterionTerms_eq, Model.Valued, List.forall₂_map_left_iff] at hus
    have hgoals := ((List.forall₂_and_left (p := (· ∈ s.objectives.zipIdx)) _ _).mpr ⟨fun _ hy => hy, hus⟩).imp
      fun y u ⟨hy, hu⟩ => hb.yields_goal hy hcs x u hu
    clear hus
    generalize s.objectives.zipIdx = l at hgoals
    induction hgoals with
    | nil => rfl
    | cons hu _ ih => rw [List.map_cons, ← ih, hu]
  have hshare : ∀ y : Objective × Nat, ObjectiveTerm.share K ⟨"__obj_" ++ toString y.2, y.1.sense,
    s.goalWeight y.1⟩ first.sense =
      s.goalShare K y.1 := by
    intro y
    rw [ObjectiveTerm.share, Settings.goalShare, head_sense hterms]
    simp only [Option.some.injEq, eq_comm]
  unfold Settings.goal
  rw [areaForm_sum, hvalues, ← hterms, criterionTerms_eq, List.zipWith_map, List.zipWith_self]
  simp only [hshare]
  conv_rhs => rw [← List.zipIdx_map_fst 0 s.objectives, List.map_map]
  rfl

lemma objective_weighs {m : Matrix K} (hm : m.ObjectiveFrom b.program "__objective")
    (hfinite : ∀ g ∈ s.objectives, (s.goalWeight g).isFinite = true) :
    m.objective.Weigh units s.options.length (s.goal K t) fun _ => 0 := by
  obtain ⟨entry, rows, e, c, -, hrows, he, hmean⟩ := hm
  have hhead : headPart first rest ∈ parts config s bounds := by
    simp only [parts, List.mem_append, headParts, hterms]
    exact .inl (.inl (.inl (.inl (.inr (List.mem_singleton_self _)))))
  have hgoals : ∀ o ∈ first :: rest, ∃ y ∈ s.objectives.zipIdx, ⟨"__obj_" ++ toString y.2, y.1.sense,
    s.goalWeight y.1⟩ = o := by
    rw [← hterms, criterionTerms_eq]
    exact fun o ho => List.mem_map.mp ho
  have hweights : ∀ o ∈ first :: rest, o.weight.isFinite = true := by
    intro o ho
    obtain ⟨y, hy, rfl⟩ := hgoals o ho
    exact hfinite y.1 (List.fst_mem_of_mem_zipIdx hy)
  have hexpresses : Expresses (b.program.context "__objective") .rel (combinedText first rest)
    (combinedFormula first rest) := by
    refine expresses_combined fun o ho => ⟨hweights o ho, ?_⟩
    obtain ⟨y, hy, rfl⟩ := hgoals o ho
    exact hb.expresses_goal hy
  have hformula := hb.formula_eq hhead hexpresses he
  have hcolumns : entry.columns ≠ [] := by
    have hvalue := hmean.evaluates (List.replicate b.program.offsets.keys.length 0) List.length_replicate
    rw [hformula] at hvalue
    obtain ⟨us, hus, -⟩ := evaluates_combined hweights hvalue
    cases hus with
    | cons hu _ =>
      obtain ⟨y, hy, rfl⟩ := hgoals first List.mem_cons_self
      exact hb.reads_goal hy hu
  obtain ⟨selected, cs, hselected, hperm, rfl⟩ := Program.readRows_selected hrows hcolumns
  obtain ⟨selected', hselected', hunits⟩ := hb.models.catalog.selected
  obtain rfl := Option.some.inj (hselected.symm.trans hselected')
  have hcs : cs.Perm units := hunits ▸ hperm.trans (Table.sorted_perm _ _).symm
  rw [← hb.length_options]
  refine (hb.models.toLaid.coefficients hmean fun x v hv => ?_).2
  rw [hformula] at hv
  obtain ⟨us, hus, rfl⟩ := evaluates_combined hweights hv
  exact hb.sum_goals hterms hcs hus

end Objective

lemma converted_rows {a : ArealConstraint → List Cell → Nat → K} {label : ArealConstraint → String}
    (h : List.Forall₂ (fun c row => row.Weighs (label c.1) c.1.op c.2 units s.options.length (a c.1) fun _ => 0)
      (s.arealConstraints.zip bounds) rows) :
    List.Forall₂ (fun c row => ∃ rhs, Area.convert config s t c.value c.unit c.option c.zone = .ok rhs ∧
      row.Weighs (label c) c.op rhs units s.options.length (a c) fun _ => 0) s.arealConstraints rows := by
  have hconverted := hb.converted
  clear hb
  generalize s.arealConstraints = cs at h hconverted
  induction hconverted generalizing rows with
  | nil =>
    cases h
    exact .nil
  | cons hrhs _ ih =>
    cases h with
    | cons hrow h => exact .cons ⟨_, hrhs, hrow⟩ (ih h)

end Build.Prepared

lemma labelFor_feature (value ending : String) :
    Segment.labelFor ("Feature_%s" ++ ending) [value] = "Feature_" ++ value ++ ending := by
  have hsubstitute : Segment.substitute value.toList ("Feature_%s" ++ ending).toList =
      some ("Feature_".toList ++ (value.toList ++ ending.toList)) := by
    rw [String.toList_append]
    rfl
  simp only [Segment.labelFor, List.isEmpty_cons, String.intercalate_singleton, hsubstitute]
  rw [← String.toList_inj]
  simp

def Settings.FeatureRows (s : Settings) (t : Table) (column : String) (units : List (List Cell)) (ending : String)
    (op : Comparison) : List (MatrixRow K) → Prop :=
  List.Forall₂ (fun r row => row.Weighs ("Feature_" ++ (t.valueAt column r).toText ++ ending) op 0
    units s.options.length (fun r' _ => t.onlyAt column r (s.measure K t) r')
    (t.onlyAt column r fun r => -s.usedArea K t r)) units

structure Settings.AllocationRows (config : Config) (s : Settings) (t : Table) (column : String)
    (units : List (List Cell))
    (limits areal criteria lower upper : List (MatrixRow K)) : Prop where
  limits : List.Forall₂ (fun c row => row.Weighs c.label c.op (rational c.value : K) units s.options.length
    (s.worth K t c.criterion) fun _ => 0) (if s.interactive then s.objectiveConstraints else []) limits
  areal : List.Forall₂ (fun c row => ∃ rhs, Area.convert config s t c.value c.unit c.option c.zone = .ok rhs ∧
    row.Weighs (if c.zone.isEmpty then c.label else c.label ++ "_in") c.op rhs units s.options.length
      (s.arealFactor K t c) fun _ => 0) s.arealConstraints areal
  criteria : List.Forall₂ (fun c row => row.Weighs c.label c.op (rational c.rhs : K) units s.options.length
    (s.criterionFactor K t c) fun _ => 0) s.criteriaConstraints criteria
  lower : s.FeatureRows t column units "a" .ge lower
  upper : s.FeatureRows t column units "b" .le upper

structure Matrix.Allocates (m : Matrix K) (config : Config) (s : Settings) (t : Table) (column : String)
    (units : List (List Cell)) :
    Prop where
  columns : m.columns =
    (units.flatMap fun r => (List.range s.options.length).map fun o => ⟨"X_" ++ (t.valueAt column r).toText ++
      "_" ++ toString (o + 1),
      s.kind, 0, if s.kind = .binary then 1 else Number.infinity⟩) ++
    units.map fun r => ⟨"b_" ++ (t.valueAt column r).toText, .binary, 0, 1⟩
  objective : ∀ g ∈ s.objectives.head?, m.sense = g.sense ∧ ((∀ g ∈ s.objectives, (s.goalWeight g).isFinite = true) →
    m.objective.Weigh units s.options.length (s.goal K t) fun _ => 0)
  rows : ∃ limits areal criteria lower upper, m.rows = limits ++ areal ++ criteria ++ lower ++ upper ∧
    s.AllocationRows config t column units limits areal criteria lower upper

namespace Build.Prepared

variable {config : Config} {s : Settings} {t : Table} {column : String} {units : List (List Cell)}
  {bounds : List K} {b : Build K}
  (hb : b.Prepared config s t column units bounds)

def rowParts (config : Config) (s : Settings) (bounds : List K) : List (Model.Part K) :=
  (if s.interactive then s.objectiveConstraints.zipIdx.map fun (c, i) => limitPart config s i c else []) ++
    (s.arealConstraints.zip bounds).zipIdx.map (fun ((c, rhs), i) => arealPart config s i c rhs) ++
    s.criteriaConstraints.zipIdx.map (fun (c, i) => criterionPart config s i c) ++ [featurePart config s]

include hb in
lemma rows_allocate {rowss : List (List (MatrixRow K))}
    (h : List.Forall₂ (Job.Generates b.program) ((rowParts config s bounds).flatMap Model.Part.jobs) rowss) :
    ∃ limits areal criteria lower upper, rowss.flatten = limits ++ areal ++ criteria ++ lower ++ upper ∧
      s.AllocationRows config t column units limits areal criteria lower upper := by
  simp only [rowParts, List.flatMap_append] at h
  obtain ⟨_, features, rfl, h, hfeatures⟩ := exists_append_of_forall₂ h
  obtain ⟨_, criteria, rfl, h, hcriteria⟩ := exists_append_of_forall₂ h
  obtain ⟨limits, areal, rfl, hlimits, hareal⟩ := exists_append_of_forall₂ h
  cases hfeatures with
  | @cons _ lower _ _ hlower hfeatures =>
    cases hfeatures with
    | @cons _ upper _ _ hupper hnil =>
      cases hnil
      refine ⟨limits.flatten, areal.flatten, criteria.flatten, lower, upper, ?_, hb.limit_rows hlimits,
        hb.converted_rows (hb.areal_rows hareal), hb.criterion_rows hcriteria, ?_, ?_⟩
      · simp [List.append_assoc]
      · exact (hb.feature_rows hlower).imp fun r row hrow => labelFor_feature _ "a" ▸ hrow
      · exact (hb.feature_rows hupper).imp fun r row hrow => labelFor_feature _ "b" ▸ hrow

lemma isConstraint_rowParts : ∀ j ∈ (rowParts config s bounds).flatMap Model.Part.jobs,
    j.segment.kind.IsConstraint := by
  have hfamily : ∀ {β : Type} {l : List β} {part : β → Model.Part K},
    (∀ x, ∀ seg ∈ (part x).segments, seg.kind.IsConstraint) →
      ∀ j ∈ (l.map part).flatMap Model.Part.jobs, j.segment.kind.IsConstraint := by
    intro β l part hpart j hj
    obtain ⟨q, hq, hj⟩ := List.mem_flatMap.mp hj
    obtain ⟨x, -, rfl⟩ := List.mem_map.mp hq
    obtain ⟨seg, hseg, rfl⟩ := List.mem_map.mp hj
    exact hpart x seg hseg
  simp only [rowParts, List.flatMap_append, List.forall_mem_append]
  refine ⟨⟨⟨?_, hfamily fun x => ?_⟩, hfamily fun x => ?_⟩, ?_⟩
  · split
    · exact hfamily fun x => List.forall_mem_singleton.mpr ⟨_, _, rfl⟩
    · exact List.forall_mem_nil _
  · exact List.forall_mem_singleton.mpr ⟨_, _, rfl⟩
  · exact List.forall_mem_singleton.mpr ⟨_, _, rfl⟩
  · exact List.forall_mem_cons.mpr ⟨⟨_, _, rfl⟩, List.forall_mem_singleton.mpr ⟨_, _, rfl⟩⟩

def goalJob? (s : Settings) : Option (Job K) :=
  s.objectives.head?.map fun g => ⟨"__objective", { label := "objective", kind := .objective g.sense Scalar.one }⟩

lemma jobs_parts : (parts config s bounds).flatMap Model.Part.jobs =
    (goalJob? s).toList ++ (rowParts config s bounds).flatMap Model.Part.jobs := by
  have hgoals {f : Objective × Nat → Model.Part K} (hf : ∀ x, (f x).jobs = []) :
      (s.objectives.zipIdx.map f).flatMap Model.Part.jobs = [] := by
    rw [List.flatMap_map, List.flatMap_eq_nil_iff]
    exact fun x _ => hf x
  have hhead : (headParts s : List (Model.Part K)).flatMap Model.Part.jobs = (goalJob? s).toList := by
    unfold headParts goalJob?
    rw [criterionTerms_eq]
    cases s.objectives <;> rfl
  simp only [parts, rowParts, List.append_assoc, List.flatMap_append, hhead]
  rw [hgoals fun _ => rfl, List.nil_append]

end Build.Prepared

def zonedUnits : Settings where
  kind := .binary
  areaField := "area"
  unitDimension := "SDU"
  options := ["forest", "arable"]
  criteria := [("cost", ["c1", "c2"]), ("gain", ["g1", "g2"])]
  objectives := [⟨"cost", "cost", .minimize, 2⟩, ⟨"gain", "gain", .maximize, 1⟩]
  arealConstraints := [⟨"A1", "FOREST", "zone", .le, 5, .mapUnits⟩]
  criteriaConstraints := [⟨"C1", "cost", "total", "zone", ["c1", "c2"], .ge, 3⟩]
  dimensions := [("SDU", "nm_id")]

def mixedZones : Except Failure Table :=
  Table.create "units" [⟨"nm_id", .int⟩, ⟨"area", .double⟩, ⟨"c1", .double⟩, ⟨"c2", .double⟩, ⟨"g1", .double⟩,
      ⟨"g2", .double⟩, ⟨"zone", .text⟩]
    [[some (.int 7), some (.double 10), some (.double 5), some (.double 2), some (.double 1), some (.double 4),
        some (.text "arable land")],
      [some (.int 3), some (.double 20), some (.double 6), some (.double 3), some (.double 2), some (.double 8),
        some (.text "arable or forest")]]

end LandUse
