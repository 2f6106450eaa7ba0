import LandUse.Proofs.Expansion.Matching

/-! Lengths after any sequence of look-ups, also failing ones. -/

namespace LandUse

open Outcome

namespace Catalog

inductive Reached (c : Catalog) : Memo → Prop
  | start : Reached c {}
  | length (dim : String) {m : Memo} : Reached c m → Reached c (result (c.length dim) m).2
  | values (dim : String) {m : Memo} : Reached c m → Reached c (result (c.values dim) m).2
  | conditionalLength (dim : String) (outer : List Binding) {m : Memo} :
      Reached c m → Reached c (result (c.conditionalLength dim outer) m).2

structure Remembers (c : Catalog) (rows : List (List Cell)) (m : Memo) : Prop where
  counting : c.TruthfulOn rows m
  values : ∀ dim vs, m.values.get? dim = some vs → c.OfTable dim →
    c.table.distinctValues (c.columnOf dim) c.condition = .ok vs

variable {c : Catalog} {rows : List (List Cell)} {m : Memo} {dim : String}

lemma TruthfulOn.of_counting {m' : Memo} (hm : c.TruthfulOn rows m) (h : m'.counting = m.counting) :
    c.TruthfulOn rows m' := by
  obtain ⟨hlengths, h⟩ := Prod.mk.inj h
  obtain ⟨hlevels, hcounts⟩ := Prod.mk.inj h
  exact ⟨hlengths ▸ hm.lengths, hlevels ▸ hcounts ▸ hm.counts, hlevels ▸ hcounts ▸ hm.origin⟩

/-! ### Lengths are remembered apart from values -/

lemma values_length (c : Catalog) (dim : String) (m : Memo) : (result (c.length dim) m).2.values = m.values := by
  unfold length
  cases c.resolve dim with
  | error f => rfl
  | ok d =>
    rw [result_bind, result_liftM, proceed_ok]
    obtain ⟨name, column?⟩ := d
    cases column? with
    | none => rfl
    | some column =>
      dsimp only
      rw [result_bind, result_get, proceed_ok]
      cases m.lengths.get? dim with
      | some n => rfl
      | none =>
        dsimp only
        rw [result_bind, result_liftM]
        cases c.table.countDistinct column c.condition <;> rfl

lemma values_loadLevel (c : Catalog) (dim column : String) (bound : List Binding) (m : Memo) :
    (result (c.loadLevel dim column bound) m).2.values = m.values := by
  unfold loadLevel
  rw [result_bind, result_get, proceed_ok]
  dsimp only
  split_ifs
  · rw [result_bind, result_liftM]
    cases c.table.groupCounts (bound.map fun b => c.columnOf b.dim) column c.condition <;> rfl
  · rfl

lemma values_cascade (c : Catalog) (dim column : String) (outer inner : List Binding) (m : Memo) :
    (result (c.cascade dim column outer inner) m).2.values = m.values := by
  induction inner generalizing outer m with
  | nil => rfl
  | cons b inner ih =>
    have hload := c.values_loadLevel dim column (outer ++ [b]) m
    unfold cascade
    rw [result_bind]
    rcases hr : result (c.loadLevel dim column (outer ++ [b])) m with ⟨f | u, m₁⟩
    · rw [hr] at hload
      exact hload
    · rw [hr] at hload
      rw [proceed_ok, result_bind, result_get, proceed_ok]
      split
      · exact hload
      · exact hload
      · split_ifs
        · exact hload
        · exact (ih _ _).trans hload

lemma values_conditionalLength (c : Catalog) (dim : String) (outer : List Binding) (m : Memo) :
    (result (c.conditionalLength dim outer) m).2.values = m.values := by
  unfold conditionalLength
  rw [result_bind, result_liftM]
  cases c.resolve dim with
  | error f => rfl
  | ok d =>
    rw [proceed_ok]
    split
    · rfl
    · rw [result_bind, result_liftM]
      cases c.restricting dim outer with
      | error f => rfl
      | ok bound =>
        rw [proceed_ok]
        split
        · rfl
        · exact c.values_length dim m
        · exact c.values_cascade ..

/-! ### Look-ups keep what is remembered true -/

lemma plain_of_resolve (hnames : ∀ x ∈ c.columns, PlainName x.1) (h : ∃ d, c.resolve dim = .ok d) :
    PlainName dim := by
  obtain ⟨d, h⟩ := h
  unfold resolve at h
  split_ifs at h with hdim
  · rw [beq_iff_eq.1 hdim]
    exact Program.plain_options
  · split at h
    · rename_i hget
      exact hnames _ (Dict.mem_of_get? hget)
    · cases h

lemma restricting_of_unknown {outer : List Binding} (h : ∃ b ∈ outer, ∀ d, c.resolve b.dim ≠ .ok d) :
    (∃ f, c.restricting dim outer = .error f) ∨ c.restricting dim outer = .ok none := by
  induction outer with
  | nil => simp at h
  | cons b outer ih =>
    rw [restricting]
    cases hb : c.resolve b.dim with
    | error f => exact .inl ⟨f, rfl⟩
    | ok d =>
      rw [ok_bind]
      by_cases hdim : (b.dim == dim) = true
      · rw [if_pos hdim]
        exact .inr rfl
      · rw [if_neg hdim]
        obtain ⟨b', hb', hunknown⟩ := h
        rcases List.mem_cons.1 hb' with rfl | hb'
        · exact absurd hb (hunknown d)
        rcases ih ⟨b', hb', hunknown⟩ with ⟨f, hf⟩ | hnone
        · exact .inl ⟨f, by rw [hf]; rfl⟩
        · refine .inr ?_
          rw [hnone, ok_bind]
          split_ifs <;> rfl

lemma OfTable.ne_options (h : c.OfTable dim) : dim ≠ optionsDimension := by
  rintro rfl
  simp [OfTable, column?] at h

lemma ofTable_of_resolve (hdim : dim ≠ optionsDimension) (h : ∃ d, c.resolve dim = .ok d) : c.OfTable dim := by
  obtain ⟨d, h⟩ := h
  unfold resolve at h
  rw [if_neg fun h => hdim (beq_iff_eq.1 h)] at h
  split at h
  · rename_i hget
    exact (ofTable_of_get? hdim hget).1
  · cases h

/-- Options are counted, a bound dimension has one value, any other as many as the rows with the bound values. -/
def lengthUnder (c : Catalog) (rows : List (List Cell)) (dim : String) (outer : List Binding) : Nat :=
  if dim = optionsDimension then c.options.length
  else if dim ∈ outer.map (·.dim) then 1
  else c.found rows dim outer

lemma visible_key {b : Binding} (h : ∀ s, b.value = some (.text s) → Number.Visible s) :
    Number.Visible b.value.key := by
  cases hb : b.value with
  | none => decide
  | some v => exact Value.visible_key fun s hs => h s (hb.trans (congrArg some hs))

section Permuted

variable {outer outer' : List Binding} (h : (outer'.filter fun b => b.dim != optionsDimension).Perm
  (outer.filter fun b => b.dim != optionsDimension))
include h

lemma mem_of_perm {b : Binding} (hb : b.dim ≠ optionsDimension) : b ∈ outer' ↔ b ∈ outer := by
  have := h.mem_iff (a := b)
  simpa [hb] using this

lemma lengthUnder_perm (dim : String) : c.lengthUnder rows dim outer' = c.lengthUnder rows dim outer := by
  unfold lengthUnder
  split_ifs with hdim hbound hbound' hbound'
  · rfl
  · rfl
  · obtain ⟨b, hb, rfl⟩ := List.mem_map.1 hbound
    exact absurd (List.mem_map_of_mem ((mem_of_perm h hdim).1 hb)) hbound'
  · obtain ⟨b, hb, rfl⟩ := List.mem_map.1 hbound'
    exact absurd (List.mem_map_of_mem ((mem_of_perm h hdim).2 hb)) hbound
  · refine found_congr dim fun cells _ => ?_
    rw [Bool.eq_iff_iff, agrees_iff, agrees_iff]
    refine forall_congr' fun b => ?_
    by_cases hb : b.dim = optionsDimension
    · exact ⟨fun _ _ h => absurd hb h.ne_options, fun _ _ h => absurd hb h.ne_options⟩
    · rw [mem_of_perm h hb]

end Permuted

section

variable (ht : c.table.Proper) (hk : c.Keyed) (hrows : c.table.selected? c.condition = some rows)
  (hnames : ∀ x ∈ c.columns, PlainName x.1)
include hrows

lemma length_keeps (hm : c.TruthfulOn rows m) : c.TruthfulOn rows (result (c.length dim) m).2 := by
  cases hd : c.resolve dim with
  | error f =>
    unfold length
    rw [hd]
    exact hm
  | ok d =>
    by_cases hdim : c.OfTable dim
    · obtain ⟨m', hlength, hm'⟩ := length_eq hrows hm hdim ⟨d, hd⟩
      rw [hlength]
      exact hm'
    · have hcolumn : c.column? dim = none := by simpa [OfTable] using hdim
      unfold length
      rw [hd, eq_of_resolve hd, hcolumn]
      exact hm

include ht hk hnames in
lemma conditionalLength_keeps (hm : c.TruthfulOn rows m) (outer : List Binding) :
    c.TruthfulOn rows (result (c.conditionalLength dim outer) m).2 := by
  cases hd : c.resolve dim with
  | error f =>
    unfold conditionalLength
    rw [hd]
    exact hm
  | ok d =>
    by_cases hdim : c.OfTable dim
    · by_cases hknown : ∀ b ∈ outer, ∃ d, c.resolve b.dim = .ok d
      · obtain ⟨n, m', hrun, hm', -⟩ := conditionalLength_counts ht hk hrows hm (plain_of_resolve hnames ⟨d, hd⟩) hdim
          ⟨d, hd⟩ (fun b hb => plain_of_resolve hnames (hknown b hb)) hknown
        rw [hrun]
        exact hm'
      · push Not at hknown
        unfold conditionalLength
        rw [hd, eq_of_resolve hd, hdim.column?_eq, result_bind, result_liftM, proceed_ok]
        dsimp only
        rw [result_bind, result_liftM]
        rcases restricting_of_unknown hknown with ⟨f, hf⟩ | hnone
        · rw [hf]
          exact hm
        · rw [hnone]
          exact hm
    · have hcolumn : c.column? dim = none := by simpa [OfTable] using hdim
      unfold conditionalLength
      rw [hd, eq_of_resolve hd, hcolumn]
      exact hm

lemma values_eq (hm : c.Remembers rows m) (hdim : c.OfTable dim) (hresolve : ∃ d, c.resolve dim = .ok d) :
    ∃ vs m', result (c.values dim) m = (.ok vs, m') ∧ c.Remembers rows m' ∧
      c.table.distinctValues (c.columnOf dim) c.condition = .ok vs := by
  obtain ⟨d, hd⟩ := hresolve
  have hd' := eq_of_resolve hd
  rw [hdim.column?_eq] at hd'
  rw [result_values, hd, hd']
  dsimp only
  cases hvs : m.values.get? dim with
  | some vs => exact ⟨vs, m, rfl, hm, hm.values dim vs hvs hdim⟩
  | none =>
    have hselect : ∃ vs, c.table.distinctValues (c.columnOf dim) c.condition = .ok vs := by
      unfold Table.distinctValues Table.aggregate
      rw [hrows]
      exact ⟨_, rfl⟩
    obtain ⟨vs, hselect⟩ := hselect
    rw [hselect]
    refine ⟨vs, _, rfl, ⟨hm.counting.of_counting rfl, fun dim' vs' hvs' hdim' => ?_⟩, rfl⟩
    rw [Dict.get?_set] at hvs'
    split_ifs at hvs' with heq
    · rw [← Option.some.inj hvs', heq]
      exact hselect
    · exact hm.values dim' vs' hvs' hdim'

lemma values_keeps (hm : c.Remembers rows m) : c.Remembers rows (result (c.values dim) m).2 := by
  cases hd : c.resolve dim with
  | error f =>
    unfold values
    rw [hd]
    exact hm
  | ok d =>
    by_cases hdim : c.OfTable dim
    · obtain ⟨vs, m', hvalues, hm', -⟩ := values_eq hrows hm hdim ⟨d, hd⟩
      rw [hvalues]
      exact hm'
    · have hcolumn : c.column? dim = none := by simpa [OfTable] using hdim
      unfold values
      rw [hd, eq_of_resolve hd, hcolumn]
      exact hm

include ht hk hnames in
lemma Reached.remembers (h : c.Reached m) : c.Remembers rows m := by
  induction h with
  | start => exact ⟨truthful_of_counting rfl rows hrows, fun _ _ h => nomatch h⟩
  | length dim _ ih => exact ⟨length_keeps hrows ih.counting, by rw [values_length]; exact ih.values⟩
  | values dim _ ih => exact values_keeps hrows ih
  | conditionalLength dim outer _ ih =>
    exact ⟨conditionalLength_keeps ht hk hrows hnames ih.counting outer, by
      rw [values_conditionalLength]; exact ih.values⟩

include ht hk in
lemma length_distinctValues (hdim : c.OfTable dim) {vs : List Value}
    (h : c.table.distinctValues (c.columnOf dim) c.condition = .ok vs) : vs.length = c.found rows dim [] := by
  have hall : rows.filter (c.fits []) = rows := List.filter_eq_self.2 fun _ _ => rfl
  have hfull : (rows.map (c.cell dim)).filter Option.isSome = rows.map (c.cell dim) := by
    rw [List.filter_eq_self, List.forall_mem_map]
    intro cells hcells
    obtain ⟨v, hv, -⟩ := exists_cell hk hrows hdim hcells
    rw [hv]
    rfl
  unfold Table.distinctValues Table.aggregate at h
  rw [hrows] at h
  obtain rfl := Except.ok.inj h
  rw [← among_eq_found ht hk hrows hdim (List.forall_mem_nil _), among, hall, Table.countDistinctCells,
    hfull, List.map_map,
    List.length_flatMap]
  have hsingle : ∀ tuple ∈ Table.distinctTuples (rows.map fun r => [c.table.cellOf (c.columnOf dim) r]),
      (Table.readRow tuple).length = 1 := by
    intro tuple htuple
    obtain ⟨cells, -, rfl⟩ := List.mem_map.1 (Table.mem_of_mem_distinctTuples htuple)
    rfl
  rw [List.map_congr_left hsingle, List.map_const', List.sum_replicate, smul_eq_mul, mul_one]
  rfl

include ht hk hnames in
lemma conditionalLength_of_reached (hm : c.Reached m) (hdim : ∃ d, c.resolve dim = .ok d) {outer : List Binding}
    (houter : ∀ b ∈ outer, ∃ d, c.resolve b.dim = .ok d)
    (htexts : ∀ b ∈ outer, b.dim ≠ optionsDimension → ∀ s, b.value = some (.text s) → Number.Visible s) :
    (result (c.conditionalLength dim outer) m).1 = .ok (c.lengthUnder rows dim outer) := by
  obtain ⟨d, hd⟩ := hdim
  by_cases hoptions : dim = optionsDimension
  · have hcolumn : c.column? dim = none := if_pos hoptions
    unfold conditionalLength
    rw [hd, eq_of_resolve hd, hcolumn, lengthUnder, if_pos hoptions]
    rfl
  · have htable := ofTable_of_resolve hoptions ⟨d, hd⟩
    obtain ⟨n, m', hrun, -, hn⟩ := conditionalLength_counts ht hk hrows (hm.remembers ht hk hrows hnames).counting
      (plain_of_resolve hnames ⟨d, hd⟩) htable ⟨d, hd⟩ (fun b hb => plain_of_resolve hnames (houter b hb)) houter
    rw [hrun, hn fun b hb hb' => visible_key (htexts b hb hb'.ne_options), lengthUnder, if_neg hoptions]

end

def rehash (c : Catalog) (hash : String → UInt64) : Catalog := { c with hash := hash }

lemma Keyed.rehash (h : c.Keyed) (hash : String → UInt64) : (c.rehash hash).Keyed :=
  ⟨h.full, h.distinct⟩

/-- Lengths under bindings are exact, whatever has been looked up before and whatever keys collide. -/
theorem conditional_length_exact (ht : c.table.Proper) (hk : c.Keyed)
    (hrows : c.table.selected? c.condition = some rows)
    (hnames : ∀ x ∈ c.columns, PlainName x.1) (hm : c.Reached m) (dim : String) (hdim : ∃ d, c.resolve dim = .ok d)
    (outer : List Binding) (houter : ∀ b ∈ outer, ∃ d, c.resolve b.dim = .ok d)
    (htexts : ∀ b ∈ outer, b.dim ≠ optionsDimension → ∀ s, b.value = some (.text s) → Number.Visible s) :
    ((c.conditionalLength dim outer).run m).1 = .ok (c.lengthUnder rows dim outer) ∧
    (∀ hash outer' m', (outer'.filter fun b => b.dim != optionsDimension).Perm
        (outer.filter fun b => b.dim != optionsDimension) → (c.rehash hash).Reached m' →
      (((c.rehash hash).conditionalLength dim outer').run m').1 = ((c.conditionalLength dim outer).run m).1) ∧
    (∃ vs, ((c.values dim).run m).1 = .ok vs ∧ ((c.length dim).run m).1 = .ok vs.length ∧
      ((c.conditionalLength dim []).run m).1 = .ok vs.length) ∧
    ((∀ b ∈ outer, c.Told rows b) → ∀ cells ∈ rows, c.agrees outer cells = c.fits outer cells) := by
  have hlength := conditionalLength_of_reached ht hk hrows hnames hm hdim houter htexts
  refine ⟨hlength, fun hash outer' m' hperm hm' => ?_, ?_,
    fun htold cells hcells => agrees_eq_fits ht hrows htold hcells⟩
  · have houter' : ∀ b ∈ outer', ∃ d, c.resolve b.dim = .ok d := by
      intro b hb
      by_cases hoptions : b.dim = optionsDimension
      · exact ⟨⟨b.dim, none⟩, if_pos (beq_iff_eq.2 hoptions)⟩
      · exact houter b ((mem_of_perm hperm hoptions).1 hb)
    -- Only look-ups of counts depend on the hash.
    have hlength' := conditionalLength_of_reached (c := c.rehash hash) ht (hk.rehash hash) hrows hnames hm' hdim houter'
      fun b hb hoptions => htexts b ((mem_of_perm hperm hoptions).1 hb) hoptions
    exact hlength'.trans (lengthUnder_perm hperm dim ▸ hlength.symm)
  · have hnone := conditionalLength_of_reached ht hk hrows hnames hm hdim (List.forall_mem_nil _)
      (List.forall_mem_nil _)
    have hremembers := hm.remembers ht hk hrows hnames
    by_cases hoptions : dim = optionsDimension
    · subst hoptions
      have hcount : c.optionValues.length = c.options.length := by simp [optionValues]
      exact ⟨c.optionValues, rfl, hcount ▸ rfl, hcount ▸ hnone⟩
    · have htable := ofTable_of_resolve hoptions hdim
      obtain ⟨vs, m₁, hvalues, -, hvs⟩ := values_eq hrows hremembers htable hdim
      obtain ⟨m₂, hrun, -⟩ := length_eq hrows hremembers.counting htable hdim
      have hfound : c.lengthUnder rows dim [] = vs.length := by
        rw [lengthUnder, if_neg hoptions, length_distinctValues ht hk hrows htable hvs]
        rfl
      refine ⟨vs, congrArg Prod.fst hvalues, (congrArg Prod.fst hrun).trans ?_, hfound ▸ hnone⟩
      rw [among_eq_found ht hk hrows htable (List.forall_mem_nil _), length_distinctValues ht hk hrows htable hvs]

end Catalog

def plotTable (plots : List (String × String × String)) : Except Failure Table :=
  Table.create "plots" [⟨"plot", .text⟩, ⟨"region", .text⟩, ⟨"soil", .text⟩]
    (plots.map fun (plot, region, soil) => [some (.text plot), some (.text region), some (.text soil)])

def plotDimensions : Dict String := [("PLOT", "plot"), ("REGION", "region"), ("SOIL", "soil")]

instance (s : String) : Decidable (PlainName s) := List.decidableBAll ..

theorem two_soils_in_east : ∃ t c rows m,
    plotTable [("a", "east", "clay"), ("b", "east", "sand"), ("c", "west", "clay")] = .ok t ∧
    Catalog.make t plotDimensions ["forest"] "" = .ok c ∧ c.table.Proper ∧ c.Keyed ∧
    c.table.selected? c.condition = some rows ∧ (∀ x ∈ c.columns, PlainName x.1) ∧ c.Reached m ∧
    ((c.conditionalLength "SOIL" [⟨"OPTIONS", some (.int 0)⟩, ⟨"REGION", some (.text "east")⟩]).run m).1 = .ok 2 ∧
    (((c.rehash fun _ => 0).conditionalLength "SOIL" [⟨"REGION", some (.text "east")⟩]).run {}).1 = .ok 2 := by
  have hrun : (plotTable [("a", "east", "clay"), ("b", "east", "sand"), ("c", "west", "clay")]).toOption.any (fun t =>
      (Catalog.make t plotDimensions ["forest"] "").toOption.any fun c =>
        (c.table.selected? c.condition).any fun rows =>
        decide c.Textual && decide (∀ x ∈ c.columns, PlainName x.1) &&
          decide (c.lengthUnder rows "SOIL"
              [⟨"OPTIONS", some (.int 0)⟩, ⟨"REGION", some (.text "east")⟩] = 2)) = true := by
    decide +kernel
  obtain ⟨t, ht, hrun⟩ := exists_of_any hrun
  obtain ⟨c, hmake, hrun⟩ := exists_of_any hrun
  obtain ⟨rows, hrows, hrun⟩ := (Option.any_eq_true _ _).1 hrun
  simp only [Bool.and_eq_true, decide_eq_true_eq] at hrun
  obtain ⟨⟨htextual, hnames⟩, hlength⟩ := hrun
  obtain rfl := Catalog.make_eq hmake
  have hreached := Catalog.Reached.start.conditionalLength
    (c := ⟨t, plotDimensions, ["forest"], "", fnv1a⟩) "PLOT"
    [⟨"REGION", some (.text "west")⟩, ⟨"SOIL", some (.text "sand")⟩]
  have hproper := Table.proper_create ht
  obtain ⟨hexact, hsame, -, -⟩ := Catalog.conditional_length_exact hproper htextual.keyed hrows hnames hreached "SOIL"
    ⟨_, rfl⟩ [⟨"OPTIONS", some (.int 0)⟩, ⟨"REGION", some (.text "east")⟩]
    (List.forall_mem_cons.2 ⟨⟨_, rfl⟩, List.forall_mem_singleton.2 ⟨_, rfl⟩⟩)
    (List.forall_mem_cons.2 ⟨fun h => absurd rfl h, List.forall_mem_singleton.2 fun _ s hs => by cases hs; decide⟩)
  rw [hlength] at hexact
  refine ⟨t, _, rows, _, ht, hmake, hproper, htextual.keyed, hrows, hnames, hreached, hexact, ?_⟩
  exact (hsame (fun _ => 0) [⟨"REGION", some (.text "east")⟩] {} (.refl _) .start).trans hexact

/-- A text with a zero character can have the key of several bindings, and is found once these have been looked up. -/
theorem zero_character_found : ∃ t c rows, plotTable [("a", "east", "clay")] = .ok t ∧
    Catalog.make t plotDimensions ["forest"] "" = .ok c ∧ c.table.Proper ∧ c.Keyed ∧
    c.table.selected? c.condition = some rows ∧ (∀ x ∈ c.columns, PlainName x.1) ∧
    (∀ cells ∈ rows, c.fits [⟨"REGION", some (.text "east\x00SOIL=t:clay")⟩] cells = false) ∧
    ((c.conditionalLength "PLOT" [⟨"REGION", some (.text "east\x00SOIL=t:clay")⟩]).run {}).1 = .ok 0 ∧
    ((c.conditionalLength "PLOT" [⟨"REGION", some (.text "east\x00SOIL=t:clay")⟩]).run ((c.conditionalLength "PLOT"
      [⟨"REGION", some (.text "east")⟩, ⟨"SOIL", some (.text "clay")⟩]).run {}).2).1 = .ok 1 := by
  have hrun : (plotTable [("a", "east", "clay")]).toOption.any (fun t =>
      (Catalog.make t plotDimensions ["forest"] "").toOption.any fun c =>
        (c.table.selected? c.condition).any fun rows =>
        decide c.Textual && decide (∀ x ∈ c.columns, PlainName x.1) &&
        decide (∀ cells ∈ rows, c.fits [⟨"REGION", some (.text "east\x00SOIL=t:clay")⟩] cells = false) &&
        ((c.conditionalLength "PLOT" [⟨"REGION", some (.text "east\x00SOIL=t:clay")⟩]).run {}).1.toOption.any
          (· == 0) &&
        ((c.conditionalLength "PLOT" [⟨"REGION", some (.text "east\x00SOIL=t:clay")⟩]).run ((c.conditionalLength "PLOT"
          [⟨"REGION", some (.text "east")⟩, ⟨"SOIL", some (.text "clay")⟩]).run {}).2).1.toOption.any
            (· == 1)) = true := by
    decide +kernel
  obtain ⟨t, ht, hrun⟩ := exists_of_any hrun
  obtain ⟨c, hmake, hrun⟩ := exists_of_any hrun
  obtain ⟨rows, hrows, hrun⟩ := (Option.any_eq_true _ _).1 hrun
  simp only [Bool.and_eq_true, decide_eq_true_eq] at hrun
  obtain ⟨⟨⟨⟨htextual, hnames⟩, hfits⟩, hbefore⟩, hbehind⟩ := hrun
  obtain ⟨n, hbefore, hzero⟩ := exists_of_any hbefore
  obtain ⟨n', hbehind, hone⟩ := exists_of_any hbehind
  obtain rfl := beq_iff_eq.1 hzero
  obtain rfl := beq_iff_eq.1 hone
  have hproper : c.table.Proper := Catalog.make_eq hmake ▸ Table.proper_create ht
  exact ⟨t, c, rows, ht, hmake, hproper, htextual.keyed, hrows, hnames, hfits, hbefore, hbehind⟩

end LandUse
