import LandUse.Proofs.Expansion.Matching

namespace LandUse

variable {α σ : Type}

namespace Program

variable {p : Program} {name : String} {entry : IndexEntry} {template : Segment α}

lemma groupsOf_free_objective (hi : p.Indexed) (hentry : p.index.entry name = .ok entry) {sense : Sense} {weight : α}
    (hkind : template.kind = .objective sense weight) (hfree : entry.free ≠ []) : p.groupsOf name template =
      .error (.dimension name ("objective has free dimensions [" ++ " ".intercalate entry.free ++ "]")) := by
  obtain ⟨e, he⟩ := (hi.grounded (hi.entry_name hentry).1).tree
  have hcode : p.codes.get? name = some (Code.ofExpr name e) := by rw [hi.get?_codes, he, Option.map_some]
  have hsome : (!entry.free.isEmpty) = true := by simpa using hfree
  rw [groupsOf, hentry, Outcome.ok_bind]
  dsimp only
  rw [hcode]
  dsimp only
  rw [hkind]
  dsimp only
  rw [if_pos hsome]
  rfl

variable {code : Code} {groups : List (List Binding × List Row)} (hp : p.Supplied) (hi : p.Indexed)
  (ht : p.catalog.table.Proper) (h : p.groupsOf name template = .ok (entry, code, groups))
include hp hi ht h

lemma groupsOf_tuples (hk : ∀ d ∈ entry.free, p.catalog.KeyedAt d) :
    ∃ read, p.RowsOf entry read ∧ (groups.map (·.2)).flatten = read.map (p.catalog.readColumns entry.columns) ∧
      (entry.free = [] → groups = [([], read.map (p.catalog.readColumns entry.columns))]) ∧
      (entry.free ≠ [] → (∃ rows, p.catalog.table.selected? p.catalog.condition = some rows ∧ read.Perm rows) ∧
        ∃ heads, p.catalog.Tuples entry.free read heads ∧ groups = heads.map fun a => (p.catalog.tupleOf entry.free a,
          (read.filter (p.catalog.fits (p.catalog.tupleOf entry.free a))).map
          (p.catalog.readColumns entry.columns))) := by
  have hcovers := hi.covers (groupsOf_eq_ok h).1
  obtain ⟨-, htable⟩ := columnsOf_eq_map hp fun d hd => hcovers.sorted d (List.mem_append_left _ hd)
  obtain ⟨read, hrowsOf, hreads, rfl⟩ := groupsOf_reads hp hi ht h
  refine ⟨read, hrowsOf, ?_, fun hnone => ?_, fun hfree => ?_⟩
  · rw [List.map_map]
    exact (congrArg List.flatten (List.map_id _)).trans (flatten_groupRows _ _ _)
  · rw [hnone, List.map_nil, groupRows, if_pos List.isEmpty_nil, List.map_singleton, List.zip_nil_left,
      groupBindings_nil]
  · obtain ⟨d, hd⟩ := List.exists_mem_of_ne_nil _ hfree
    have hcolumns : entry.columns ≠ [] := List.ne_nil_of_mem (htable d hd).2.1
    obtain ⟨rows, hread, hsorted⟩ := hreads hcolumns
    unfold RowsOf at hrowsOf
    rw [if_neg hcolumns] at hrowsOf
    obtain ⟨selected, order, hselected, -, rfl⟩ := hrowsOf
    refine ⟨⟨selected, hselected, Table.sorted_perm _ _⟩, ?_⟩
    have hne : ¬ (entry.free.map p.catalog.columnOf).isEmpty = true := by simpa using hfree
    rw [groupRows, if_neg hne]
    exact groups_tuples ht hread hk (fun d hd => hcovers.plain d (List.mem_append_left _ hd))
      (fun d hd => (htable d hd).1)
      (fun d hd => (htable d hd).2.1) hsorted

end Program

variable [Scalar α]

/-- An equation makes one segment for every tuple that its free dimensions have in the selected rows. -/
theorem one_segment_per_tuple {s : Settings} {t : Table} {condition : String} {p : Program} {memo : Catalog.Memo}
    (hmake : Program.make s t condition = .ok (p, memo)) (ht : t.Proper) {name : String} {entry : IndexEntry}
    (hentry : p.index.entry name = .ok entry) (hk : ∀ d ∈ entry.free, p.catalog.KeyedAt d) (sink : Sink α σ)
    (template : Segment α) (g : Generation σ) :
    (∀ n g', p.generate sink name template g = (.ok n, g') → ∃ read groups g₁, p.RowsOf entry read ∧
      SendsAll p p.trees.length sink entry template g.scope.frame groups g (.ok ()) g₁ ∧ g'.sink = g₁.sink ∧
      n = groups.length ∧ (groups.map (·.2)).flatten = read.map (p.catalog.readColumns entry.columns) ∧
      (entry.free = [] → groups = [([], read.map (p.catalog.readColumns entry.columns))]) ∧
      (entry.free ≠ [] → (∃ rows, t.selected? condition = some rows ∧ read.Perm rows) ∧
        ∃ heads, p.catalog.Tuples entry.free read heads ∧ groups = heads.map fun a => (p.catalog.tupleOf entry.free a,
          (read.filter (p.catalog.fits (p.catalog.tupleOf entry.free a))).map (p.catalog.readColumns entry.columns)))) ∧
    ∀ sense weight, template.kind = .objective sense weight → entry.free ≠ [] →
      p.generate sink name template g = (.error (.failure (.dimension name
        ("objective has free dimensions [" ++ " ".intercalate entry.free ++ "]"))), g) := by
  have hp := Program.make_supplied hmake
  have hi := Program.make_indexed hmake
  obtain ⟨-, hcatalog⟩ := Program.make_catalog hmake
  have ht' : p.catalog.table.Proper := by rwa [hcatalog]
  have hselected : p.catalog.table.selected? p.catalog.condition = t.selected? condition := by rw [hcatalog]
  refine ⟨fun n g' hgenerate => ?_, fun sense weight hkind hfree => ?_⟩
  · unfold Program.generate at hgenerate
    cases hgroups : p.groupsOf name template with
    | error e =>
      rw [hgroups] at hgenerate
      cases hgenerate
    | ok x =>
      obtain ⟨entry', code, groups⟩ := x
      obtain ⟨hentry', hcode, -⟩ := Program.groupsOf_eq_ok hgroups
      obtain rfl : entry = entry' := Except.ok.inj (hentry.symm.trans hentry')
      obtain ⟨read, hread, hflatten, hnone, hfree⟩ := Program.groupsOf_tuples hp hi ht' hgroups hk
      obtain ⟨hmem, rfl⟩ := hi.entry_name hentry
      rw [hi.get?_codes, Option.map_eq_some_iff] at hcode
      obtain ⟨e, he, rfl⟩ := hcode
      obtain ⟨outcome, g₁, hrun, hsends⟩ := generateGroups_sendsAll sink template g.scope.frame hi le_rfl he
        (fun group hgroup => Program.length_groupsOf hgroups hgroup) g
      rw [hgroups] at hgenerate
      simp only [hrun] at hgenerate
      cases outcome with
      | error e => cases hgenerate
      | ok _ =>
        cases hgenerate
        rw [hselected] at hfree
        exact ⟨read, groups, g₁, hread, hsends, rfl, rfl, hflatten, hnone, hfree⟩
  · rw [Program.generate, Program.groupsOf_free_objective hi hentry hkind hfree]

def soilShares : Settings where
  options := ["forest"]
  dimensions := [("REGION", "region"), ("SOIL", "soil")]
  equations := [("share", "X[REGION][SOIL]")]
  decisions := [⟨"X", ["REGION", "SOIL"], 0, 1, true, .real⟩]

def soilPlots : Except Failure Table :=
  Table.create "plots" [⟨"region", .text⟩, ⟨"soil", .text⟩]
    ([("east", "sand"), ("west", "clay"), ("east", "clay"), ("east", "sand")].map fun (region, soil) =>
      [some (.text region), some (.text soil)])

def scopeSink : Sink Float (List (String × List Nat)) where
  receive notes segment code _ := (.ok (), notes ++ [(segment.label, code.map (·.scope.frame.rows.length))])

theorem three_soil_tuples : ∃ t p memo entry g' read groups g₁ heads, soilPlots = .ok t ∧
    Program.make soilShares t "" = .ok (p, memo) ∧ t.Proper ∧ p.index.entry "share" = .ok entry ∧
    entry.free = ["REGION", "SOIL"] ∧ (∀ d ∈ entry.free, p.catalog.KeyedAt d) ∧
    p.generate scopeSink "share" sumSegment ⟨{}, memo, []⟩ = (.ok 3, g') ∧ p.RowsOf entry read ∧
    SendsAll p p.trees.length scopeSink entry sumSegment {} groups ⟨{}, memo, []⟩ (.ok ()) g₁ ∧
    (groups.map (·.2)).flatten = read.map (p.catalog.readColumns entry.columns) ∧
    p.catalog.Tuples entry.free read heads ∧ groups = heads.map (fun a => (p.catalog.tupleOf entry.free a,
      (read.filter (p.catalog.fits (p.catalog.tupleOf entry.free a))).map (p.catalog.readColumns entry.columns))) ∧
    g₁.sink = [("sum_east_clay", [1]), ("sum_east_sand", [2]), ("sum_west_clay", [1])] := by
  have hrun : soilPlots.toOption.any (fun t => (Program.make soilShares t "").toOption.any fun x =>
      decide x.1.catalog.Textual && (x.1.index.entry "share").toOption.any fun entry =>
        match x.1.generate scopeSink "share" sumSegment ⟨{}, x.2, []⟩ with
        | (.ok 3, g) => entry.free == ["REGION", "SOIL"] &&
          g.sink == [("sum_east_clay", [1]), ("sum_east_sand", [2]), ("sum_west_clay", [1])]
        | _ => false) = true := by decide +kernel
  obtain ⟨t, ht, hrun⟩ := Outcome.exists_of_any hrun
  obtain ⟨⟨p, memo⟩, hmake, hrun⟩ := Outcome.exists_of_any hrun
  rw [Bool.and_eq_true, decide_eq_true_eq] at hrun
  obtain ⟨htextual, hrun⟩ := hrun
  obtain ⟨entry, hentry, hrun⟩ := Outcome.exists_of_any hrun
  split at hrun
  case h_2 => cases hrun
  case h_1 g' hgenerate =>
    rw [Bool.and_eq_true, beq_iff_eq, beq_iff_eq] at hrun
    have hcovers := (Program.make_indexed hmake).covers hentry
    have htable := (Program.columnsOf_eq_map (Program.make_supplied hmake) fun d hd =>
      hcovers.sorted d (List.mem_append_left _ hd)).2
    have hkeyed : ∀ d ∈ entry.free, p.catalog.KeyedAt d := fun d hd => htextual.keyed.keyedAt (htable d hd).1
    have hproper : t.Proper := Table.proper_create ht
    obtain ⟨hsegments, -⟩ := one_segment_per_tuple hmake hproper hentry hkeyed scopeSink sumSegment ⟨{}, memo, []⟩
    obtain ⟨read, groups, g₁, hread, hsends, hsink, -, hflatten, -, hfree⟩ := hsegments 3 g' hgenerate
    obtain ⟨-, heads, htuples, hgroups⟩ := hfree (by rw [hrun.1]; decide)
    exact ⟨t, p, memo, entry, g', read, groups, g₁, heads, ht, hmake, hproper, hentry, hrun.1, hkeyed, hgenerate, hread,
      hsends, hflatten, htuples, hgroups, hsink ▸ hrun.2⟩

end LandUse
