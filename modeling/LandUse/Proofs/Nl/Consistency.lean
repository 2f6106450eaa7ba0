import LandUse.Proofs.Nl.File
import LandUse.Proofs.Problem.Columns
import LandUse.Proofs.Problem.Recording

namespace LandUse

open Outcome

namespace Nl

section Text

@[simp]
lemma unlines_nil : unlines [] = "" := rfl

@[simp]
lemma unlines_cons (l : String) (ls : List String) : unlines (l :: ls) = l ++ "\n" ++ unlines ls := by
  simp [unlines]

@[simp]
lemma unlines_append (ls ms : List String) : unlines (ls ++ ms) = unlines ls ++ unlines ms := by
  simp [unlines]

lemma join_map {β : Type} {xs : List β} {f : β → String} {g : β → List String} (h : ∀ x ∈ xs, f x = unlines (g x)) :
    String.join (xs.map f) = unlines (xs.flatMap g) := by
  induction xs with
  | nil => rfl
  | cons x xs ih =>
    obtain ⟨hx, hxs⟩ := List.forall_mem_cons.1 h
    simp [hx, ih hxs]

lemma join_map_line {β : Type} {xs : List β} {f g : β → String} (h : ∀ x ∈ xs, f x = g x ++ "\n") :
    String.join (xs.map f) = unlines (xs.map g) := by
  induction xs with
  | nil => rfl
  | cons x xs ih =>
    obtain ⟨hx, hxs⟩ := List.forall_mem_cons.1 h
    simp [hx, ih hxs]

lemma instrText_eq (i : Instr Float) : instrText i = unlines (instrLines i) := by
  cases i <;> simp [instrText, instrLines, String.append_assoc]

lemma rangeText_eq (op : Comparison) (rhs : Float) : rangeText op rhs = rangeLine op rhs ++ "\n" := by
  unfold rangeText rangeLine
  split
  · rename_i h
    rw [h]
    rfl
  · simp [String.append_assoc]

lemma boundsText_eq (lower upper : Float) : boundsText lower upper = boundsLine lower upper ++ "\n" := by
  unfold boundsText boundsLine
  dsimp only
  split_ifs <;> simp_all [String.append_assoc]

end Text

structure Renders (d : Document Float) (f : File) : Prop where
  constraints : d.bodies.filter (·.isConstraint) = f.rows.zipIdx.map fun (r, k) => ⟨.constraint k, r.code⟩
  objectives : d.bodies.filter (!·.isConstraint) = f.goals.zipIdx.map fun (g, k) => ⟨.objective k g.sense, g.code⟩
  ranges : d.ranges = f.rows.map fun r => (r.op, r.rhs)
  bounds : d.bounds = f.unknowns.map fun u => (u.lower, u.upper)
  initial : d.initial = f.unknowns.zipIdx.map fun (u, v) => ((v : Int), u.guess)
  discrete : d.discrete = f.unknowns.countP (·.kind != .real)
  jacobian : d.jacobian = f.rows.zipIdx.map fun (r, k) => ⟨k, (f.block r.code).map Int.ofNat⟩
  gradient : d.gradient = f.goals.zipIdx.map fun (g, k) => ⟨k, (f.block g.code).map Int.ofNat⟩

lemma foldl_counts {β : Type} (count : β → Nat) (bs : List β) (n : Nat) :
    bs.foldl (fun n b => n + count b) n = n + (bs.map count).sum := by
  induction bs generalizing n with
  | nil => simp
  | cons b bs ih => rw [List.foldl_cons, ih, List.map_cons, List.sum_cons, Nat.add_assoc]

lemma map_fst_zipIdx {β γ : Type} (g : β → γ) (bs : List β) : (bs.zipIdx.map fun x => g x.1) = bs.map g := by
  calc
    _ = (bs.zipIdx.map Prod.fst).map g := List.map_map.symm
    _ = bs.map g := by rw [List.zipIdx_map_fst]

lemma entryCount_eq {β : Type} (index : β → Int) (offsets : β → List Nat) (bs : List β) :
    Document.entryCount (bs.map fun b => ⟨index b, (offsets b).map Int.ofNat⟩) =
    (bs.map fun b => (offsets b).length).sum := by
  rw [Document.entryCount, foldl_counts, Nat.zero_add, List.map_map]
  simp [Function.comp_def]

lemma columnCount_eq {β : Type} (index : β → Int) (offsets : β → List Nat) (bs : List β) (v : Nat) :
    (bs.map fun b => (⟨index b, (offsets b).map Int.ofNat⟩ : Block)).foldl
      (fun n b => n + b.offsets.countP fun k => 0 ≤ k && k ≤ (v : Int)) 0 =
      (bs.map fun b => (offsets b).countP (· ≤ v)).sum := by
  rw [foldl_counts, Nat.zero_add, List.map_map]
  simp [Function.comp_def, List.countP_map]

namespace Renders

variable {d : Document Float} {f : File}

lemma any_isConstraint (h : Renders d f) : d.bodies.any (·.isConstraint) = decide (f.rows ≠ []) := by
  rw [Bool.eq_iff_iff, List.any_eq_true, decide_eq_true_iff]
  have hlength := congrArg List.length h.constraints
  rw [List.length_map, List.length_zipIdx] at hlength
  rw [← List.length_pos_iff, ← hlength, List.length_pos_iff_exists_mem]
  simp only [List.mem_filter]

lemma equalities (h : Renders d f) : (d.ranges.filter (·.1 == .eq)).length = f.rows.countP (·.op.rangeCode == 4) := by
  rw [h.ranges, ← List.countP_eq_length_filter, List.countP_map]
  refine List.countP_congr fun r _ => ?_
  cases hop : r.op <;> simp [hop, Comparison.rangeCode]

lemma stats (h : Renders d f) : d.stats = f.stats := by
  simp only [Document.stats, File.stats, File.equalities, File.discrete, File.jacobianEntries,
    File.gradientEntries, h.constraints, h.objectives, h.bounds, h.discrete, h.jacobian, h.gradient,
    h.equalities, entryCount_eq, List.length_map, List.length_zipIdx,
    map_fst_zipIdx fun r : File.Row => (f.block r.code).length, map_fst_zipIdx fun g :
    File.Goal => (f.block g.code).length]

lemma headerLine_text (counts : List Nat) (note : String) :
    headerLine counts note ++ "\n" = counts.foldr (fun n s => " " ++ toString n ++ s) ("\t# " ++ note ++ "\n") := by
  unfold headerLine
  induction counts with
  | nil => rfl
  | cons n counts ih =>
    rw [List.foldr_cons, ← ih]
    simp only [List.map_cons, String.join_cons, String.append_assoc]

lemma headerText (f : File) : header f.stats = unlines f.headerLines := by
  have hzero : toString (0 : Nat) = "0" := rfl
  have hone : toString (1 : Nat) = "1" := rfl
  have hcount (n : Nat) : toString (n : Int) = toString n := rfl
  simp only [File.headerLines, unlines_cons, headerLine_text, List.foldr_cons, List.foldr_nil, hzero, hone,
    String.reduceAppend]
  unfold header File.stats
  dsimp only
  simp only [hcount, unlines_nil, String.append_empty, String.append_assoc]
  -- Zeros in front of a count are cut differently.
  rw [show " 0 " = " 0" ++ " " from rfl, show " 0 0 " = " 0" ++ (" 0" ++ " ") from rfl]
  simp only [String.append_assoc]

lemma bodyText_eq (b : Body Float) {heading : String} (h : headingText b.heading = heading ++ "\n") :
    bodyText b = unlines (File.bodyLines heading b.code) := by
  rw [bodyText, File.bodyLines, unlines_cons, h, join_map fun i _ => instrText_eq i]

lemma constraintsText (h : Renders d f) :
    String.join ((d.bodies.filter (·.isConstraint)).map bodyText) = unlines f.constraintLines := by
  rw [h.constraints, List.map_map, File.constraintLines]
  exact join_map fun x _ => bodyText_eq _ rfl

lemma objectivesText (h : Renders d f) :
    String.join ((d.bodies.filter (!·.isConstraint)).map bodyText) = unlines f.objectiveLines := by
  rw [h.objectives, List.map_map, File.objectiveLines]
  exact join_map fun x _ => bodyText_eq _ rfl

lemma initialText (h : Renders d f) : d.initialText = unlines f.guessLines := by
  unfold Document.initialText File.guessLines
  by_cases hempty : f.unknowns = []
  · simp [h.initial, hempty]
  · rw [if_neg (by simpa [h.initial] using hempty), if_neg hempty, h.initial, List.map_map, unlines_cons,
      List.length_map, List.length_zipIdx]
    exact congrArg _ (join_map_line fun x _ => rfl)

lemma rangesText (h : Renders d f) : d.rangesText = unlines f.rangeLines := by
  unfold Document.rangesText File.rangeLines
  rw [h.any_isConstraint]
  by_cases hempty : f.rows = []
  · simp [hempty]
  · rw [if_pos (by simpa using hempty), if_neg hempty, h.ranges, List.map_map, unlines_cons]
    exact congrArg _ (join_map_line fun r _ => rangeText_eq r.op r.rhs)

lemma allBoundsText (h : Renders d f) : d.allBoundsText = unlines f.boundLines := by
  unfold Document.allBoundsText File.boundLines
  by_cases hempty : f.unknowns = []
  · simp [h.bounds, hempty]
  · rw [if_neg (by simpa [h.bounds] using hempty), if_neg hempty, h.bounds, List.map_map, unlines_cons]
    exact congrArg _ (join_map_line fun u _ => boundsText_eq u.lower u.upper)

lemma columnCounts (h : Renders d f) (n : Nat) : d.columnCounts n = (List.range n).map f.entriesUpTo := by
  refine List.map_congr_left fun v _ => ?_
  rw [h.jacobian, columnCount_eq, map_fst_zipIdx fun r : File.Row => (f.block r.code).countP (· ≤ v), File.entriesUpTo]

lemma countsText (h : Renders d f) : d.countsText = unlines f.countLines := by
  have hlength : d.bounds.length = f.unknowns.length := by rw [h.bounds, List.length_map]
  unfold Document.countsText File.countLines
  rw [h.any_isConstraint, hlength, h.columnCounts]
  by_cases hcounts : f.rows ≠ [] ∧ 1 < f.unknowns.length
  · rw [if_pos (by simpa using hcounts), if_pos hcounts, List.map_map, unlines_cons]
    exact congrArg _ (join_map_line fun v _ => rfl)
  · rw [if_neg (by simpa using hcounts), if_neg hcounts, unlines_nil]

lemma blockText_eq (letter : String) (k : Nat) (code : List (Instr Float)) :
    blockText letter ⟨k, (f.block code).map Int.ofNat⟩ = unlines (f.blockLines letter k code) := by
  rw [blockText, File.blockLines, unlines_cons, List.map_map, List.length_map]
  refine congrArg _ (join_map_line fun v _ => ?_)
  rw [String.append_assoc]
  rfl

lemma jacobianText (h : Renders d f) : String.join (d.jacobian.map (blockText "J")) = unlines f.jacobianLines := by
  rw [h.jacobian, List.map_map, File.jacobianLines]
  exact join_map fun x _ => blockText_eq "J" x.2 x.1.code

lemma gradientText (h : Renders d f) : String.join (d.gradient.map (blockText "G")) = unlines f.gradientLines := by
  rw [h.gradient, List.map_map, File.gradientLines]
  exact join_map fun x _ => blockText_eq "G" x.2 x.1.code

theorem text (h : Renders d f) : d.text = f.text := by
  unfold Document.text File.text File.lines
  simp only [unlines_append, h.stats, headerText, h.constraintsText, h.objectivesText, h.initialText,
    h.rangesText, h.allBoundsText,
    h.countsText, h.jacobianText, h.gradientText, String.append_assoc]

end Renders

end Nl

namespace Record

def row? (r : Record Float) : Option Nl.File.Row :=
  match r.1.kind with
  | .constraint op rhs => some ⟨op, rhs, r.2.map (·.instr)⟩
  | .objective .. => none

def goal? (r : Record Float) : Option Nl.File.Goal :=
  match r.1.kind with
  | .constraint .. => none
  | .objective sense weight => some ⟨sense, Nl.BodySink.weightCode weight ++ r.2.map (·.instr)⟩

end Record

namespace Nl

lemma plain_weightCode (weight : Float) (n : Nat) : ∀ i ∈ BodySink.weightCode weight, i.Plain n := by
  unfold BodySink.weightCode
  split
  · exact List.forall_mem_nil _
  · simp [Instr.Plain]

lemma offsets_weightCode (weight : Float) (code : List (Instr Float)) :
    Instr.offsets (BodySink.weightCode weight ++ code) = Instr.offsets code := by
  unfold BodySink.weightCode
  split <;> rfl

lemma sortOffsets_offsets (code : List (Instr Float)) : Document.sortOffsets (Instr.offsets code) =
    Instr.offsets code := by
  apply List.mergeSort_of_pairwise
  refine (Instr.pairwise_offsets code).imp fun hlt => ?_
  exact decide_eq_true (le_of_lt hlt)

@[simp]
lemma isConstraint_constraint {α : Type} (k : Int) (code : List (Instr α)) :
    (⟨.constraint k, code⟩ : Body α).isConstraint = true := rfl

@[simp]
lemma isConstraint_objective {α : Type} (k : Int) (sense : Sense) (code : List (Instr α)) :
    (⟨.objective k sense, code⟩ : Body α).isConstraint = false := rfl

structure BodySink.Holds (s : BodySink Float) (rows : List File.Row) (goals : List File.Goal) : Prop where
  rows_length : s.constraints = rows.length
  goals_length : s.objectives = goals.length
  constraints : s.document.bodies.filter (·.isConstraint) = rows.zipIdx.map fun (r, k) => ⟨.constraint k, r.code⟩
  objectives : s.document.bodies.filter (!·.isConstraint) = goals.zipIdx.map fun (g, k) =>
    ⟨.objective k g.sense, g.code⟩
  ranges : s.document.ranges = rows.map fun r => (r.op, r.rhs)
  jacobian : s.document.jacobian = rows.zipIdx.map fun (r, k) => ⟨k, Instr.offsets r.code⟩
  gradient : s.document.gradient = goals.zipIdx.map fun (g, k) => ⟨k, Instr.offsets g.code⟩
  bounds : s.document.bounds = []
  initial : s.document.initial = []

namespace BodySink

variable {s : BodySink Float} {rows : List File.Row} {goals : List File.Goal}

lemma Holds.add (h : s.Holds rows goals) (r : Record Float) :
    (s.add r.1 (r.2.map (·.instr)) true).Holds (rows ++ r.row?.toList) (goals ++ r.goal?.toList) := by
  unfold BodySink.add BodySink.close BodySink.body Record.row? Record.goal?
  cases r.1.kind with
  | constraint op rhs =>
    refine
      { rows_length := by simp [h.rows_length]
        goals_length := by simp [h.goals_length]
        constraints := by simp [Document.addJacobian, Document.addRange, h.constraints, h.rows_length,
          List.zipIdx_append]
        objectives := by simp [Document.addJacobian, Document.addRange, h.objectives]
        ranges := by simp [Document.addJacobian, Document.addRange, h.ranges]
        jacobian := by
          simp [Document.addJacobian, Document.addRange, h.jacobian, h.rows_length, sortOffsets_offsets,
            List.zipIdx_append]
        gradient := by simp [Document.addJacobian, Document.addRange, h.gradient]
        bounds := h.bounds
        initial := h.initial }
  | objective sense weight =>
    refine
      { rows_length := by simp [h.rows_length]
        goals_length := by simp [h.goals_length]
        constraints := by simp [Document.addGradient, h.constraints]
        objectives := by simp [Document.addGradient, h.objectives, h.goals_length, List.zipIdx_append]
        ranges := by simp [Document.addGradient, h.ranges]
        jacobian := by simp [Document.addGradient, h.jacobian]
        gradient := by
          simp [Document.addGradient, h.gradient, h.goals_length, sortOffsets_offsets, offsets_weightCode,
            List.zipIdx_append]
        bounds := h.bounds
        initial := h.initial }

lemma holds_accept {rs : List (Record Float)} (h : s.Holds rows goals) {t : BodySink Float}
    (ht : rs.foldlM sink.accept s = .ok t) : t.Holds (rows ++ rs.filterMap Record.row?)
    (goals ++ rs.filterMap Record.goal?) := by
  induction rs generalizing s rows goals with
  | nil =>
    cases ht
    simpa using h
  | cons r rs ih =>
    rw [List.foldlM_cons] at ht
    have hrest := ih (h.add r) ht
    cases hrow : r.row? <;> cases hgoal : r.goal? <;> simpa [hrow, hgoal] using hrest

end BodySink

end Nl

lemma Coeffs.set_append {cs : Coeffs Float} {k : Int} (h : ∀ x ∈ cs, x.1 < k) (c : Float) :
    cs.set k c = cs ++ [(k, c)] := by
  unfold Coeffs.set
  induction cs with
  | nil => rfl
  | cons x cs ih =>
    obtain ⟨hx, hcs⟩ := List.forall_mem_cons.1 h
    rw [Coeffs.modify, if_neg (by simpa using hx.ne'), if_neg (by omega), ih hcs, List.cons_append]

lemma Coeffs.foldl_set {β : Type} (f : β → Float) (bs : List β) {cs : Coeffs Float} {n : Nat} (h : ∀ x ∈ cs, x.1 < n) :
    (bs.zipIdx n).foldl (fun cs x => cs.set x.2 (f x.1)) cs = cs ++ (bs.zipIdx n).map fun x =>
    ((x.2 : Int), f x.1) := by
  -- Numbers ascend, so every coefficient is set behind the ones before.
  induction bs generalizing cs n with
  | nil => simp
  | cons b bs ih =>
    have hnext : ∀ x ∈ cs ++ [((n : Int), f b)], x.1 < (n + 1 : Nat) := by
      rw [List.forall_mem_append, List.forall_mem_singleton]
      exact ⟨fun x hx => (h x hx).trans (by omega), by omega⟩
    rw [List.zipIdx_cons, List.foldl_cons, Coeffs.set_append h, ih hnext, List.map_cons, List.append_assoc,
      List.singleton_append]

namespace Build

variable {b : Build Float}

def unknown (b : Build Float) (v : VariableInstance) : Nl.File.Unknown :=
  ⟨v.kind, (b.bounds v).1, (b.bounds v).2, b.guess v⟩

lemma countP_unknown (b : Build Float) (vs : List VariableInstance) :
    (vs.map b.unknown).countP (·.kind != .real) = (vs.filter (·.kind != .real)).length := by
  rw [List.countP_map, List.countP_eq_length_filter]
  rfl

lemma discrete_unknown (h : b.program.offsets.Sorted) (i : Nat) (u : Nl.File.Unknown)
    (hu : (b.program.offsets.entries.map b.unknown)[i]? = some u) :
    u.kind ≠ .real ↔ (b.program.offsets.entries.map b.unknown).length ≤
      i + (b.program.offsets.entries.map b.unknown).countP (·.kind != .real) := by
  rw [List.getElem?_map, Option.map_eq_some_iff] at hu
  obtain ⟨v, hv, rfl⟩ := hu
  rw [countP_unknown, List.length_map]
  exact h.discrete_iff hv

end Build

lemma Record.Fits.row {n : Nat} {kind : SegmentKind Float} {r : Record Float} (h : r.Fits n kind) {row : Nl.File.Row}
    (hrow : r.row? = some row) : ∀ i ∈ row.code, i.Plain n := by
  unfold Record.row? at hrow
  split at hrow
  · cases hrow
    simpa using h.plain
  · cases hrow

lemma Record.Fits.goal {n : Nat} {kind : SegmentKind Float} {r : Record Float} (h : r.Fits n kind) {goal : Nl.File.Goal}
    (hgoal : r.goal? = some goal) : ∀ i ∈ goal.code, i.Plain n := by
  unfold Record.goal? at hgoal
  split at hgoal
  · cases hgoal
  · cases hgoal
    refine List.forall_mem_append.2 ⟨Nl.plain_weightCode _ n, ?_⟩
    simpa using h.plain

lemma Job.fits_of_yields {p : Program} {n : Nat} {jobs : List (Job Float)} {rss : List (List (Record Float))}
    (h : List.Forall₂ (Job.Yields p n) jobs rss) : ∀ r ∈ rss.flatten, ∃ kind, r.Fits n kind := by
  induction h with
  | nil => exact List.forall_mem_nil _
  | cons hj _ ih =>
    rw [List.flatten_cons]
    exact List.forall_mem_append.2 ⟨fun r hr => ⟨_, hj.fits r hr⟩, ih⟩

def Build.file (b : Build Float) (hb : b.program.offsets.Sorted) (rs : List (Record Float))
    (hrs : ∀ r ∈ rs, ∃ kind, r.Fits b.program.offsets.entries.length kind) : Nl.File where
  rows := rs.filterMap Record.row?
  goals := rs.filterMap Record.goal?
  unknowns := b.program.offsets.entries.map b.unknown
  rows_closed row hrow := by
    obtain ⟨r, hr, hrow⟩ := List.mem_filterMap.1 hrow
    obtain ⟨kind, hfits⟩ := hrs r hr
    rw [List.length_map]
    exact hfits.row hrow
  goals_closed goal hgoal := by
    obtain ⟨r, hr, hgoal⟩ := List.mem_filterMap.1 hgoal
    obtain ⟨kind, hfits⟩ := hrs r hr
    rw [List.length_map]
    exact hfits.goal hgoal
  discrete_last := Build.discrete_unknown hb

lemma Build.renders {b : Build Float} {d : Nl.Document Float} (hindexed : b.program.Indexed)
    (hsorted : b.program.offsets.Sorted)
    (h : b.document = .ok d) : ∃ rs hrs, b.run recorder [] = .ok rs ∧ Nl.Renders d (b.file hsorted rs hrs) := by
  obtain ⟨s, hs, rfl⟩ := document_eq h
  obtain ⟨rss, hyields, haccept, hrecord⟩ := generateEach_records hindexed hs
  rw [hsorted.keys] at hyields
  have hfits := Job.fits_of_yields hyields
  have hholds : s.Holds (rss.flatten.filterMap Record.row?) (rss.flatten.filterMap Record.goal?) := by
    have hempty : Nl.BodySink.Holds {} [] [] := by constructor <;> rfl
    simpa using Nl.BodySink.holds_accept hempty haccept
  refine ⟨rss.flatten, hfits, hrecord [], ?_⟩
  have hrows := (b.file hsorted rss.flatten hfits).rows_closed
  have hgoals := (b.file hsorted rss.flatten hfits).goals_closed
  refine
    { constraints := hholds.constraints
      objectives := hholds.objectives
      ranges := hholds.ranges
      bounds := ?_
      initial := ?_
      discrete := ?_
      jacobian := hholds.jacobian.trans (List.map_congr_left fun x hx => ?_)
      gradient := hholds.gradient.trans (List.map_congr_left fun x hx => ?_) }
  · simp [hholds.bounds, file, unknown, Function.comp_def]
  · rw [hholds.initial, Coeffs.foldl_set b.guess _ (List.forall_mem_nil _)]
    simp [file, unknown, List.zipIdx_map]
  · rw [file, countP_unknown]
  · exact congrArg (Nl.Block.mk x.2) (Instr.offsets_eq_occurring (hrows x.1 (List.fst_mem_of_mem_zipIdx hx)))
  · exact congrArg (Nl.Block.mk x.2) (Instr.offsets_eq_occurring (hgoals x.1 (List.fst_mem_of_mem_zipIdx hx)))

/-- The model file of a problem is one of its segments and variables, and its counts are those of its lines. -/
theorem Problem.document_is_consistent (p : Problem) {criteria : Dict (List String)} {d : Nl.Document Float}
    (h : p.document criteria = .ok d) :
    ∃ (b : Build Float) (rs : List (Record Float)) (f : Nl.File), p.prepare criteria = .ok b ∧
      b.run recorder [] = .ok rs ∧
      f.unknowns = b.program.offsets.entries.map b.unknown ∧ f.rows = rs.filterMap Record.row? ∧
      f.goals = rs.filterMap Record.goal? ∧ d.stats = f.stats ∧ d.text = f.text ∧ ∀ l ∈ f.lines, Nl.Line l := by
  unfold document at h
  rw [bind_eq_ok] at h
  obtain ⟨b, hb, h⟩ := h
  obtain ⟨t, -, hprepare⟩ := prepare_eq_ok hb
  obtain ⟨hindexed, hsorted, -⟩ := Build.prepare_eq_ok hprepare
  obtain ⟨rs, hrs, hrun, hrenders⟩ := Build.renders hindexed hsorted h
  exact ⟨b, rs, b.file hsorted rs hrs, hb, hrun, rfl, rfl, rfl, hrenders.stats, hrenders.text, Nl.File.line_of_mem _⟩

def shares : Problem where
  config := {}
  settings := {
    options := ["forest", "arable"]
    equations := [("total", "sum\x7bOPTIONS\x7d(X[OPTIONS])"), ("linked", "X[forest] - 2 * lots[forest] + X[forest]"),
      ("gain", "3 * X[arable] - lots[arable]")]
    decisions := [⟨"lots", ["OPTIONS"], 1, 5, true, .int⟩, ⟨"X", ["OPTIONS"], 0, 9, true, .real⟩]
    constraints := [⟨"total", "total", .eq, 8⟩, ⟨"linked", "linked", .ge, 0.5⟩]
    equationObjectives := [⟨"gain", "gain", .maximize, 0⟩] }
  table := some ⟨"units", [], []⟩

theorem shares_consistent : ∃ d : Nl.Document Float, shares.document = .ok d ∧
    (d.stats.unknowns = 4 ∧ d.stats.constraints = 2 ∧ d.stats.objectives = 1 ∧ d.stats.equalities = 1 ∧
      d.stats.discrete = 2) ∧
    ∃ (b : Build Float) (rs : List (Record Float)) (f : Nl.File), shares.prepare = .ok b ∧ b.run recorder [] = .ok rs ∧
      f.unknowns = b.program.offsets.entries.map b.unknown ∧ f.rows = rs.filterMap Record.row? ∧
      f.goals = rs.filterMap Record.goal? ∧ d.stats = f.stats ∧ d.text = f.text ∧ ∀ l ∈ f.lines, Nl.Line l := by
  have hrun : (match (shares.document : Except Fault (Nl.Document Float)) with
      | .ok d => decide (d.stats.unknowns = 4 ∧ d.stats.constraints = 2 ∧ d.stats.objectives = 1 ∧
          d.stats.equalities = 1 ∧
        d.stats.discrete = 2)
      | _ => false) = true := by decide +kernel
  split at hrun
  case h_1 d hd => exact ⟨d, hd, of_decide_eq_true hrun, shares.document_is_consistent hd⟩
  case h_2 => cases hrun

end LandUse
