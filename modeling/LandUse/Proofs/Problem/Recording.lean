import LandUse.Problem.Build
import LandUse.Proofs.Expansion.Segments

namespace LandUse

open Outcome Walk Direct

variable {α σ τ : Type} [Scalar α]

abbrev Record (α : Type) := Segment α × List (Emission α)

def recorder : Sink α (List (Record α)) where
  receive records segment emitted _ := (.ok (), records ++ [(segment, emitted)])

namespace Sink

def accept (sink : Sink α σ) (s : σ) (r : Record α) : Except Fault σ :=
  match sink.receive s r.1 r.2 true with
  | (.ok _, s) => .ok s
  | (.error e, _) => .error e

end Sink

lemma accept_row (s : RowSink α) (r : Record α) : RowSink.sink.accept s r = s.add r.1 (r.2.map (·.instr)) := by
  unfold Sink.accept RowSink.sink
  dsimp only
  cases s.add r.1 (r.2.map (·.instr)) <;> rfl

namespace Generation

def withSink (g : Generation σ) (t : τ) : Generation τ := ⟨g.scope, g.memo, t⟩

end Generation

structure Record.Fits (n : Nat) (kind : SegmentKind α) (r : Record α) : Prop where
  kind : r.1.kind = kind
  plain : ∀ e ∈ r.2, e.instr.Plain n

def Program.segmentsOf (p : Program) (j : Job α) : List (Segment α) :=
  match p.groupsOf j.equation j.segment with
  | .ok (_, _, groups) => groups.map fun group => j.segment.forGroup group.1
  | .error _ => []

structure Job.Yields (p : Program) (n : Nat) (j : Job α) (rs : List (Record α)) : Prop where
  segments : rs.map (·.1) = p.segmentsOf j
  fits : ∀ r ∈ rs, r.Fits n j.segment.kind
  single : ∀ sense weight, j.segment.kind = .objective sense weight → rs.length = 1

omit [Scalar α] in
lemma Walk.Follows.plain {start : Scope} {s : State α} {t : Trace α} (h : Follows start s t) {n : Nat}
    (ht : ∀ m ∈ t.marks, m.instr.Plain n) : ∀ e ∈ s.emitted, e.instr.Plain n := by
  have hemitted := h.emitted
  generalize s.emitted = emitted at hemitted
  generalize t.marks = marks at hemitted ht
  induction hemitted with
  | nil => exact List.forall_mem_nil _
  | cons hrecord _ ih =>
    obtain ⟨hm, hmarks⟩ := List.forall_mem_cons.mp ht
    refine List.forall_mem_cons.mpr ⟨?_, ih hmarks⟩
    rw [hrecord.instr]
    exact hm

namespace Program

variable {p : Program} {sink : Sink α σ} {entry : IndexEntry} {template : Segment α} {base : Frame} {e : Expr}

lemma generateGroup_records (hp : p.Indexed) (he : p.trees.get? entry.name = some e) {bindings : List Binding}
    {rows : List Row} (hb : rows.length ≤ p.catalog.table.rows.length) {g g' : Generation σ}
    (h : p.generateGroup sink entry (Code.ofExpr entry.name e) template base bindings rows g = (.ok (), g')) :
    ∃ r : Record α, r.1 = template.forGroup bindings ∧ r.Fits p.offsets.keys.length template.kind ∧
      sink.accept g.sink r = .ok g'.sink ∧
      ∀ before, p.generateGroup recorder entry (Code.ofExpr entry.name e) template base bindings rows
        (g.withSink before) = (.ok (), g'.withSink (before ++ [r])) := by
  obtain ⟨s, hwalk, hs, -⟩ := result_walk (α := α) hp entry.columns he (Nat.le_refl _)
    (show (⟨entry.name, base.bindings ++ bindings, rows⟩ : Frame).rows.length ≤ _ from hb) g.scope g.memo
  have hplain := hs.plain (sound_expandEquation (Nat.le_refl _) (hp.grounded (hp.get?_trees.mp he).1) _ _
    (List.forall_mem_nil _)).1
  generalize (expansion (α := α) p entry.columns p.trees.length entry.name
    ⟨entry.name, base.bindings ++ bindings, rows⟩ g.memo).1 = outcome at hwalk
  rcases hreceive : sink.receive g.sink (template.forGroup bindings) s.emitted.reverse outcome.toBool with
    ⟨received, state⟩
  rw [generateGroup_eq sink template base (Code.ofExpr entry.name e) hwalk hreceive] at h
  cases outcome with
  | error e => cases h
  | ok _ =>
    cases h
    refine ⟨(template.forGroup bindings, s.emitted.reverse), rfl, ⟨rfl, ?_⟩, ?_, fun before => ?_⟩
    · simpa using hplain
    · change sink.receive g.sink (template.forGroup bindings) s.emitted.reverse true = _ at hreceive
      rw [Sink.accept, hreceive]
    · exact generateGroup_eq recorder template base (Code.ofExpr entry.name e) (g := g.withSink before) hwalk rfl

lemma generateGroups_records (hp : p.Indexed) (he : p.trees.get? entry.name = some e)
    {groups : List (List Binding × List Row)} (hb : ∀ group ∈ groups, group.2.length ≤ p.catalog.table.rows.length)
    {g g' : Generation σ}
    (h : p.generateGroups sink entry (Code.ofExpr entry.name e) template base groups g = (.ok (), g')) :
    ∃ rs : List (Record α), rs.map (·.1) = groups.map (fun group => template.forGroup group.1) ∧
      (∀ r ∈ rs, r.Fits p.offsets.keys.length template.kind) ∧
      rs.foldlM sink.accept g.sink = .ok g'.sink ∧
      ∀ before, p.generateGroups recorder entry (Code.ofExpr entry.name e) template base groups (g.withSink before) =
        (.ok (), g'.withSink (before ++ rs)) := by
  induction groups generalizing g with
  | nil =>
    cases h
    exact ⟨[], rfl, List.forall_mem_nil _, rfl, fun before => by rw [List.append_nil]; rfl⟩
  | cons group groups ih =>
    obtain ⟨bindings, rows⟩ := group
    obtain ⟨hrows, hb⟩ := List.forall_mem_cons.mp hb
    unfold generateGroups at h
    split at h
    · rename_i g₁ hgroup
      obtain ⟨r, hsegment, hfits, haccept, hrecord⟩ := generateGroup_records hp he hrows hgroup
      obtain ⟨rs, hsegments, hrs, haccepts, hrecords⟩ := ih hb h
      refine ⟨r :: rs, congrArg₂ List.cons hsegment hsegments, List.forall_mem_cons.mpr ⟨hfits, hrs⟩,
        ?_, fun before => ?_⟩
      · rw [List.foldlM_cons, haccept, ok_bind, haccepts]
      · rw [generateGroups, hrecord before]
        dsimp only
        rw [hrecords, List.append_assoc, List.singleton_append]
    · cases h

omit [Scalar α] in
lemma groupsOf_objective {name : String} {code : Code} {groups : List (List Binding × List Row)}
    (h : p.groupsOf name template = .ok (entry, code, groups)) {sense : Sense} {weight : α}
    (hkind : template.kind = .objective sense weight) :
    p.index.entry name = .ok entry ∧ ∃ rows, p.readRows entry = .ok rows ∧ groups = [([], rows)] := by
  unfold groupsOf at h
  rw [bind_eq_ok] at h
  obtain ⟨entry', hentry, h⟩ := h
  split at h
  · cases h
  · rw [hkind] at h
    dsimp only at h
    split at h
    · cases h
    · rename_i hfree
      obtain hfree : entry'.free = [] := by simpa using hfree
      simp only [hfree, columnsOf, List.mapM_nil, bind_eq_ok, pure_eq_ok, Except.ok.injEq, Prod.mk.injEq] at h
      obtain ⟨rows, hrows, columns, rfl, rfl, -, rfl⟩ := h
      refine ⟨hentry, rows, hrows, ?_⟩
      cases rows <;> rfl

lemma generate_records (hp : p.Indexed) {j : Job α} {n : Nat} {g g' : Generation σ}
    (h : p.generate sink j.equation j.segment g = (.ok n, g')) :
    ∃ rs : List (Record α), j.Yields p p.offsets.keys.length rs ∧ rs.foldlM sink.accept g.sink = .ok g'.sink ∧
      ∀ before, p.generate recorder j.equation j.segment (g.withSink before) = (.ok n, g'.withSink (before ++ rs)) := by
  obtain ⟨name, segment⟩ := j
  unfold generate at h ⊢
  cases hgroups : p.groupsOf name segment with
  | error e =>
    simp only [hgroups] at h
    cases h
  | ok x =>
    obtain ⟨entry, code, groups⟩ := x
    obtain ⟨hentry, hcode, -⟩ := groupsOf_eq_ok hgroups
    obtain ⟨-, rfl⟩ := hp.entry_name hentry
    rw [hp.get?_codes, Option.map_eq_some_iff] at hcode
    obtain ⟨e, he, rfl⟩ := hcode
    simp only [hgroups] at h
    rcases hrun : p.generateGroups sink entry
      (Code.ofExpr entry.name e) segment g.scope.frame groups g with ⟨e | ⟨⟩, g₁⟩
    · rw [hrun] at h
      cases h
    · rw [hrun] at h
      cases h
      obtain ⟨rs, hsegments, hfits, haccepts, hrecords⟩ := generateGroups_records hp he
        (fun group hgroup => length_groupsOf hgroups hgroup) hrun
      refine ⟨rs, ⟨?_, hfits, fun sense weight hkind => ?_⟩, haccepts, fun before => ?_⟩
      · rw [hsegments, segmentsOf, hgroups]
      · obtain ⟨-, rows, -, rfl⟩ := groupsOf_objective hgroups hkind
        simpa using congrArg List.length hsegments
      · have hframe : (g.withSink before).scope.frame = g.scope.frame := rfl
        simp only [hframe, hrecords]
        rfl

end Program

theorem Build.generateEach_records {p : Program} (hp : p.Indexed) {sink : Sink α σ} {jobs : List (Job α)}
    {g : Generation σ} {s : σ} (h : generateEach p sink jobs g = .ok s) :
    ∃ rss : List (List (Record α)), List.Forall₂ (Job.Yields p p.offsets.keys.length) jobs rss ∧
      rss.flatten.foldlM sink.accept g.sink = .ok s ∧
      ∀ before, generateEach p recorder jobs (g.withSink before) = .ok (before ++ rss.flatten) := by
  -- The frame and the memo after a job do not depend on the sink, so the next job starts alike.
  induction jobs generalizing g with
  | nil =>
    cases h
    exact ⟨[], .nil, rfl, fun before => by rw [List.flatten_nil, List.append_nil]; rfl⟩
  | cons j jobs ih =>
    unfold generateEach at h
    split at h
    · rename_i n g₁ hgenerate
      obtain ⟨rs, hyields, haccepts, hrecords⟩ := Program.generate_records hp hgenerate
      obtain ⟨rss, hrss, haccept, hrecord⟩ := ih h
      refine ⟨rs :: rss, .cons hyields hrss, ?_, fun before => ?_⟩
      · rw [List.flatten_cons, List.foldlM_append, haccepts, ok_bind, haccept]
      · rw [generateEach, hrecords before]
        dsimp only
        rw [hrecord, List.flatten_cons, List.append_assoc]
    · cases h

end LandUse
