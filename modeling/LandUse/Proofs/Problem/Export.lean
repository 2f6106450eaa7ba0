import LandUse.Proofs.Linear.Naming
import LandUse.Proofs.Problem.Assembly
import LandUse.Proofs.Problem.Parts
import LandUse.Proofs.Problem.Units

namespace LandUse

open Outcome

namespace Model

lemma make_decisions {α : Type} [Scalar α] {config : Config} {convert : AreaConverter α} {s : Settings}
    {criteria : Dict (List String)} {m : Model α} (h : make config convert s criteria = .ok m) :
    m.settings.decisions = s.decisions ++ if isClassic s then decisions config s else [] := by
  obtain ⟨_, -, -, hsettings⟩ := make_eq h
  rw [hsettings]

end Model

namespace MatrixColumn

lemma writable_open (name : String) (kind : VariableKind) :
    (⟨name, kind, 0, Number.infinity⟩ : MatrixColumn).Writable :=
  .inr ⟨.inr Number.isFinite_zero, .inl (show LpText.isInfinite Number.infinity false = true by decide +kernel)⟩

lemma writable_decisions {config : Config} {s : Settings} {v : Variable} (hv : v ∈ Model.decisions config s)
    (name : String)
    (kind : VariableKind) : (⟨name, kind, v.lower, v.upper⟩ : MatrixColumn).Writable := by
  have hunit : (⟨name, kind, 0, 1⟩ : MatrixColumn).Writable :=
    .inr ⟨.inr Number.isFinite_zero, .inr (show (1 : Float).isFinite = true by decide +kernel)⟩
  simp only [Model.decisions, List.mem_cons, List.not_mem_nil, or_false] at hv
  rcases hv with rfl | rfl
  · dsimp only
    split_ifs
    · exact hunit
    · exact writable_open name kind
  · exact hunit

end MatrixColumn

def Segment.Plain {α : Type} (segment : Segment α) : Prop :=
  segment.group ≠ [] ∧ ∀ b ∈ segment.group, ∀ c ∈ b.value.toText.toList, c.isAlphanum = true

lemma Program.alike_segments_iff {α : Type} {p : Program} {j : Job α} {g g' : Segment α} (hg : g ∈ p.segmentsOf j)
    (hg' : g' ∈ p.segmentsOf j) (hplain : g.Plain) (hplain' : g'.Plain) : LpText.Alike g.label g'.label ↔
      g.group.map (·.value.toText) = g'.group.map (·.value.toText) := by
  have horigin {g : Segment α} (hg : g ∈ p.segmentsOf j) : ∃ bindings, g = j.segment.forGroup bindings := by
    rw [segmentsOf] at hg
    split at hg
    · obtain ⟨group, -, rfl⟩ := List.mem_map.1 hg
      exact ⟨group.1, rfl⟩
    · cases hg
  obtain ⟨bindings, rfl⟩ := horigin hg
  obtain ⟨bindings', rfl⟩ := horigin hg'
  refine Segment.alike_labelFor_iff j.segment.label (List.map_eq_nil_iff.not.2 hplain.1)
    (List.map_eq_nil_iff.not.2 hplain'.1) ?_ ?_
  · exact List.forall_mem_map.2 hplain.2
  · exact List.forall_mem_map.2 hplain'.2

namespace Problem

variable {p : Problem} {criteria : Dict (List String)} {b : Build Float} {m : Matrix Float}

lemma unwritable_declared (hb : p.prepare criteria = .ok b) {v : VariableInstance} (hv : ¬ (b.column v).Writable) :
    ∃ d ∈ p.settings.decisions, d.hasBounds = true ∧ d.lower = (b.column v).lower ∧ d.upper = (b.column v).upper := by
  obtain ⟨t, -, ht⟩ := prepare_eq_ok hb
  obtain ⟨model, hmodel, -, hprogram⟩ := Build.prepare_model ht
  have hdeclared : b.program.offsets.declared = _ :=
    (Offsets.make_offsets hprogram).1.trans (Model.make_decisions hmodel)
  simp only [Build.column, Build.bounds] at hv ⊢
  cases hd : b.program.offsets.declaration? v.name with
  | none =>
    rw [hd] at hv
    exact absurd (MatrixColumn.writable_open _ _) hv
  | some d =>
    rw [hd, Build.boundsOf] at hv
    rw [Build.boundsOf]
    split_ifs at hv ⊢ with hbounds
    · refine ⟨d, ?_, hbounds, rfl, rfl⟩
      have hmem : d ∈ b.program.offsets.declared := List.mem_of_find?_eq_some hd
      rw [hdeclared] at hmem
      refine (List.mem_append.1 hmem).resolve_right fun hmodel => ?_
      split_ifs at hmodel
      · exact hv (MatrixColumn.writable_decisions hmodel _ _)
      · cases hmodel
    · exact absurd (MatrixColumn.writable_open _ _) hv

/-- A linear program can be written just if its coefficients and right hand sides are finite, and its bounds finite
or open. -/
theorem written_iff_writable (h : p.matrix criteria = .ok m) :
    ((∃ s, m.text = .ok s) ↔ m.Writable) ∧ (m.text = .error .violation ↔ ¬ m.Writable) ∧
    ∀ c ∈ m.columns, ¬ c.Writable →
      ∃ d ∈ p.settings.decisions, d.hasBounds = true ∧ d.lower = c.lower ∧ d.upper = c.upper := by
  obtain ⟨b, hb, hm⟩ := matrix_eq_ok h
  have hbuilt := matrix_assembled hb hm
  have hcolumns : m.InColumns m.objective := by
    intro a ha
    rw [Matrix.hasColumn_iff, hbuilt.columns, List.length_map]
    exact (hbuilt.sound.objective a ha).2
  have hiff : (∃ s, m.text = .ok s) ↔ m.Writable := hbuilt.sound.text_ok_iff.trans (and_iff_right hcolumns)
  refine ⟨hiff, ?_, fun c hc hcw => ?_⟩
  · rw [← hiff]
    cases htext : m.text with
    | ok s => simp
    | error f =>
      obtain rfl := Matrix.text_error htext
      simp
  · rw [hbuilt.columns] at hc
    obtain ⟨v, -, rfl⟩ := List.mem_map.1 hc
    exact unwritable_declared hb hcw

def endless : Problem where
  config := {}
  settings := {
    options := ["forest", "arable"]
    equations := [("share", "X[forest]")]
    decisions := [⟨"X", ["OPTIONS"], 0, Number.infinity, true, .real⟩]
    constraints := [⟨"limit", "share", .le, Number.infinity⟩] }
  table := some ⟨"units", [], []⟩

theorem endless_unwritten : ∃ m : Matrix Float, endless.matrix = .ok m ∧ ¬ m.Writable ∧ m.text = .error .violation := by
  have hrun : (match (endless.matrix : Except Fault (Matrix Float)) with
      | .ok m => m.rows.any fun r => !r.rhs.isFinite
      | .error _ => false) = true := by decide +kernel
  split at hrun
  case h_1 m hm =>
    have hinfinite : ¬ m.Writable := by
      intro hw
      obtain ⟨r, hr, hrhs⟩ := List.any_eq_true.1 hrun
      simp [(hw.rows r hr).2] at hrhs
    exact ⟨m, hm, hinfinite, (written_iff_writable hm).2.1.2 hinfinite⟩
  case h_2 => cases hrun

/-- The text confuses just the names that have the same letters and digits in the same places. -/
theorem written_apart (hb : p.prepare criteria = .ok b) (hm : b.matrix = .ok m) :
    m.columns.map (·.name) = b.program.offsets.names ∧ (m.columns.map (·.name)).Nodup ∧
    m.rows.map (·.name) = b.jobs.flatMap b.program.labelsOf ∧
    (∀ (i j : Nat) (c d : MatrixColumn) (x : Float), m.columns[i]? = some c → m.columns[j]? = some d →
      x.isFinite = true →
      (LpText.term m i x = LpText.term m j x ↔ LpText.Alike c.name d.name)) ∧
    ((∀ c ∈ m.columns, ∀ x ∈ c.name.toList, LpText.isNameChar x = true) →
      (m.columns.map fun c => LpText.nameText c.name).Nodup) ∧
    (∀ r ∈ m.rows, ∀ r' ∈ m.rows, ∀ s s', LpText.row m r = .ok s → LpText.row m r' = .ok s' →
      (LpText.label s = LpText.label s' ↔ LpText.Alike r.name r'.name)) ∧
    ∀ j ∈ b.jobs, ∀ g ∈ b.program.segmentsOf j, ∀ g' ∈ b.program.segmentsOf j, g.Plain → g'.Plain →
      (LpText.Alike g.label g'.label ↔ g.group.map (·.value.toText) = g'.group.map (·.value.toText)) := by
  have hbuilt := matrix_assembled hb hm
  refine ⟨?_, hbuilt.sound.names, hbuilt.labels, fun i j c d x hc hd hx => LpText.term_eq_iff hc hd hx,
    fun hchars => ?_,
    fun r _ r' _ s s' hs hs' => LpText.label_eq_iff hs hs',
    fun j _ g hg g' hg' hplain hplain' => Program.alike_segments_iff hg hg' hplain hplain'⟩
  · rw [hbuilt.columns, List.map_map]
    rfl
  · rw [List.map_congr_left fun c hc => LpText.nameText_eq_self (hchars c hc)]
    exact hbuilt.sound.names

def confusable : Problem where
  config := {}
  settings := {
    options := ["forest"]
    equations := [("share", "a_b[forest]")]
    decisions := [⟨"a-b", ["OPTIONS"], 0, 9, true, .real⟩, ⟨"a_b", ["OPTIONS"], 0, 9, true, .real⟩]
    constraints := [⟨"c-1", "share", .le, 5⟩, ⟨"c_1", "share", .ge, 1⟩] }
  table := some ⟨"units", [], []⟩

theorem confusable_merged : ∃ (b : Build Float) (m : Matrix Float), confusable.prepare = .ok b ∧ b.matrix = .ok m ∧
    m.columns.map (·.name) = ["a-b_1", "a_b_1"] ∧ m.rows.map (·.name) = ["c-1", "c_1"] ∧
    LpText.term m 0 2 = LpText.term m 1 2 := by
  have hrun : (match (confusable.prepare : Except Fault (Build Float)) with
      | .ok b =>
        match b.matrix with
        | .ok m => decide (m.columns.map (·.name) = ["a-b_1", "a_b_1"] ∧ m.rows.map (·.name) = ["c-1", "c_1"])
        | .error _ => false
      | .error _ => false) = true := by decide +kernel
  split at hrun
  case h_2 => cases hrun
  case h_1 b hb =>
    split at hrun
    case h_2 => cases hrun
    case h_1 m hm =>
      obtain ⟨hcolumns, hrows⟩ := of_decide_eq_true hrun
      have hname (i : Nat) (name : String) (hi : (m.columns.map (·.name))[i]? = some name) :
          ∃ c, m.columns[i]? = some c ∧ c.name = name := by
        rwa [List.getElem?_map, Option.map_eq_some_iff] at hi
      obtain ⟨c, hc, hcname⟩ := hname 0 "a-b_1" (by rw [hcolumns]; rfl)
      obtain ⟨d, hd, hdname⟩ := hname 1 "a_b_1" (by rw [hcolumns]; rfl)
      obtain ⟨-, -, -, hterms, -⟩ := written_apart hb hm
      refine ⟨b, m, hb, hm, hcolumns, hrows, (hterms 0 1 c d 2 hc hd (by decide +kernel)).2 ?_⟩
      rw [hcname, hdname]
      exact LpText.nameText_eq_iff.1 (by decide +kernel)

end Problem

end LandUse
