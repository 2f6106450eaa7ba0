import LandUse.Proofs.Expansion.Contents
import LandUse.Proofs.Expansion.Simulation

/-! A sink receives the direct expansions of groups, whatever earlier generations have left behind. -/

namespace LandUse

open Outcome Direct

variable {α σ : Type} [Scalar α]

namespace Direct

def expansion (p : Program) (columns : List String) (depth : Nat) (name : String) (frame : Frame)
    (memo : Catalog.Memo) : Except Fault Unit × Trace α :=
  result (expandEquation p columns depth name ⟨frame, []⟩) ⟨memo, []⟩

end Direct

namespace Walk

variable {p : Program}

lemma simulates_walk (hp : p.Indexed) {columns : List String} {start : Scope} {name : String} {e : Expr}
    (he : p.trees.get? name = some e) {depth : Nat} (hd : p.trees.length ≤ depth) {here : Place} (hb : here.Bounded p) :
    Simulates p columns start here here [.code (e.code 0)] [] (p.equationSteps (p.trees.length + 1) name + 1)
      (expandEquation p columns depth name here : ExpandM α Unit) := by
  have hg := hp.grounded (hp.get?_trees.mp he).1
  have h : Simulates p columns start here here _ _ _ (expandEquation p columns depth name here : ExpandM α Unit) :=
    (simulates_equation hp hg hd (Nat.le_succ _) he hb [] []).before_silent (simulates_nil here [])
  rwa [List.append_nil] at h

theorem result_walk (hp : p.Indexed) (columns : List String) {name : String} {e : Expr}
    (he : p.trees.get? name = some e) {depth : Nat} (hd : p.trees.length ≤ depth) {frame : Frame}
    (hb : frame.rows.length ≤ p.catalog.table.rows.length) (scope : Scope) (memo : Catalog.Memo) :
    ∃ s : State α, result (p.walk columns name (e.code 0)) ⟨scope.restore frame, memo, []⟩ =
        ((expansion (α := α) p columns depth name frame memo).1, s) ∧
      Follows scope s (expansion p columns depth name frame memo).2 ∧
      ((expansion (α := α) p columns depth name frame memo).1 = .ok () →
        ∀ equation dim, s.scope.counter? equation dim = scope.counter? equation dim) := by
  have hbounded : Place.Bounded p ⟨frame, []⟩ := hb
  have hat : At scope ⟨frame, []⟩ (scope.restore frame) := ⟨rfl, fun _ _ => rfl⟩
  have hempty : Follows scope (⟨scope.restore frame, memo, []⟩ : State α) ⟨memo, []⟩ := ⟨rfl, .nil⟩
  have hsim : Simulates p columns scope ⟨frame, []⟩ ⟨frame, []⟩ _ _ _
    (expandEquation (α := α) p columns depth name _) :=
    simulates_walk hp he hd hbounded
  obtain ⟨n, hn, s, hs, hends⟩ := hsim hat hempty
  obtain ⟨fuel, hfuel⟩ := Nat.exists_eq_add_of_le' hn
  change Ends p columns scope _ _ _ n _ s (expansion (α := α) p columns depth name frame memo).1 at hends
  rw [Program.walk, hfuel]
  refine ⟨s, ?_⟩
  rcases hr : expansion (α := α) p columns depth name frame memo with ⟨e | ⟨⟩, t⟩
  all_goals rw [hr] at hends
  · exact ⟨hends fuel, hr ▸ hs, fun h => nomatch h⟩
  · exact ⟨by rw [hends.2, run]; rfl, hr ▸ hs, fun _ => hends.1.counter⟩

end Walk

def Segment.forGroup (template : Segment α) (bindings : List Binding) : Segment α :=
  { template with
    label := Segment.labelFor template.label (bindings.map fun b => b.value.toText)
    group := bindings }

section Sends

open Walk

variable (p : Program) (depth : Nat) (sink : Sink α σ) (entry : IndexEntry) (template : Segment α) (base : Frame)

inductive Sends : List Binding × List Row → Generation σ → Except Fault Unit → Generation σ → Prop
  | complete {bindings : List Binding} {rows : List Row} {g : Generation σ} {t : Trace α} {emitted : List (Emission α)}
      {outcome : Except Fault Unit} {state : σ} {scope : Scope} :
      expansion p entry.columns depth entry.name ⟨entry.name, base.bindings ++ bindings, rows⟩ g.memo = (.ok (), t) →
      List.Forall₂ (Records g.scope) emitted t.marks.reverse →
      sink.receive g.sink (template.forGroup bindings) emitted true = (outcome, state) →
      (∀ equation dim, scope.counter? equation dim = g.scope.counter? equation dim) →
      Sends (bindings, rows) g outcome ⟨scope, t.memo, state⟩
  | failed {bindings : List Binding} {rows : List Row} {g : Generation σ} {t : Trace α} {emitted : List (Emission α)}
      {outcome : Except Fault Unit} {state : σ} {scope : Scope} {e : Fault} :
      expansion p entry.columns depth entry.name ⟨entry.name, base.bindings ++ bindings, rows⟩ g.memo = (.error e, t) →
      List.Forall₂ (Records g.scope) emitted t.marks.reverse →
      sink.receive g.sink (template.forGroup bindings) emitted false = (outcome, state) →
      Sends (bindings, rows) g (.error e) ⟨scope, t.memo, state⟩

inductive SendsAll : List (List Binding × List Row) → Generation σ → Except Fault Unit → Generation σ → Prop
  | nil {g : Generation σ} : SendsAll [] g (.ok ()) g
  | cons {group : List Binding × List Row} {groups : List (List Binding × List Row)} {g g₁ g₂ : Generation σ}
      {outcome : Except Fault Unit} : Sends p depth sink entry template base group g (.ok ()) g₁ →
      SendsAll groups g₁ outcome g₂ → SendsAll (group :: groups) g outcome g₂
  | stop {group : List Binding × List Row} {groups : List (List Binding × List Row)} {g g₁ : Generation σ} {e : Fault} :
      Sends p depth sink entry template base group g (.error e) g₁ → SendsAll (group :: groups) g (.error e) g₁

variable {p depth entry}

lemma generateGroup_eq (code : Code) {bindings : List Binding} {rows : List Row} {g : Generation σ}
    {r received : Except Fault Unit} {s : State α} {state : σ}
    (hwalk : result (p.walk entry.columns entry.name code.tokens)
      ⟨g.scope.restore ⟨entry.name, base.bindings ++ bindings, rows⟩, g.memo, []⟩ = (r, s))
    (hreceive : sink.receive g.sink (template.forGroup bindings) s.emitted.reverse r.toBool = (received, state)) :
    p.generateGroup sink entry code template base bindings rows g =
      (r.bind fun _ => received, ⟨s.scope, s.memo, state⟩) := by
  have hrun : (p.walk (α := α) entry.columns entry.name code.tokens).run
      ⟨g.scope.restore ⟨entry.name, base.bindings ++ bindings, rows⟩, g.memo, []⟩ = (r, s) := hwalk
  unfold Segment.forGroup at hreceive
  simp only [Program.generateGroup, hrun, hreceive]
  cases r <;> rfl

lemma generateGroup_sends (hp : p.Indexed) (hd : p.trees.length ≤ depth) {e : Expr}
    (he : p.trees.get? entry.name = some e) (bindings : List Binding) {rows : List Row}
    (hb : rows.length ≤ p.catalog.table.rows.length) (g : Generation σ) : ∃ outcome g',
      p.generateGroup sink entry (Code.ofExpr entry.name e) template base bindings rows g = (outcome, g') ∧
      Sends p depth sink entry template base (bindings, rows) g outcome g' := by
  obtain ⟨s, hwalk, hs, hcounters⟩ := result_walk (α := α) hp entry.columns he hd
    (show (⟨entry.name, base.bindings ++ bindings, rows⟩ : Frame).rows.length ≤ _ from hb) g.scope g.memo
  have hemitted := List.forall₂_reverse_iff.mpr hs.emitted
  rcases hx : expansion (α := α) p entry.columns depth entry.name ⟨entry.name, base.bindings ++ bindings, rows⟩ g.memo
    with ⟨r, t⟩
  rw [hx] at hwalk hs hcounters hemitted
  rcases hreceive : sink.receive g.sink (template.forGroup bindings) s.emitted.reverse r.toBool with ⟨received, state⟩
  refine ⟨_, _, generateGroup_eq sink template base (Code.ofExpr entry.name e) hwalk hreceive, ?_⟩
  rw [hs.memo]
  cases r with
  | error e => exact .failed hx hemitted hreceive
  | ok _ => exact .complete hx hemitted hreceive (hcounters rfl)

theorem generateGroups_sendsAll (hp : p.Indexed) (hd : p.trees.length ≤ depth) {e : Expr}
    (he : p.trees.get? entry.name = some e) {groups : List (List Binding × List Row)}
    (hb : ∀ group ∈ groups, group.2.length ≤ p.catalog.table.rows.length) (g : Generation σ) : ∃ outcome g',
      p.generateGroups sink entry (Code.ofExpr entry.name e) template base groups g = (outcome, g') ∧
      SendsAll p depth sink entry template base groups g outcome g' := by
  induction groups generalizing g with
  | nil => exact ⟨_, _, rfl, .nil⟩
  | cons group groups ih =>
    obtain ⟨bindings, rows⟩ := group
    obtain ⟨hrows, hb⟩ := List.forall_mem_cons.mp hb
    obtain ⟨outcome, g₁, hgroup, hsends⟩ := generateGroup_sends sink template base hp hd he bindings hrows g
    unfold Program.generateGroups
    rw [hgroup]
    cases outcome with
    | error e => exact ⟨_, _, rfl, .stop hsends⟩
    | ok _ =>
      obtain ⟨outcome, g₂, hgroups, hall⟩ := ih hb g₁
      exact ⟨outcome, g₂, hgroups, .cons hsends hall⟩

end Sends

/-- Generation sends the direct expansions of the groups of an equation to the sink and gives the frame back. -/
theorem generate_sends_expansions (p : Program) (hp : p.Indexed) (depth : Nat) (hd : p.trees.length ≤ depth)
    (sink : Sink α σ) (name : String) (template : Segment α) (g : Generation σ) :
    match p.groupsOf name template with
    | .error e => p.generate sink name template g = (.error (.failure e), g)
    | .ok (entry, _, groups) =>
      (∃ outcome g', SendsAll p depth sink entry template g.scope.frame groups g outcome g' ∧
        p.generate sink name template g =
          (outcome.map fun _ => groups.length, { g' with scope := g'.scope.restore g.scope.frame })) ∧
      ∀ frame memo, (expansion (α := α) p entry.columns depth entry.name frame memo).1 = .error .violation →
        ∃ name param, p.settings.parameters.get? name = some param ∧ param.literal = none ∧ param.columns = [] := by
  unfold Program.generate
  cases hgroups : p.groupsOf name template with
  | error e => rfl
  | ok x =>
    obtain ⟨entry, code, groups⟩ := x
    obtain ⟨hentry, hcode, -⟩ := Program.groupsOf_eq_ok hgroups
    obtain ⟨hmem, rfl⟩ := hp.entry_name hentry
    rw [hp.get?_codes, Option.map_eq_some_iff] at hcode
    obtain ⟨e, he, rfl⟩ := hcode
    obtain ⟨outcome, g', hrun, hsends⟩ := generateGroups_sendsAll sink template g.scope.frame hp hd he
      (fun group hgroup => Program.length_groupsOf hgroups hgroup) g
    refine ⟨⟨outcome, g', hsends, ?_⟩, fun frame memo h => ?_⟩
    · simp only [hrun]
    · exact (sound_expandEquation hd (hp.grounded hmem) _ _ (List.forall_mem_nil _)).2 _ h

def nestedSums : Settings where
  options := ["forest", "arable"]
  equations := [("total", "sum\x7bOPTIONS\x7d(X[OPTIONS])"),
    ("twice", "sum\x7bOPTIONS\x7d(X[OPTIONS] * sum\x7bOPTIONS\x7d(X[OPTIONS])) - total")]
  decisions := [⟨"X", ["OPTIONS"], 0, 1, true, .real⟩]

def counterSink : Sink Float (List (Option Nat)) where
  receive counters _ emitted _ := (.ok (), counters ++ emitted.map (·.scope.counter? "twice" "OPTIONS"))

def staleCounter : Generation (List (Option Nat)) := { scope := ⟨{}, [(("twice", "OPTIONS"), 7)]⟩, sink := [] }

def nestedSegment : Segment Float := ⟨"twice", .constraint .le 0, []⟩

theorem nested_sums_sent : ∃ p memo entry groups g', Program.make nestedSums ⟨"units", [], []⟩ "" = .ok (p, memo) ∧
    SendsAll p 2 counterSink entry nestedSegment {} groups staleCounter (.ok ()) g' ∧
    groups.length = 1 ∧ g'.sink = [some 7, some 7, some 1, some 1, some 1, some 1, some 2, some 2, some 2, some 2,
      some 1, some 2, some 7, some 7, some 7] := by
  have hrun : (match Program.make nestedSums ⟨"units", [], []⟩ "" with
      | .error _ => false
      | .ok (p, _) => p.trees.length == 2 &&
        match p.generate counterSink "twice" nestedSegment staleCounter with
        | (.ok n, g) => n == 1 && g.sink == [some 7, some 7, some 1, some 1, some 1, some 1, some 2, some 2, some 2,
            some 2, some 1, some 2, some 7, some 7, some 7]
        | (.error _, _) => false) = true := by decide +kernel
  split at hrun
  case h_1 => cases hrun
  case h_2 p memo hmake =>
    rw [Bool.and_eq_true, beq_iff_eq] at hrun
    obtain ⟨hlength, hrun⟩ := hrun
    have hsends := generate_sends_expansions p (Program.make_indexed hmake) 2 (Nat.le_of_eq hlength) counterSink "twice"
      nestedSegment staleCounter
    split at hsends
    case h_1 e _ =>
      rw [hsends] at hrun
      cases hrun
    case h_2 entry code groups _ =>
      obtain ⟨⟨outcome, g', hsent, hgenerate⟩, -⟩ := hsends
      rw [hgenerate] at hrun
      cases outcome with
      | error e => cases hrun
      | ok _ =>
        simp only [Except.map, Bool.and_eq_true, beq_iff_eq] at hrun
        exact ⟨p, memo, entry, groups, g', hmake, hsent, hrun⟩

end LandUse
