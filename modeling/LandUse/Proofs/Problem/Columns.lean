import LandUse.Problem.Build
import LandUse.Proofs.Expansion.References
import LandUse.Proofs.Problem.Jobs
import Mathlib.Data.List.Basic

namespace LandUse

open Outcome

namespace Offsets

variable {c : Catalog}
variable {o o' : Offsets} {memo memo' : Catalog.Memo}

lemma enumerate_eq {v : Variable} (h : (enumerate c o v).run memo = (.ok o', memo')) :
    ∃ added, o'.entries = o.entries ++ added ∧
      o'.keys = o.keys ++ added.map VariableInstance.key ∧ ∀ a ∈ added, a.kind = v.kind := by
  change result (enumerate c o v) memo = _ at h
  rw [enumerate, result_bind] at h
  rcases hvalues : result (v.dimensions.mapM c.values) memo with ⟨e | values, memo₁⟩
  · rw [hvalues] at h
    cases h
  · rw [hvalues] at h
    cases h
    refine ⟨_, rfl, rfl, fun a ha => ?_⟩
    obtain ⟨t, -, rfl⟩ := List.mem_map.mp ha
    rfl

lemma enumerateEach_eq {vs : List Variable} (h : enumerateEach c o memo vs = (.ok (), o', memo')) :
    ∃ added, o'.entries = o.entries ++ added ∧
      o'.keys = o.keys ++ added.map VariableInstance.key ∧ ∀ a ∈ added, ∃ v ∈ vs, a.kind = v.kind := by
  induction vs generalizing o memo with
  | nil =>
    cases h
    exact ⟨[], by simp, by simp, List.forall_mem_nil _⟩
  | cons v vs ih =>
    unfold enumerateEach at h
    split at h
    · rename_i o₁ memo₁ henumerate
      obtain ⟨first, hentries, hkeys, hfirst⟩ := enumerate_eq henumerate
      obtain ⟨rest, hentries', hkeys', hrest⟩ := ih h
      refine ⟨first ++ rest, ?_, ?_, ?_⟩
      · rw [hentries', hentries, List.append_assoc]
      · rw [hkeys', hkeys, List.map_append, List.append_assoc]
      · intro a ha
        rcases List.mem_append.mp ha with ha | ha
        · exact ⟨v, List.mem_cons_self, hfirst a ha⟩
        · obtain ⟨w, hw, hkind⟩ := hrest a ha
          exact ⟨w, List.mem_cons_of_mem _ hw, hkind⟩
    · cases h

lemma enumerateEach_append {vs ws : List Variable} (h : enumerateEach c o memo (vs ++ ws) = (.ok (), o', memo')) :
    ∃ o₁ memo₁,
      enumerateEach c o memo vs = (.ok (), o₁, memo₁) ∧ enumerateEach c o₁ memo₁ ws = (.ok (), o', memo') := by
  induction vs generalizing o memo with
  | nil => exact ⟨o, memo, rfl, h⟩
  | cons v vs ih =>
    rw [List.cons_append] at h
    unfold enumerateEach at h
    split at h
    · rename_i henumerate
      obtain ⟨o₁, memo₁, hvs, hws⟩ := ih h
      refine ⟨o₁, memo₁, ?_, hws⟩
      rw [enumerateEach, henumerate]
      exact hvs
    · cases h

structure Sorted (o : Offsets) : Prop where
  keys : o.keys.length = o.entries.length
  split : ∃ reals discretes, o.entries = reals ++ discretes ∧ (∀ v ∈ reals, v.kind = .real) ∧
    ∀ v ∈ discretes, v.kind ≠ .real

lemma build_sorted (h : (build c o memo).1 = .ok ()) : (build c o memo).2.1.Sorted := by
  rcases hbuild : build c o memo with ⟨r, o', memo'⟩
  rw [hbuild] at h
  obtain rfl : r = .ok () := h
  unfold build ordered at hbuild
  obtain ⟨o₁, memo₁, hreals, hdiscretes⟩ := enumerateEach_append hbuild
  obtain ⟨reals, hentries, hkeys, hreal⟩ := enumerateEach_eq hreals
  obtain ⟨discretes, hentries', hkeys', hdiscrete⟩ := enumerateEach_eq hdiscretes
  rw [hentries, List.nil_append] at hentries'
  rw [hkeys, List.nil_append] at hkeys'
  refine ⟨by simp [hentries', hkeys'], reals, discretes, hentries', fun v hv => ?_, fun v hv => ?_⟩
  · obtain ⟨w, hw, hkind⟩ := hreal v hv
    rw [hkind]
    simpa using (List.mem_filter.mp hw).2
  · obtain ⟨w, hw, hkind⟩ := hdiscrete v hv
    rw [hkind]
    simpa using (List.mem_filter.mp hw).2

lemma Sorted.discrete_iff (h : o.Sorted) {i : Nat} {v : VariableInstance} (hi : o.entries[i]? = some v) :
    v.kind ≠ .real ↔ o.entries.length ≤ i + (o.entries.filter (·.kind != .real)).length := by
  obtain ⟨reals, discretes, hentries, hreals, hdiscretes⟩ := h.split
  have hcount : (o.entries.filter (·.kind != .real)).length = discretes.length := by
    rw [hentries, List.filter_append, List.filter_eq_nil_iff.mpr (by simpa using hreals),
      List.filter_eq_self.mpr (by simpa using hdiscretes), List.nil_append]
  rw [hcount]
  rw [hentries] at hi ⊢
  rw [List.length_append]
  by_cases hlt : i < reals.length
  · rw [List.getElem?_append_left hlt] at hi
    have hkind := hreals v (List.mem_of_getElem? hi)
    simp only [hkind]
    constructor
    · exact fun h => absurd rfl h
    · omega
  · rw [List.getElem?_append_right (by omega)] at hi
    have hkind := hdiscretes v (List.mem_of_getElem? hi)
    constructor
    · omega
    · exact fun _ => hkind

end Offsets

lemma Program.make_sorted {s : Settings} {t : Table} {condition : String} {p : Program} {memo : Catalog.Memo}
    (h : make s t condition = .ok (p, memo)) : p.offsets.Sorted := by
  simp only [make, bind_eq_ok, pure_eq_ok, Except.ok.injEq, Prod.mk.injEq] at h
  obtain ⟨index, -, catalog, -, declared, -, ⟨⟩, hbuilt, trees, -, rfl, -⟩ := h
  exact Offsets.build_sorted hbuilt

lemma modify_last {β : Type} (l : List β) (a : β) (f : β → β) : (l ++ [a]).modify l.length f = l ++ [f a] := by
  induction l with
  | nil => rfl
  | cons b l ih => rw [List.cons_append, List.length_cons, List.modify_succ_cons, ih, List.cons_append]

variable {α : Type} [Scalar α]

namespace Build

def column (b : Build α) (v : VariableInstance) : MatrixColumn :=
  ⟨b.program.offsets.nameOf v, v.kind, (b.bounds v).1, (b.bounds v).2⟩

variable {b : Build α}

omit [Scalar α] in
lemma columns_eq {m : Matrix α} (h : b.columns = .ok m) :
    m = { columns := b.program.offsets.entries.map b.column } := by
  have hfold : ∀ (vs : List VariableInstance) (m₀ m : Matrix α), vs.foldlM (fun m v => do
      let x ← m.addColumn (b.program.offsets.nameOf v) v.kind
      return x.2.bound x.1 (b.bounds v).1 (b.bounds v).2) m₀ = .ok m →
      m = { m₀ with columns := m₀.columns ++ vs.map b.column } := by
    intro vs
    induction vs with
    | nil =>
      rintro m₀ m ⟨⟩
      simp
    | cons v vs ih =>
      intro m₀ m h
      rw [List.foldlM_cons, bind_eq_ok] at h
      obtain ⟨m₁, hm₁, h⟩ := h
      rw [ih m₁ m h]
      simp only [bind_eq_ok] at hm₁
      obtain ⟨⟨i, m₂⟩, hadd, hm₁⟩ := hm₁
      cases hm₁
      unfold Matrix.addColumn at hadd
      split at hadd <;> cases hadd
      simp only [Matrix.bound, modify_last, List.map_cons, List.append_assoc, List.singleton_append]
      rfl
  exact hfold _ {} m h

lemma matrix_eq_ok {m : Matrix α} (h : b.matrix = .ok m) : ∃ s, b.run RowSink.sink
    { matrix := { columns := b.program.offsets.entries.map b.column } } = .ok s ∧ s.matrix = m := by
  simp only [matrix, bind_eq_ok, pure_eq_ok, Except.ok.injEq] at h
  obtain ⟨m₀, hm₀, s, hs, rfl⟩ := h
  rw [columns_eq (orFault_eq_ok.mp hm₀)] at hs
  exact ⟨s, hs, rfl⟩

def guess (b : Build α) (v : VariableInstance) : Float := initialValue (b.bounds v).1 (b.bounds v).2

lemma document_eq {d : Nl.Document α} (h : b.document = .ok d) : ∃ s, b.run Nl.BodySink.sink {} = .ok s ∧
    d = { s.document with
      bounds := s.document.bounds ++ b.program.offsets.entries.map b.bounds
      initial := b.program.offsets.entries.zipIdx.foldl (fun cs x => cs.set x.2 (b.guess x.1)) s.document.initial
      discrete := (b.program.offsets.entries.filter (·.kind != .real)).length } := by
  simp only [document, bind_eq_ok, pure_eq_ok, Except.ok.injEq] at h
  obtain ⟨s, hs, rfl⟩ := h
  refine ⟨s, hs, ?_⟩
  have hfold : ∀ (vs : List VariableInstance) (n : Nat) (d₀ : Nl.Document α),
      (vs.zipIdx n).foldl (fun d x =>
        (d.addBounds (b.bounds x.1).1 (b.bounds x.1).2).setInitial x.2
          (initialValue (b.bounds x.1).1 (b.bounds x.1).2)) d₀ =
      { d₀ with
        bounds := d₀.bounds ++ vs.map b.bounds
        initial := (vs.zipIdx n).foldl (fun cs x => cs.set x.2 (b.guess x.1)) d₀.initial } := by
    intro vs
    induction vs with
    | nil => simp
    | cons v vs ih =>
      intro n d₀
      rw [List.zipIdx_cons, List.foldl_cons, ih]
      simp [Nl.Document.addBounds, Nl.Document.setInitial, guess]
  rw [hfold]
  rfl

lemma document_eq_ok {d : Nl.Document α} (h : b.document = .ok d) : ∃ s, b.run Nl.BodySink.sink {} = .ok s ∧
    d.bodies = s.document.bodies ∧ d.ranges = s.document.ranges ∧
    d.bounds = s.document.bounds ++ b.program.offsets.entries.map b.bounds ∧
    d.discrete = (b.program.offsets.entries.filter (·.kind != .real)).length := by
  obtain ⟨s, hs, rfl⟩ := document_eq h
  exact ⟨s, hs, rfl, rfl, rfl, rfl⟩

variable {config : Config} {s : Settings} {t : Table} {criteria : Dict (List String)}

lemma prepare_model (h : prepare config s t criteria = .ok b) :
    ∃ model : Model α, Model.make config (Area.convert config s t) s criteria = .ok model ∧ b.jobs = model.jobs ∧
      Program.make model.settings t (selection config t "") = .ok (b.program, b.memo) := by
  unfold prepare at h
  split at h
  · cases h
  · simp only [bind_eq_ok] at h
    obtain ⟨model, hmodel, -, -, ⟨program, memo⟩, hprogram, h⟩ := h
    cases h
    exact ⟨model, hmodel, rfl, hprogram⟩

lemma prepare_eq_ok (h : prepare config s t criteria = .ok b) :
    b.program.Indexed ∧ b.program.offsets.Sorted ∧ ∃ model : Model α, model.Composed ∧ b.jobs = model.jobs := by
  obtain ⟨model, hmodel, hjobs, hprogram⟩ := prepare_model h
  exact ⟨Program.make_indexed hprogram, Program.make_sorted hprogram, model, Model.make_composed hmodel, hjobs⟩

end Build

lemma Problem.prepare_eq_ok {p : Problem} {criteria : Dict (List String)} {b : Build α}
    (h : p.prepare criteria = .ok b) :
    ∃ t, p.table = some t ∧ Build.prepare p.config p.settings t criteria = .ok b := by
  unfold prepare at h
  split at h
  · cases h
  · rename_i t ht
    exact ⟨t, ht, orFault_eq_ok.mp h⟩

section Orders

variable {config : Config} {convert : AreaConverter α} {s : Settings} {t : Table}
  {criteria criteria' : Dict (List String)}

namespace Model

/-- Criteria that become the same parameter have the same fields. -/
def Unambiguous (criteria : Dict (List String)) : Prop :=
  ∀ x ∈ criteria, ∀ y ∈ criteria, criterionParameter x.1 = criterionParameter y.1 → x.2 = y.2

lemma Unambiguous.perm (h : Unambiguous criteria) (hcs : criteria'.Perm criteria) : Unambiguous criteria' :=
  fun x hx y hy => h x (hcs.mem_iff.1 hx) y (hcs.mem_iff.1 hy)

omit [Scalar α] in
lemma setParameter_comm {q q' : Parameter} (h : q.name = q'.name → q = q') (m : Model α) :
    (m.setParameter q).setParameter q' = (m.setParameter q').setParameter q := by
  by_cases hname : q.name = q'.name
  · rw [h hname]
  · simp only [setParameter, Dict.set_comm hname]

omit [Scalar α] in
lemma declare_perm (h : Unambiguous criteria) (hcs : criteria.Perm criteria') (m : Model α) :
    m.declare config criteria = m.declare config criteria' := by
  unfold declare
  dsimp only
  split
  · rfl
  · split
    · rfl
    · refine congrArg Except.ok (hcs.foldl_eq' (fun x hx y hy m => setParameter_comm (fun hname => ?_) m) _)
      rw [h x hx y hy hname, show criterionParameter x.1 = criterionParameter y.1 from hname]

lemma make_perm (h : Unambiguous criteria) (hcs : criteria.Perm criteria') :
    make config convert s criteria = make config convert s criteria' := by
  simp only [make, declare_perm h hcs]

end Model

lemma Build.prepare_perm (h : Model.Unambiguous criteria) (hcs : criteria.Perm criteria') :
    (Build.prepare config s t criteria : Except Failure (Build α)) = Build.prepare config s t criteria' := by
  simp only [prepare, Model.make_perm h hcs]

lemma Problem.prepare_perm (p : Problem) (h : Model.Unambiguous criteria) (hcs : criteria.Perm criteria') :
    (p.prepare criteria : Except Fault (Build α)) = p.prepare criteria' := by
  simp only [prepare, Build.prepare_perm h hcs]

end Orders

end LandUse
