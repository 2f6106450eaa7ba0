import LandUse.Proofs.Problem.Columns
import LandUse.Proofs.Table.Distinct
import LandUse.Proofs.Table.Stored

namespace LandUse

open Outcome

namespace Catalog

def Selected (c : Catalog) (cells : List Cell) : Prop :=
  ∃ rows, c.table.selected? c.condition = some rows ∧ cells ∈ rows

inductive Occurs (c : Catalog) : String → Value → Prop
  | option {v : Value} : v ∈ c.optionValues → Occurs c optionsDimension v
  | cell {dim column : String} {cells : List Cell} : dim ≠ optionsDimension → c.columns.get? dim = some column →
      c.Selected cells → Occurs c dim (Table.readCell (c.table.cellOf column cells))

inductive Lists (c : Catalog) : String → List Value → Prop
  | options : Lists c optionsDimension c.optionValues
  | column {dim column : String} {vs : List Value} : dim ≠ optionsDimension → c.columns.get? dim = some column →
      c.table.distinctValues column c.condition = .ok vs → Lists c dim vs

lemma key_readCell {a b : Cell} (ha : a.Proper) (hb : b.Proper) (h : a.rank = b.rank) :
    (Table.readCell a).key = (Table.readCell b).key := by
  cases a with
  | none =>
    cases b with
    | none => rfl
    | some w => exact absurd h (WithBot.bot_ne_coe)
  | some v =>
    cases b with
    | none => exact absurd h (WithBot.coe_ne_bot)
    | some w => exact Value.key_eq_of_rank (ha v rfl) (hb w rfl) (WithBot.coe_injective h)

variable {c : Catalog}

lemma Lists.exists_key (hc : c.table.Proper) {dim : String} {vs : List Value} (h : c.Lists dim vs) {v : Value}
    (hv : c.Occurs dim v) : ∃ w ∈ vs, w.key = v.key := by
  cases h with
  | options =>
    cases hv with
    | option hv => exact ⟨v, hv, rfl⟩
    | cell hne => exact absurd rfl hne
  | @column dim column vs hne hget hvs =>
    cases hv with
    | option => exact absurd rfl hne
    | @cell _ column' cells _ hget' hsel =>
      obtain rfl : column' = column := Option.some.inj (hget'.symm.trans hget)
      obtain ⟨rows, hrows, hcells⟩ := hsel
      have hproper : ∀ row ∈ rows, (c.table.cellOf column' row).Proper := fun row hrow =>
        Table.proper_cellOf hc hrows hrow column'
      simp only [Table.distinctValues, Table.aggregate, hrows, ok_bind, pure_eq_ok, Except.ok.injEq] at hvs
      have htuples : ∀ x ∈ rows.map (fun r => [c.table.cellOf column' r]), Cell.ProperRow x := by
        intro x hx
        obtain ⟨row, hrow, rfl⟩ := List.mem_map.1 hx
        exact List.forall_mem_singleton.2 (hproper row hrow)
      obtain ⟨y, hy, hrank⟩ := Table.exists_mem_distinctTuples htuples (List.mem_map_of_mem hcells)
      obtain ⟨row, hrow, rfl⟩ := List.mem_map.1 (Table.mem_of_mem_distinctTuples hy)
      refine ⟨_, hvs ▸ List.mem_flatMap.2 ⟨_, hy, List.mem_singleton_self _⟩, ?_⟩
      exact key_readCell (hproper row hrow) (hproper cells hcells) (List.singleton_injective hrank)

lemma result_values (c : Catalog) (dim : String) (memo : Memo) : result (c.values dim) memo =
    match c.resolve dim with
    | .error e => (.error e, memo)
    | .ok ⟨_, none⟩ => (.ok c.optionValues, memo)
    | .ok ⟨_, some column⟩ =>
      match memo.values.get? dim with
      | some vs => (.ok vs, memo)
      | none =>
        match c.table.distinctValues column c.condition with
        | .error e => (.error e, memo)
        | .ok vs => (.ok vs, { memo with values := memo.values.set dim vs }) := by
  unfold values
  cases c.resolve dim with
  | error e => rfl
  | ok d =>
    obtain ⟨name, column?⟩ := d
    cases column? with
    | none => rfl
    | some column =>
      simp only [result_bind, result_liftM, proceed_ok, result_get]
      cases memo.values.get? dim with
      | some vs => rfl
      | none => cases c.table.distinctValues column c.condition <;> rfl

lemma values_cases (c : Catalog) (dim : String) (memo : Memo) :
    (result (c.values dim) memo).2 = memo ∨
      ∃ vs, result (c.values dim) memo = (.ok vs, { memo with values := memo.values.set dim vs }) := by
  rw [result_values]
  split
  · exact .inl rfl
  · exact .inl rfl
  · split
    · exact .inl rfl
    · split
      · exact .inl rfl
      · exact .inr ⟨_, rfl⟩

def ValuesKnown (c : Catalog) (m : Memo) : Prop := ∀ dim vs, m.values.get? dim = some vs → c.Lists dim vs

lemma values_lists {m m' : Memo} (hm : c.ValuesKnown m) {dim : String} {vs : List Value}
    (h : result (c.values dim) m = (.ok vs, m')) : c.Lists dim vs ∧ c.ValuesKnown m' := by
  unfold values resolve at h
  split at h
  · rename_i hdim
    obtain rfl := beq_iff_eq.1 hdim
    cases h
    exact ⟨.options, hm⟩
  · rename_i hdim
    have hdim : dim ≠ optionsDimension := fun h => hdim (beq_iff_eq.2 h)
    split at h
    · rename_i column hcolumn
      simp only [result_bind, result_liftM, proceed_ok, result_get] at h
      split at h
      · rename_i hvs
        cases h
        exact ⟨hm dim vs hvs, hm⟩
      · cases hd : c.table.distinctValues column c.condition with
        | error e => simp [hd] at h
        | ok vs' =>
          simp only [hd, result_liftM, result_bind, proceed_ok, result_modify, result_pure] at h
          cases h
          have hlists : c.Lists dim vs := .column hdim hcolumn hd
          refine ⟨hlists, fun d ws hws => ?_⟩
          simp only [Dict.get?_set] at hws
          split_ifs at hws with heq
          · cases hws
            exact heq ▸ hlists
          · exact hm d ws hws
    · cases h

lemma mapM_values_lists {dims : List String} {m m' : Memo} (hm : c.ValuesKnown m) {vss : List (List Value)}
    (h : result (dims.mapM c.values) m = (.ok vss, m')) : List.Forall₂ c.Lists dims vss ∧ c.ValuesKnown m' := by
  induction dims generalizing m m' vss with
  | nil =>
    cases h
    exact ⟨.nil, hm⟩
  | cons dim dims ih =>
    rw [List.mapM_cons, result_bind] at h
    rcases hvs : result (c.values dim) m with ⟨e | vs, m₁⟩
    · rw [hvs] at h
      cases h
    obtain ⟨hlists, hm₁⟩ := values_lists hm hvs
    rw [hvs, proceed_ok, result_bind] at h
    rcases hrest : result (dims.mapM c.values) m₁ with ⟨e | rest, m₂⟩
    · rw [hrest] at h
      cases h
    obtain ⟨hall, hm₂⟩ := ih hm₁ hrest
    rw [hrest] at h
    cases h
    exact ⟨.cons hlists hall, hm₂⟩

end Catalog

namespace Offsets

variable {c : Catalog}

lemma mem_tuples {t : List Value} {vss : List (List Value)} (h : List.Forall₂ (· ∈ ·) t vss) : t ∈ tuples vss := by
  induction h with
  | nil => exact List.mem_singleton_self []
  | @cons v vs t vss hv _ ih => exact List.mem_flatMap.2 ⟨v, hv, List.mem_map_of_mem ih⟩

def Numbers (c : Catalog) (o : Offsets) (v : Variable) : Prop :=
  ∃ vss, List.Forall₂ c.Lists v.dimensions vss ∧
    ∀ t ∈ tuples vss, VariableInstance.keyOf v.name (t.map some) ∈ o.keys

variable {o o' : Offsets} {v : Variable}

lemma enumerate_numbers {m m' : Catalog.Memo} (hm : c.ValuesKnown m) (h : (enumerate c o v).run m = (.ok o', m')) :
    c.ValuesKnown m' ∧ o.keys ⊆ o'.keys ∧ o'.Numbers c v := by
  change result (enumerate c o v) m = _ at h
  rw [enumerate, result_bind] at h
  rcases hvalues : result (v.dimensions.mapM c.values) m with ⟨e | vss, m₁⟩
  · rw [hvalues] at h
    cases h
  · obtain ⟨hlists, hm₁⟩ := Catalog.mapM_values_lists hm hvalues
    rw [hvalues] at h
    cases h
    refine ⟨hm₁, List.subset_append_left _ _, vss, hlists, fun t ht => List.mem_append_right _ ?_⟩
    rw [List.map_map]
    exact List.mem_map.2 ⟨t, ht, rfl⟩

lemma Numbers.mono (h : o.Numbers c v) (hsub : o.keys ⊆ o'.keys) : o'.Numbers c v := by
  obtain ⟨vss, hlists, hkeys⟩ := h
  exact ⟨vss, hlists, fun t ht => hsub (hkeys t ht)⟩

lemma enumerateEach_numbers {vs : List Variable} {m m' : Catalog.Memo} (hm : c.ValuesKnown m)
    (h : enumerateEach c o m vs = (.ok (), o', m')) : o.keys ⊆ o'.keys ∧ ∀ v ∈ vs, o'.Numbers c v := by
  induction vs generalizing o m with
  | nil =>
    cases h
    exact ⟨List.Subset.refl _, List.forall_mem_nil _⟩
  | cons v vs ih =>
    unfold enumerateEach at h
    split at h
    · rename_i o₁ m₁ henumerate
      obtain ⟨hm₁, hsub, hv⟩ := enumerate_numbers hm henumerate
      obtain ⟨hsub', hvs⟩ := ih hm₁ h
      exact ⟨List.Subset.trans hsub hsub', List.forall_mem_cons.2 ⟨hv.mono hsub', hvs⟩⟩
    · cases h

lemma mem_ordered (h : v ∈ o.declared) : v ∈ o.ordered := by
  unfold ordered
  by_cases hk : v.kind = .real
  · exact List.mem_append_left _ (List.mem_filter.2 ⟨h, by simp [hk]⟩)
  · exact List.mem_append_right _ (List.mem_filter.2 ⟨h, by simp [hk]⟩)

lemma declareAll_eq {vs : List Variable} (h : Program.declareAll vs = .ok o) : o.declared = vs := by
  have hfold : ∀ (vs : List Variable) (o o' : Offsets), vs.foldlM (fun o v => o.declare v) o = .ok o' →
      o'.declared = o.declared ++ vs := by
    intro vs
    induction vs with
    | nil =>
      rintro o _ ⟨⟩
      exact (List.append_nil _).symm
    | cons v vs ih =>
      intro o o' h
      rw [List.foldlM_cons, bind_eq_ok] at h
      obtain ⟨o₁, h₁, h⟩ := h
      unfold declare at h₁
      split at h₁ <;> cases h₁
      rw [ih _ o' h, List.append_assoc]
      rfl
  exact (hfold vs {} o h).trans (List.nil_append vs)

lemma offset_of_mem {name : String} {tuple : List Cell} (h : VariableInstance.keyOf name tuple ∈ o.keys) :
    ∃ k, o.offset name tuple = .ok k := by
  unfold offset
  cases hlast : lastIndex (VariableInstance.keyOf name tuple) o.keys with
  | some k => exact ⟨k, rfl⟩
  | none =>
    rw [lastIndex, Option.map_eq_none_iff, List.findIdx?_eq_none_iff] at hlast
    have hne := hlast _ (List.mem_reverse.2 h)
    rw [beq_self_eq_true] at hne
    cases hne

lemma exists_tuple (hc : c.table.Proper) {dims : List String} {vss : List (List Value)}
    (hlists : List.Forall₂ c.Lists dims vss) {cells : List Cell}
    (hcells : List.Forall₂ (fun d cell => ∃ w, cell = some w ∧ c.Occurs d w) dims cells) :
    ∃ t, List.Forall₂ (· ∈ ·) t vss ∧ (t.map some).map Cell.key = cells.map Cell.key := by
  induction hlists generalizing cells with
  | nil =>
    cases hcells
    exact ⟨[], .nil, rfl⟩
  | cons hlist _ ih =>
    cases hcells with
    | cons hcell hcells =>
      obtain ⟨w, rfl, hw⟩ := hcell
      obtain ⟨v, hv, hkey⟩ := hlist.exists_key hc hw
      obtain ⟨t, ht, hkeys⟩ := ih hcells
      exact ⟨v :: t, .cons hv ht, congrArg₂ List.cons hkey hkeys⟩

lemma Numbers.offset (hc : c.table.Proper) (h : o.Numbers c v) {cells : List Cell}
    (hcells : List.Forall₂ (fun d cell => ∃ w, cell = some w ∧ c.Occurs d w) v.dimensions cells) :
    ∃ k, o.offset v.name cells = .ok k := by
  obtain ⟨vss, hlists, hkeys⟩ := h
  obtain ⟨t, ht, hkey⟩ := exists_tuple hc hlists hcells
  have hmem := hkeys t (mem_tuples ht)
  rw [VariableInstance.keyOf, Cell.tupleKey, hkey] at hmem
  exact offset_of_mem hmem

end Offsets

lemma Catalog.make_eq {t : Table} {columns : Dict String} {options : List String} {condition : String} {c : Catalog}
    (h : make t columns options condition = .ok c) : c = ⟨t, columns, options, condition, fnv1a⟩ := by
  simp only [make, bind_eq_ok, pure_eq_ok, Except.ok.injEq] at h
  obtain ⟨-, -, rfl⟩ := h
  rfl

namespace Program

variable {s : Settings} {t : Table} {condition : String} {p : Program} {memo : Catalog.Memo}

lemma make_catalog (h : make s t condition = .ok (p, memo)) :
    p.settings = s ∧ p.catalog = ⟨t, s.dimensions, s.options, condition, fnv1a⟩ := by
  simp only [make, bind_eq_ok, pure_eq_ok, Except.ok.injEq, Prod.mk.injEq] at h
  obtain ⟨index, -, catalog, hcatalog, declared, -, -, -, trees, -, rfl, -⟩ := h
  exact ⟨rfl, Catalog.make_eq hcatalog⟩

lemma make_numbers (h : make s t condition = .ok (p, memo)) {v : Variable} (hv : v ∈ s.decisions) :
    p.offsets.Numbers p.catalog v := by
  simp only [make, bind_eq_ok, pure_eq_ok, Except.ok.injEq, Prod.mk.injEq] at h
  obtain ⟨index, -, catalog, -, declared, hdeclared, ⟨⟩, hbuilt, trees, -, rfl, -⟩ := h
  rcases hbuild : declared.build catalog {} with ⟨r, o, m⟩
  rw [hbuild] at hbuilt
  obtain rfl : r = .ok () := hbuilt
  have hempty : catalog.ValuesKnown {} := fun _ _ h => by cases h
  refine (Offsets.enumerateEach_numbers hempty hbuild).2 v (Offsets.mem_ordered ?_)
  rwa [Offsets.declareAll_eq hdeclared]

end Program

end LandUse
