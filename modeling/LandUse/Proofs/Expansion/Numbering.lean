import LandUse.Proofs.Catalog.Keys
import LandUse.Proofs.Expansion.Instances

/-! The number of an instance is its place, and it is found from its name and the keys of its values. -/

namespace LandUse

open Outcome

namespace Catalog

variable {c : Catalog}

def listed (c : Catalog) (memo : Memo) (dim : String) : Except Failure (List Value) := (result (c.values dim) memo).1

def valueList (c : Catalog) (memo : Memo) (dim : String) : List Value :=
  match c.listed memo dim with
  | .ok vs => vs
  | .error _ => []

def Settled (c : Catalog) (memo : Memo) (dim : String) : Prop :=
  ∃ d, c.resolve dim = .ok d ∧ (d.column?.isSome → (memo.values.get? dim).isSome)

lemma listed_values (c : Catalog) (dim : String) (memo : Memo) (d : String) :
    c.listed (result (c.values dim) memo).2 d = c.listed memo d := by
  rcases values_cases c dim memo with h | ⟨vs, h⟩
  · rw [h]
  · have hdim : c.listed memo dim = .ok vs := congrArg Prod.fst h
    rw [h]
    by_cases hd : d = dim
    · subst hd
      rw [hdim]
      unfold listed at hdim ⊢
      rw [result_values] at hdim ⊢
      split at hdim
      · cases hdim
      · exact hdim
      · dsimp only
        rw [Dict.get?_set, if_pos rfl]
    · unfold listed
      rw [result_values, result_values]
      dsimp only
      rw [Dict.get?_set, if_neg hd]
      split
      · rfl
      · rfl
      · split
        · rfl
        · split <;> rfl

variable {dim : String} {memo : Memo}

lemma valueList_of_values {memo' : Memo} {vs : List Value} (h : result (c.values dim) memo = (.ok vs, memo')) :
    c.valueList memo dim = vs := by
  rw [valueList, listed, h]

lemma settled_of_values {memo' : Memo} {vs : List Value} (h : result (c.values dim) memo = (.ok vs, memo')) :
    c.Settled memo' dim := by
  rw [result_values] at h
  split at h
  · cases h
  · rename_i hresolve
    exact ⟨_, hresolve, fun hcolumn => nomatch hcolumn⟩
  · rename_i hresolve
    refine ⟨_, hresolve, fun _ => ?_⟩
    split at h
    · rename_i hget
      cases h
      rw [hget]
      rfl
    · split at h
      · cases h
      · cases h
        rw [Dict.get?_set, if_pos rfl]
        rfl

lemma Settled.values {memo : Memo} {d : String} (h : c.Settled memo d) (dim : String) :
    c.Settled (result (c.values dim) memo).2 d := by
  obtain ⟨dimension, hresolve, hget⟩ := h
  refine ⟨dimension, hresolve, fun hcolumn => ?_⟩
  rcases values_cases c dim memo with hm | ⟨vs, hm⟩
  · rw [hm]
    exact hget hcolumn
  · rw [hm, Dict.get?_set]
    split
    · rfl
    · exact hget hcolumn

lemma Settled.result (h : c.Settled memo dim) : result (c.values dim) memo = (.ok (c.valueList memo dim), memo) := by
  have hvalues : ∃ vs, Outcome.result (c.values dim) memo = (.ok vs, memo) := by
    obtain ⟨⟨name, column?⟩, hresolve, hget⟩ := h
    rw [result_values, hresolve]
    cases column? with
    | none => exact ⟨_, rfl⟩
    | some column =>
      obtain ⟨vs, hvs⟩ := Option.isSome_iff_exists.1 (hget rfl)
      exact ⟨vs, by simp only [hvs]⟩
  obtain ⟨vs, hvs⟩ := hvalues
  rw [hvs, valueList_of_values hvs]

end Catalog

namespace VariableInstance

def Plain (tuple : List Cell) : Prop := ∀ s, some (Value.text s) ∈ tuple → Number.Visible s

lemma visible_keys {tuple : List Cell} (h : Plain tuple) : ∀ k ∈ tuple.map Cell.key, Number.Visible k := by
  intro k hk
  obtain ⟨cell, hcell, rfl⟩ := List.mem_map.1 hk
  cases cell with
  | none => decide
  | some v => exact Value.visible_key fun s hs => h s (hs ▸ hcell)

lemma toList_key_ne_nil (cell : Cell) : cell.key.toList ≠ [] := by
  rcases cell with _ | v
  · decide
  · cases v <;> simp [Cell.key, Value.key]

def parts : List Cell → List (List Char)
  | [] => [[]]
  | cell :: cells => cell.key.toList :: cells.map (·.key.toList)

lemma toList_keyOf (name : String) (tuple : List Cell) :
    (keyOf name tuple).toList = name.toList ++ (parts tuple).flatMap (zeroChar :: ·) := by
  have hrest : ∀ (k : List Char) (ks : List (List Char)),
      [zeroChar].intercalate (k :: ks) = k ++ ks.flatMap (zeroChar :: ·) := by
    intro k ks
    induction ks generalizing k with
    | nil => simp
    | cons l ks ih =>
      rw [List.intercalate_cons_cons, ih, List.flatMap_cons, List.append_assoc, List.singleton_append]; rfl
  cases tuple with
  | nil => simp [keyOf, Cell.tupleKey, parts, zeroChar]
  | cons cell cells =>
    rw [keyOf, Cell.tupleKey, String.toList_append, String.toList_append, String.toList_intercalate,
      String.toList_singleton,
      List.map_cons, List.map_cons, List.map_map, parts, List.flatMap_cons, List.append_assoc]
    exact congrArg (name.toList ++ zeroChar :: ·) (hrest _ _)

lemma keys_of_parts {t u : List Cell} (h : parts t = parts u) : t.map Cell.key = u.map Cell.key := by
  have hmap : ∀ {a b : List Cell}, a.map (·.key.toList) = b.map (·.key.toList) → a.map Cell.key = b.map Cell.key := by
    intro a b hab
    have hlists := congrArg (List.map String.ofList) hab
    simpa [List.map_map, Function.comp_def] using hlists
  cases t with
  | nil =>
    cases u with
    | nil => rfl
    | cons cell cells => exact absurd (List.cons.inj h).1.symm (toList_key_ne_nil cell)
  | cons cell cells =>
    cases u with
    | nil => exact absurd (List.cons.inj h).1 (toList_key_ne_nil cell)
    | cons cell' cells' => exact hmap h

lemma keyOf_injective {name name' : String} {t u : List Cell} (hname : Number.Visible name)
    (hname' : Number.Visible name') (ht : Plain t) (hu : Plain u) (h : keyOf name t = keyOf name' u) :
    name = name' ∧ t.map Cell.key = u.map Cell.key := by
  have hparts : ∀ {t : List Cell}, Plain t → ∀ p ∈ parts t, zeroChar ∉ p := by
    intro t ht p hp
    cases t with
    | nil =>
      rw [List.mem_singleton.1 hp]
      exact List.not_mem_nil
    | cons cell cells =>
      obtain ⟨k, hk, rfl⟩ := List.mem_map.1 (show p ∈ (cell :: cells).map (·.key.toList) from hp)
      exact visible_keys ht _ (List.mem_map_of_mem hk)
  have hlists := congrArg String.toList h
  rw [toList_keyOf, toList_keyOf] at hlists
  obtain ⟨hn, hp⟩ := separated_unique hname hname' (hparts ht) (hparts hu) hlists
  exact ⟨String.toList_inj.1 hn, keys_of_parts hp⟩

end VariableInstance

namespace Offsets

variable {c : Catalog}

def instances (values : String → List Value) (v : Variable) : List VariableInstance :=
  (tuples (v.dimensions.map values)).map fun t => ⟨v.name, t, v.kind⟩

def extend (o : Offsets) (es : List VariableInstance) : Offsets :=
  { o with entries := o.entries ++ es, keys := o.keys ++ es.map (·.key) }

lemma extend_extend (o : Offsets) (es fs : List VariableInstance) : (o.extend es).extend fs = o.extend (es ++ fs) := by
  simp [extend]

structure LooksUp (c : Catalog) (dims : List String) (memo memo' : Catalog.Memo) : Prop where
  listed : ∀ d, c.listed memo' d = c.listed memo d
  keeps : ∀ d, c.Settled memo d → c.Settled memo' d
  settles : ∀ d ∈ dims, c.Settled memo' d

lemma LooksUp.nil (memo : Catalog.Memo) : LooksUp c [] memo memo := ⟨fun _ => rfl, fun _ h => h, List.forall_mem_nil _⟩

lemma LooksUp.append {ds es : List String} {m₁ m₂ m₃ : Catalog.Memo} (h : LooksUp c ds m₁ m₂)
    (h' : LooksUp c es m₂ m₃) :
    LooksUp c (ds ++ es) m₁ m₃ where
  listed d := (h'.listed d).trans (h.listed d)
  keeps d hd := h'.keeps d (h.keeps d hd)
  settles := List.forall_mem_append.2 ⟨fun d hd => h'.keeps d (h.settles d hd), h'.settles⟩

variable {memo memo' : Catalog.Memo} {vss : List (List Value)} {o o' : Offsets} {vs : List Variable}

lemma LooksUp.valueList {dims : List String} (h : LooksUp c dims memo memo') :
    c.valueList memo' = c.valueList memo := by
  funext d
  rw [Catalog.valueList, h.listed, Catalog.valueList]

lemma mapM_values {dims : List String} (h : result (dims.mapM c.values) memo = (.ok vss, memo')) :
    vss = dims.map (c.valueList memo) ∧ LooksUp c dims memo memo' := by
  induction dims generalizing memo vss with
  | nil =>
    cases h
    exact ⟨rfl, .nil _⟩
  | cons d dims ih =>
    rw [List.mapM_cons, result_bind] at h
    rcases hd : result (c.values d) memo with ⟨e | vs, memo₁⟩
    · rw [hd] at h
      cases h
    · have hfirst : LooksUp c [d] memo memo₁ := by
        have hlisted := Catalog.listed_values c d memo
        have hkeeps := fun d' (hd' : c.Settled memo d') => hd'.values d
        rw [hd] at hlisted hkeeps
        exact ⟨hlisted, hkeeps, List.forall_mem_singleton.2 (Catalog.settled_of_values hd)⟩
      rw [hd, proceed_ok, result_bind] at h
      rcases hdims : result (dims.mapM c.values) memo₁ with ⟨e | vss', memo₂⟩
      · rw [hdims] at h
        cases h
      · rw [hdims] at h
        cases h
        obtain ⟨rfl, hrest⟩ := ih hdims
        refine ⟨?_, hfirst.append hrest⟩
        rw [List.map_cons, Catalog.valueList_of_values hd, hfirst.valueList]

lemma enumerate_extends {v : Variable} (h : (enumerate c o v).run memo = (.ok o', memo')) :
    o' = o.extend (instances (c.valueList memo) v) ∧ LooksUp c v.dimensions memo memo' := by
  change result (enumerate c o v) memo = _ at h
  rw [enumerate, result_bind] at h
  rcases hvalues : result (v.dimensions.mapM c.values) memo with ⟨e | vss, memo₁⟩
  · rw [hvalues] at h
    cases h
  · rw [hvalues] at h
    cases h
    obtain ⟨rfl, hlooks⟩ := mapM_values hvalues
    exact ⟨rfl, hlooks⟩

lemma enumerateEach_extends (h : enumerateEach c o memo vs = (.ok (), o', memo')) :
    o' = o.extend (vs.flatMap (instances (c.valueList memo))) ∧ LooksUp c (vs.flatMap (·.dimensions)) memo memo' := by
  induction vs generalizing o memo with
  | nil =>
    cases h
    exact ⟨by simp [extend], .nil _⟩
  | cons v vs ih =>
    unfold enumerateEach at h
    split at h
    · rename_i o₁ memo₁ henumerate
      obtain ⟨rfl, hfirst⟩ := enumerate_extends henumerate
      obtain ⟨rfl, hrest⟩ := ih h
      refine ⟨?_, hfirst.append hrest⟩
      rw [extend_extend, hfirst.valueList, List.flatMap_cons]
    · cases h

lemma enumerateEach_settled (h : ∀ d ∈ vs.flatMap (·.dimensions), c.Settled memo d) (o : Offsets) :
    enumerateEach c o memo vs = (.ok (), o.extend (vs.flatMap (instances (c.valueList memo))), memo) := by
  have hdims : ∀ dims : List String, (∀ d ∈ dims, c.Settled memo d) →
      result (dims.mapM c.values) memo = (.ok (dims.map (c.valueList memo)), memo) := by
    intro dims
    induction dims with
    | nil => exact fun _ => rfl
    | cons d dims ih =>
      intro hall
      obtain ⟨hd, hall⟩ := List.forall_mem_cons.1 hall
      rw [List.mapM_cons, result_bind, hd.result, proceed_ok, result_bind, ih hall]
      rfl
  induction vs generalizing o with
  | nil => simp [enumerateEach, extend]
  | cons v vs ih =>
    rw [List.flatMap_cons, List.forall_mem_append] at h
    have henumerate : (enumerate c o v).run memo = (.ok (o.extend (instances (c.valueList memo) v)), memo) := by
      change result (enumerate c o v) memo = _
      rw [enumerate, result_bind, hdims v.dimensions h.1]
      rfl
    rw [enumerateEach, henumerate]
    dsimp only
    rw [ih h.2, extend_extend, List.flatMap_cons]

/-- The first value in which the tuples differ is listed earlier. -/
inductive LexBefore : List (List Value) → List Value → List Value → Prop
  | head {vs : List Value} {vss : List (List Value)} {v w : Value} {t u : List Value} :
      [v, w].Sublist vs → List.Forall₂ (· ∈ ·) t vss → List.Forall₂ (· ∈ ·) u vss →
      LexBefore (vs :: vss) (v :: t) (w :: u)
  | tail {vs : List Value} {vss : List (List Value)} {v : Value} {t u : List Value} :
      v ∈ vs → LexBefore vss t u → LexBefore (vs :: vss) (v :: t) (v :: u)

lemma mem_tuples_iff {t : List Value} : t ∈ tuples vss ↔ List.Forall₂ (· ∈ ·) t vss := by
  refine ⟨fun h => ?_, mem_tuples⟩
  induction vss generalizing t with
  | nil =>
    rw [List.mem_singleton.1 h]
    exact .nil
  | cons vs vss ih =>
    obtain ⟨v, hv, h⟩ := List.mem_flatMap.1 h
    obtain ⟨u, hu, rfl⟩ := List.mem_map.1 h
    exact .cons hv (ih hu)

lemma length_tuples (vss : List (List Value)) : (tuples vss).length = (vss.map (·.length)).prod := by
  induction vss with
  | nil => rfl
  | cons vs vss ih => simp [tuples, List.length_flatMap, ih]

lemma pairwise_tuples (vss : List (List Value)) : (tuples vss).Pairwise (LexBefore vss) := by
  induction vss with
  | nil => exact List.pairwise_singleton _ _
  | cons vs vss ih =>
    refine List.pairwise_flatMap.2 ⟨fun v hv => ?_, List.pairwise_iff_forall_sublist.2 fun {v w} hvw x hx y hy => ?_⟩
    · exact List.pairwise_map.2 (ih.imp fun h => .tail hv h)
    · obtain ⟨t, ht, rfl⟩ := List.mem_map.1 hx
      obtain ⟨u, hu, rfl⟩ := List.mem_map.1 hy
      exact .head hvw (mem_tuples_iff.1 ht) (mem_tuples_iff.1 hu)

lemma LexBefore.keys_ne {t u : List Value} (h : LexBefore vss t u) (hkeys : ∀ vs ∈ vss, (vs.map Value.key).Nodup) :
    t.map Value.key ≠ u.map Value.key := by
  induction h with
  | head hvw _ _ =>
    have hne := (List.pairwise_map.1 (hkeys _ List.mem_cons_self)).forall_sublist hvw
    exact fun h => hne (List.cons.inj h).1
  | tail _ _ ih => exact fun h => ih (fun vs hvs => hkeys vs (List.mem_cons_of_mem _ hvs)) (List.cons.inj h).2

lemma getElem?_of_lastIndex {key : String} {keys : List String} {i : Nat} (h : lastIndex key keys = some i) :
    keys[i]? = some key := by
  obtain ⟨j, hj, rfl⟩ := Option.map_eq_some_iff.1 h
  obtain ⟨hlt, hkey, -⟩ := List.findIdx?_eq_some_iff_getElem.1 hj
  rw [beq_iff_eq, List.getElem_reverse] at hkey
  rw [List.length_reverse] at hlt
  rw [List.getElem?_eq_getElem (by omega), hkey]

lemma offset_eq_ok (h : o.keys.Nodup) {name : String} {tuple : List Cell} {i : Nat} :
    o.offset name tuple = .ok i ↔ o.keys[i]? = some (VariableInstance.keyOf name tuple) := by
  have hsound : ∀ {i}, o.offset name tuple = .ok i → o.keys[i]? = some (VariableInstance.keyOf name tuple) := by
    intro i hi
    unfold offset at hi
    split at hi
    · rename_i hlast
      cases hi
      exact getElem?_of_lastIndex hlast
    · cases hi
  refine ⟨hsound, fun hi => ?_⟩
  obtain ⟨j, hj⟩ := offset_of_mem (List.mem_of_getElem? hi)
  rw [hj, (List.getElem?_inj (List.getElem?_eq_some_iff.1 hi).1 h).1 (hi.trans (hsound hj).symm)]

inductive Precedes (vs : List Variable) (values : String → List Value) : VariableInstance → VariableInstance → Prop
  | continuous {e f : VariableInstance} : e.kind = .real → f.kind ≠ .real → Precedes vs values e f
  | declared {e f : VariableInstance} {v w : Variable} : [v, w].Sublist vs → v.name = e.name → w.name = f.name →
      (e.kind = .real ↔ f.kind = .real) → Precedes vs values e f
  | tuple {e f : VariableInstance} {v : Variable} : v ∈ vs → e.name = v.name → f.name = v.name → e.kind = f.kind →
      LexBefore (v.dimensions.map values) e.tuple f.tuple → Precedes vs values e f

def Distinct (l : List Value) : Prop := (l.map Value.key).Nodup ∧ ∀ s, Value.text s ∈ l → Number.Visible s

def Distinguished (c : Catalog) (memo : Catalog.Memo) (vs : List Variable) : Prop :=
  ∀ v ∈ vs, ∀ d ∈ v.dimensions, ∀ l, c.listed memo d = .ok l → Distinct l

structure Dense (c : Catalog) (memo : Catalog.Memo) (vs : List Variable) (o : Offsets) : Prop where
  listed : ∀ v ∈ vs, ∀ d ∈ v.dimensions, c.listed memo d = .ok (c.valueList memo d)
  length : o.entries.length = (vs.map fun v => (v.dimensions.map fun d => (c.valueList memo d).length).prod).sum
  mem_iff : ∀ e, e ∈ o.entries ↔ ∃ v ∈ vs, e.name = v.name ∧ e.kind = v.kind ∧
    List.Forall₂ (fun x d => x ∈ c.valueList memo d) e.tuple v.dimensions
  offset_entry : ∀ i e, o.entries[i]? = some e → o.offset e.name (e.tuple.map some) = .ok i
  entry_offset : ∀ name tuple i, Number.Visible name → VariableInstance.Plain tuple → o.offset name tuple = .ok i →
    ∃ e, o.entries[i]? = some e ∧ e.name = name ∧ e.tuple.map Value.key = tuple.map Cell.key
  order : o.entries.Pairwise (Precedes vs (c.valueList memo))

section Dense

variable {vs : List Variable} {values : String → List Value}
variable {v : Variable} {e : VariableInstance}

lemma mem_instances : e ∈ instances values v ↔
    e.name = v.name ∧ e.kind = v.kind ∧ List.Forall₂ (fun x d => x ∈ values d) e.tuple v.dimensions := by
  unfold instances
  rw [List.mem_map]
  constructor
  · rintro ⟨t, ht, rfl⟩
    exact ⟨rfl, rfl, List.forall₂_map_right_iff.1 (mem_tuples_iff.1 ht)⟩
  · rintro ⟨hname, hkind, htuple⟩
    obtain ⟨name, t, kind⟩ := e
    exact ⟨t, mem_tuples_iff.2 (List.forall₂_map_right_iff.2 htuple), by simp_all⟩

lemma perm_ordered (o : Offsets) : o.ordered.Perm o.declared := by
  have hnot : (fun v : Variable => v.kind != .real) = fun v => !(v.kind == .real) := rfl
  unfold ordered
  rw [hnot]
  exact List.filter_append_perm _ _

lemma pairwise_instances (hv : v ∈ vs) : (instances values v).Pairwise (Precedes vs values) :=
  List.pairwise_map.2 ((pairwise_tuples _).imp fun h => .tuple hv rfl rfl rfl h)

lemma pairwise_ordered (o : Offsets) :
    (o.ordered.flatMap (instances values)).Pairwise (Precedes o.declared values) := by
  refine List.pairwise_flatMap.2 ⟨fun v hv => pairwise_instances ((perm_ordered o).mem_iff.1 hv), ?_⟩
  have hclass : ∀ {p : Variable → Bool}, (∀ {v w}, p v → p w → (v.kind = .real ↔ w.kind = .real)) →
      (o.declared.filter p).Pairwise fun v w => ∀ e ∈ instances values v, ∀ f ∈ instances values w,
        Precedes o.declared values e f := by
    intro p hp
    refine List.pairwise_iff_forall_sublist.2 fun {v w} hvw e he f hf => ?_
    obtain ⟨hname, hkind, -⟩ := mem_instances.1 he
    obtain ⟨hname', hkind', -⟩ := mem_instances.1 hf
    refine .declared (hvw.trans List.filter_sublist) hname.symm hname'.symm ?_
    rw [hkind, hkind']
    exact hp (List.mem_filter.1 (hvw.subset (by simp))).2 (List.mem_filter.1 (hvw.subset (by simp))).2
  unfold ordered
  refine List.pairwise_append.2 ⟨hclass (by simp_all), hclass (by simp_all), fun v hv w hw e he f hf => ?_⟩
  refine .continuous ?_ ?_
  · rw [(mem_instances.1 he).2.1]
    simpa using (List.mem_filter.1 hv).2
  · rw [(mem_instances.1 hf).2.1]
    simpa using (List.mem_filter.1 hw).2

lemma exists_dimension (he : e ∈ instances values v) {x : Value} (hx : x ∈ e.tuple) :
    ∃ d ∈ v.dimensions, x ∈ values d := by
  obtain ⟨-, -, htuple⟩ := mem_instances.1 he
  generalize e.tuple = t at htuple hx
  generalize v.dimensions = dims at htuple
  induction htuple with
  | nil => cases hx
  | cons hd _ ih =>
    rcases List.mem_cons.1 hx with rfl | hx
    · exact ⟨_, List.mem_cons_self, hd⟩
    · obtain ⟨d, hmem, hxd⟩ := ih hx
      exact ⟨d, List.mem_cons_of_mem _ hmem, hxd⟩

lemma plain_tuple (hv : ∀ d ∈ v.dimensions, Distinct (values d)) (he : e ∈ instances values v) :
    VariableInstance.Plain (e.tuple.map some) := by
  intro s hs
  obtain ⟨x, hx, hxs⟩ := List.mem_map.1 hs
  cases hxs
  obtain ⟨d, hd, hmem⟩ := exists_dimension he hx
  exact (hv d hd).2 s hmem

lemma nodup_keys (hnames : (vs.map (·.name)).Nodup) (hvisible : ∀ v ∈ vs, Number.Visible v.name)
    (hvalues : ∀ v ∈ vs, ∀ d ∈ v.dimensions, Distinct (values d)) :
    ((vs.flatMap (instances values)).map (·.key)).Nodup := by
  have hkeys : ∀ {v w : Variable}, v ∈ vs → w ∈ vs → ∀ {e f}, e ∈ instances values v → f ∈ instances values w →
      e.key = f.key → v.name = w.name ∧ e.tuple.map Value.key = f.tuple.map Value.key := by
    intro v w hv hw e f he hf hkey
    have hname := (mem_instances.1 he).1
    have hname' := (mem_instances.1 hf).1
    obtain ⟨hn, ht⟩ := VariableInstance.keyOf_injective (hname ▸ hvisible v hv) (hname' ▸ hvisible w hw)
      (plain_tuple (hvalues v hv) he) (plain_tuple (hvalues w hw) hf) hkey
    rw [List.map_map, List.map_map] at ht
    exact ⟨hname.symm.trans (hn.trans hname'), ht⟩
  refine List.pairwise_map.2 (List.pairwise_flatMap.2 ⟨fun v hv => ?_, ?_⟩)
  · -- Tuples of one variable differ in a key.
    have hlists : ∀ l ∈ v.dimensions.map values, (l.map Value.key).Nodup := by
      intro l hl
      obtain ⟨d, hd, rfl⟩ := List.mem_map.1 hl
      exact (hvalues v hv d hd).1
    have htuples : (instances values v).Pairwise fun e f => LexBefore (v.dimensions.map values) e.tuple f.tuple :=
      List.pairwise_map.2 (pairwise_tuples _)
    exact htuples.imp_of_mem fun he hf hlex hkey => hlex.keys_ne hlists (hkeys hv hv he hf hkey).2
  · -- Different variables have different names.
    refine (List.pairwise_map.1 hnames).imp_of_mem fun {v w} hv hw hne e he f hf hkey => ?_
    exact hne (hkeys hv hw he hf hkey).1

end Dense

lemma declareAll_of_nodup (h : (vs.map (·.name)).Nodup) : Program.declareAll vs = .ok { declared := vs } := by
  have hfold : ∀ (ws vs : List Variable), ((vs ++ ws).map (·.name)).Nodup →
      ws.foldlM (fun (o : Offsets) v => o.declare v) { declared := vs } =
      (.ok { declared := vs ++ ws } : Except Failure Offsets) := by
    intro ws
    induction ws with
    | nil => exact fun vs _ => by rw [List.append_nil]; rfl
    | cons w ws ih =>
      intro vs hnames
      have hnew : ({ declared := vs } : Offsets).declaration? w.name = none := by
        refine List.find?_eq_none.2 fun v hv hname => ?_
        rw [List.map_append, List.nodup_append] at hnames
        exact hnames.2.2 v.name (List.mem_map_of_mem hv) w.name List.mem_cons_self (beq_iff_eq.1 hname)
      rw [List.append_cons] at hnames ⊢
      rw [List.foldlM_cons, declare, hnew, ok_bind]
      exact ih (vs ++ [w]) hnames
  exact hfold vs [] h

lemma build_eq (h : o.build c memo = (.ok (), o', memo')) :
    o' = { o with
      entries := o.ordered.flatMap (instances (c.valueList memo))
      keys := (o.ordered.flatMap (instances (c.valueList memo))).map (·.key) } ∧
    LooksUp c (o.ordered.flatMap (·.dimensions)) memo memo' := enumerateEach_extends h

/-- Instances are numbered without gaps and found by their names and keys; numbering them again changes nothing. -/
theorem build_numbers_densely {vs : List Variable} (hnames : (vs.map (·.name)).Nodup)
    (hvisible : ∀ v ∈ vs, Number.Visible v.name) : Program.declareAll vs = .ok { declared := vs } ∧
      ∀ o : Offsets, o.declared = vs → ∀ (c : Catalog) (memo : Catalog.Memo), Distinguished c memo vs →
        ∀ o' memo', o.build c memo = (.ok (), o', memo') →
          Dense c memo vs o' ∧ o'.build c memo' = (.ok (), o', memo') := by
  refine ⟨declareAll_of_nodup hnames, ?_⟩
  rintro o rfl c memo hkeys o' memo' hbuild
  obtain ⟨rfl, hlooks⟩ := build_eq hbuild
  have hperm := perm_ordered o
  have hlisted : ∀ v ∈ o.declared, ∀ d ∈ v.dimensions, c.listed memo d = .ok (c.valueList memo d) := by
    intro v hv d hd
    have hsettled := hlooks.settles d (List.mem_flatMap.2 ⟨v, hperm.mem_iff.2 hv, hd⟩)
    rw [← hlooks.listed, ← hlooks.valueList, Catalog.listed, hsettled.result]
  have hdistinct : ∀ v ∈ o.ordered, ∀ d ∈ v.dimensions, Distinct (c.valueList memo d) := fun v hv d hd =>
    hkeys v (hperm.mem_iff.1 hv) d hd _ (hlisted v (hperm.mem_iff.1 hv) d hd)
  have hnodup : ((o.ordered.flatMap (instances (c.valueList memo))).map (·.key)).Nodup :=
    nodup_keys ((hperm.map _).nodup_iff.2 hnames) (fun v hv => hvisible v (hperm.mem_iff.1 hv)) hdistinct
  refine ⟨⟨hlisted, ?_, ?_, ?_, ?_, pairwise_ordered o⟩, ?_⟩
  · have hlength : ∀ v : Variable, (instances (c.valueList memo) v).length =
        (v.dimensions.map fun d => (c.valueList memo d).length).prod := by
      intro v
      rw [instances, List.length_map, length_tuples, List.map_map]
      rfl
    rw [List.length_flatMap, List.map_congr_left fun v _ => hlength v]
    exact (hperm.map _).sum_eq
  · intro e
    simp only [List.mem_flatMap, hperm.mem_iff, mem_instances]
  · intro i e he
    refine (offset_eq_ok hnodup).2 ?_
    rw [List.getElem?_map, he]
    rfl
  · intro name tuple i hname htuple hoffset
    have hkey := (offset_eq_ok hnodup).1 hoffset
    rw [List.getElem?_map, Option.map_eq_some_iff] at hkey
    obtain ⟨e, he, hkey⟩ := hkey
    obtain ⟨v, hv, hev⟩ := List.mem_flatMap.1 (List.mem_of_getElem? he)
    have hvisible' : Number.Visible e.name := (mem_instances.1 hev).1 ▸ hvisible v (hperm.mem_iff.1 hv)
    obtain ⟨hn, ht⟩ := VariableInstance.keyOf_injective hvisible' hname (plain_tuple (hdistinct v hv) hev) htuple hkey
    refine ⟨e, he, hn, ?_⟩
    rw [← ht, List.map_map]
    rfl
  · have hsettled : ∀ d ∈ o.ordered.flatMap (·.dimensions), c.Settled memo' d := hlooks.settles
    rw [← hlooks.valueList]
    exact enumerateEach_settled hsettled _

def coverage : List Variable :=
  [⟨"b", ["SDU"], 0, 1, true, .binary⟩, ⟨"X", ["SDU", "OPTIONS"], 0, 1, true, .real⟩, ⟨"total", [], 0, 1, true, .real⟩]

def coverageCatalog : Catalog where
  table := ⟨"units", [⟨"unit", .int⟩], [[some (.text "a")], [some (.int 1)], [some (.double 1.5)], [some (.int 1)]]⟩
  columns := [("SDU", "unit")]
  options := ["forest", "arable"]
  condition := ""

instance (l : List Value) : Decidable (Distinct l) :=
  decidable_of_iff ((l.map Value.key).Nodup ∧ ∀ v ∈ l,
    (match v with | .text s => decide (Number.Visible s) | _ => true) = true)
    (and_congr_right fun _ => ⟨fun h s hs => of_decide_eq_true (h _ hs), fun h v hv => by
      cases v with
      | text s => exact decide_eq_true (h s hv)
      | _ => rfl⟩)

theorem coverage_dense : ∃ o memo, Offsets.build coverageCatalog { declared := coverage } {} = (.ok (), o, memo) ∧
    Distinguished coverageCatalog {} coverage ∧ Dense coverageCatalog {} coverage o ∧
    o.build coverageCatalog memo = (.ok (), o, memo) ∧ o.entries.length = 10 ∧
    o.offset "X" [some (.text "a"), some (.double 1)] = .ok 5 ∧ o.offset "total" [] = .ok 6 := by
  have hrun : (match Offsets.build coverageCatalog { declared := coverage } {} with
      | (.ok _, o, _) => o.entries.length == 10 &&
        (match o.offset "X" [some (.text "a"), some (.double 1)], o.offset "total" [] with
          | .ok i, .ok j => i == 5 && j == 6
          | _, _ => false)
      | (.error _, _, _) => false) = true := by decide +kernel
  have hlisted : ∀ v ∈ coverage, ∀ d ∈ v.dimensions,
      (coverageCatalog.listed {} d).toOption.any (fun l => decide (Distinct l)) = true := by decide +kernel
  have hkeys : Distinguished coverageCatalog {} coverage := by
    intro v hv d hd l hl
    obtain ⟨l', hl', hdistinct⟩ := exists_of_any (hlisted v hv d hd)
    obtain rfl := Except.ok.inj (hl.symm.trans hl')
    exact of_decide_eq_true hdistinct
  split at hrun
  case h_1 o memo hbuild =>
    obtain ⟨hdense, hagain⟩ := (build_numbers_densely (by decide) (by decide)).2 _ rfl _ _ hkeys o memo hbuild
    refine ⟨o, memo, hbuild, hkeys, hdense, hagain, ?_⟩
    split at hrun
    case h_1 hx htotal =>
      simp only [Bool.and_eq_true, beq_iff_eq] at hrun
      rw [hx, htotal, hrun.2.1, hrun.2.2]
      exact ⟨hrun.1, rfl, rfl⟩
    case h_2 => simp at hrun
  case h_2 => cases hrun

end Offsets

end LandUse
