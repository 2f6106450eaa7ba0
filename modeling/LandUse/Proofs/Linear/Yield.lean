import LandUse.Proofs.Linear.Independence

namespace LandUse

open Exact Outcome Direct

def Catalog.numberAt (K : Type) [Field K] (c : Catalog) (column : String) (cells : List Cell) : K :=
  match (c.valueAt column cells).toFloat with
  | .ok x => (rational x : K)
  | .error _ => 0

def Offsets.read {K : Type} [Zero K] (o : Offsets) (x : List K) (name : String) (tuple : List Cell) : K :=
  match o.offset name tuple with
  | .ok k => x.getD k 0
  | .error _ => 0

def Selector.Selects (frame : Frame) (cell : Cell) : Selector → Prop
  | .bound dim => frame.binding? dim = some cell
  | .option index => cell = some (.int (Int64.ofNat index))

def Selector.isOption : Selector → Bool
  | .bound dim => dim == optionsDimension
  | .option _ => true

variable {K : Type} [Field K] [LinearOrder K] [Functions K] {p : Program} {columns : List String} {frame : Frame}

def Yields (p : Program) (columns : List String) (frame : Frame) (f : Formula) (value : List K → K) : Prop :=
  ∀ x v, Evaluates p columns x frame f v → v = value x

namespace Yields

variable {f g : Formula} {a b : List K → K}

lemma number (w : Float) : Yields p columns frame (.number w) fun _ => (rational w : K) := by
  rintro x v ⟨⟩
  rfl

lemma times (hf : Yields p columns frame f a) (hg : Yields p columns frame g b) :
    Yields p columns frame (.binary .times f g) fun x => a x * b x := by
  intro x w h
  cases h with
  | binary hu hv happly =>
    obtain rfl := hf x _ hu
    obtain rfl := hg x _ hv
    cases happly
    rfl

lemma minus (hf : Yields p columns frame f a) (hg : Yields p columns frame g b) :
    Yields p columns frame (.binary .minus f g) fun x => a x - b x := by
  intro x w h
  cases h with
  | binary hu hv happly =>
    obtain rfl := hf x _ hu
    obtain rfl := hg x _ hv
    cases happly
    rfl

lemma floor (hf : Yields p columns frame f a) :
    Yields p columns frame (.call .floor [f]) fun x => Functions.floor (a x) := by
  intro x w h
  cases h with
  | call hlength hargs happly =>
    obtain ⟨u, rfl⟩ := List.length_eq_one_iff.1 hlength.symm
    obtain rfl := hf x u (hargs (f, u) List.mem_cons_self)
    cases happly
    rfl

lemma sum {β : Type} {dim : String} {items : List β} {it : β → Iteration} {L : β → List K → K}
    (hits : ∀ its, Iterates p columns frame dim its → its = items.map it)
    (hbody : ∀ i ∈ items, Yields p columns (within frame dim (it i)) f (L i)) :
    Yields p columns frame (.loop .sum dim f) fun x => (items.map (L · x)).sum := by
  intro x v h
  cases h with
  | empty hiterates =>
    have hnil := hits _ hiterates
    rw [eq_comm, List.map_eq_nil_iff] at hnil
    rw [hnil]
    rfl
  | @loop _ _ _ _ its us v hiterates hlength hall happly =>
    obtain rfl := hits _ hiterates
    have hus : us = items.map (L · x) := by
      rw [List.length_map] at hlength
      have hzip : ∀ a ∈ items.zip us, a.2 = L a.1 x := fun a ha =>
        hbody a.1 (List.of_mem_zip ha).1 x a.2 (hall (it a.1, a.2) (by
          rw [List.zip_map_left]
          exact List.mem_map_of_mem ha))
      calc us = (items.zip us).map Prod.snd := (List.map_snd_zip hlength.ge).symm
        _ = (items.zip us).map fun a => L a.1 x := List.map_congr_left hzip
        _ = ((items.zip us).map Prod.fst).map (L · x) := by rw [List.map_map]; rfl
        _ = items.map (L · x) := by rw [List.map_fst_zip hlength.le]
    cases us with
    | nil =>
      rw [Keyword.apply_nil] at happly
      cases happly
    | cons u us =>
      cases happly
      change _ = (items.map (L · x)).sum
      rw [← hus]
      exact sum_eq (u :: us)

lemma options {L : Nat → List K → K}
    (h : ∀ o < p.catalog.options.length,
      Yields p columns (within frame optionsDimension ⟨.int (Int64.ofNat o), frame.rows⟩) f (L o)) :
    Yields p columns frame (.loop .sum optionsDimension f) fun x =>
    ((List.range p.catalog.options.length).map (L · x)).sum := by
  refine sum (fun its hits => ?_) fun o ho => h o (List.mem_range.1 ho)
  rcases iterates_cases hits with ⟨-, rfl⟩ | ⟨column, i, hresolve, -⟩
  · rw [Catalog.optionValues, List.map_map]
    rfl
  · cases hresolve

end Yields

lemma groupBy_distinct {column : String} {i : Nat} (hi : columns.findIdx? (· == column) = some i)
    {cs : List (List Cell)}
    (hkeys : (cs.map fun c => (p.catalog.valueAt column c).key).Nodup) :
    Program.groupBy i (cs.map (p.catalog.readColumns columns)) =
      cs.map fun c => ⟨p.catalog.valueAt column c, [p.catalog.readColumns columns c]⟩ := by
  have hnew : ∀ (its : List Iteration) (v : Value) (row : Row), (∀ it ∈ its, it.value.key ≠ v.key) →
      Program.addRow v row its = its ++ [⟨v, [row]⟩] := by
    intro its v row h
    induction its with
    | nil => rfl
    | cons it its ih =>
      obtain ⟨hne, hits⟩ := List.forall_mem_cons.1 h
      rw [Program.addRow, if_neg (by simpa using hne), ih hits, List.cons_append]
  have hfold : ∀ (cs : List (List Cell)) (its : List Iteration),
      (its.map (·.value.key) ++ cs.map fun c => (p.catalog.valueAt column c).key).Nodup →
      cs.foldl (fun its c => Program.addRow (p.catalog.valueAt column c) (p.catalog.readColumns columns c) its) its =
      its ++ cs.map fun c => ⟨p.catalog.valueAt column c, [p.catalog.readColumns columns c]⟩ := by
    intro cs
    induction cs with
    | nil => exact fun its _ => (List.append_nil its).symm
    | cons c cs ih =>
      intro its h
      have hne : ∀ it ∈ its, it.value.key ≠ (p.catalog.valueAt column c).key := fun it hit =>
        (List.nodup_append.1 h).2.2 _ (List.mem_map_of_mem hit) _ List.mem_cons_self
      rw [List.foldl_cons, hnew its _ _ hne, ih, List.append_assoc, List.map_cons, List.singleton_append]
      rw [List.map_append, List.append_assoc]
      exact h
  rw [Program.groupBy, List.foldl_map]
  simp only [getElem?_valueAt hi]
  exact hfold cs [] hkeys

namespace Yields

variable {f : Formula}

lemma rows {dim column : String} (hdim : p.catalog.resolve dim = .ok ⟨dim, some column⟩) {cs : List (List Cell)}
    (hrows : frame.rows = cs.map (p.catalog.readColumns columns))
    (hkeys : (cs.map fun c => (p.catalog.valueAt column c).key).Nodup) {L : List Cell → List K → K}
    (h : ∀ c ∈ cs, Yields p columns (within frame dim ⟨p.catalog.valueAt column c,
      [p.catalog.readColumns columns c]⟩) f (L c)) :
    Yields p columns frame (.loop .sum dim f) fun x => (cs.map (L · x)).sum := by
  refine sum (fun its hits => ?_) h
  rcases iterates_cases hits with ⟨rfl, -⟩ | ⟨column', i, hresolve, hi, rfl⟩
  · cases hdim
  · obtain rfl : column' = column := by
      rw [hdim] at hresolve
      cases hresolve
      rfl
    rw [hrows, groupBy_distinct hi hkeys]

end Yields

section References

variable {name : String} {selectors : List Selector} {cells : List Cell}

lemma values_of_selects (hs : List.Forall₂ (fun s c => s.Selects frame c) selectors cells) {subs : List Subscript}
    (hsubs : subs.map Subscript.selector = selectors) {values : List (Cell × Bool)}
    (hv : subs.mapM (Program.subscript frame name) = .ok values) :
    values = cells.zip (selectors.map Selector.isOption) := by
  subst hsubs
  have hvalues := forall₂_of_mapM hv
  clear hv
  rw [List.forall₂_map_left_iff] at hs
  induction hs generalizing values with
  | nil =>
    cases hvalues
    rfl
  | @cons sub cell subs cells hsub _ ih =>
    cases hvalues with
    | @cons _ value _ values hvalue hvalues =>
      rw [ih hvalues, List.map_cons, List.map_cons, List.zip_cons_cons]
      congr 1
      cases hsel : sub.selector with
      | bound dim =>
        obtain ⟨hb, hflag⟩ := subscript_bound hsel hvalue
        rw [hsel] at hsub
        exact Prod.ext (Option.some.inj (hb.symm.trans hsub)) hflag
      | option i =>
        rw [hsel] at hsub
        rw [subscript_option hsel hvalue, hsub]
        rfl

lemma Yields.variable (hs : List.Forall₂ (fun s c => s.Selects frame c) selectors cells) :
    Yields p columns frame (.reference name true selectors) fun x : List K => p.offsets.read x name cells := by
  intro x v h
  cases h with
  | reference hsubs hi hv =>
    unfold Program.reference at hi
    simp only [if_true, bind_eq_ok, orFault_eq_ok] at hi
    obtain ⟨values, hvalues, k, hk, hi⟩ := hi
    cases hi
    obtain ⟨n, hn, hget⟩ := hv
    obtain rfl : k = n := by exact_mod_cast hn
    rw [values_of_selects hs hsubs hvalues,
      List.map_fst_zip (by rw [List.length_map, hs.length_eq])] at hk
    change v = p.offsets.read x name cells
    unfold Offsets.read
    simp only [hk]
    rw [List.getD_eq_getElem?_getD, hget, Option.getD_some]

lemma parameter_of_evaluates {x : List K} {v : K} (h : Evaluates p columns x frame (.reference name false selectors) v)
    (hs : List.Forall₂ (fun s c => s.Selects frame c) selectors cells) {q : Parameter}
    (hq : p.settings.parameters.get? name = some q) (hliteral : q.literal = none) {row : List Cell}
    (hrows : frame.rows = [p.catalog.readColumns columns row]) : ∃ column option,
      Program.parameterColumn frame q name (cells.zip (selectors.map Selector.isOption)) = .ok (column, option) ∧
      q.Gives (p.catalog.valueAt column row) option v := by
  cases h with
  | reference hsubs hi hv =>
    unfold Program.reference at hi
    simp only [Bool.false_eq_true, if_false, bind_eq_ok] at hi
    obtain ⟨c, hc, hi⟩ := hi
    cases hi
    obtain rfl : c = v := hv
    obtain ⟨q', hq', hvalue⟩ := Program.parameter_eq_ok hc
    obtain rfl := Option.some.inj (hq.symm.trans hq')
    rcases hvalue with ⟨x, hx, -⟩ | ⟨-, -, values, column, option, w, hvalues, hcolumn, hw, hgives⟩
    · rw [hliteral] at hx
      cases hx
    · rw [values_of_selects hs hsubs hvalues] at hcolumn
      have hcs : columns ≠ [] → frame.rows = [row].map (p.catalog.readColumns columns) := fun _ => hrows
      obtain ⟨cells', hcells, rfl⟩ := readParameter_valueAt hw hcs
      obtain rfl := List.mem_singleton.1 hcells
      exact ⟨column, option, hcolumn, hgives⟩

lemma scaleOf_one {q : Parameter} (h : q.scale = 1) : (Program.scaleOf q : K) = 1 := by
  rw [Program.scaleOf, h, show (if (1 : Float) == 0 then 1 else 1) = (1 : Float) by decide]
  exact one_eq

lemma numberAt_of_gives {q : Parameter} (hcontains : q.contains = []) (hscale : q.scale = 1) {column : String}
    {row : List Cell} {option : Nat} {v : K} (h : q.Gives (p.catalog.valueAt column row) option v) :
    v = p.catalog.numberAt K column row := by
  unfold Parameter.Gives at h
  rw [hcontains, List.isEmpty_nil, if_pos rfl] at h
  obtain ⟨x, hx, rfl⟩ := h
  unfold Catalog.numberAt
  rw [scaleOf_one hscale, mul_one, hx]
  rfl

lemma optionOf_selects {selector : Selector} (hoption : selector.isOption = true) {o : Nat} (ho : o < 2 ^ 53) :
    Program.optionOf frame name ([some (.int (Int64.ofNat o))].zip ([selector].map Selector.isOption)) = .ok o := by
  rw [List.map_singleton, hoption]
  change Except.ok (Int64.ofNat o).toInt = _
  rw [Int64.toInt_ofNat_of_lt (Nat.lt_trans ho (by decide))]

variable {row : List Cell} (hrows : frame.rows = [p.catalog.readColumns columns row])
include hrows

lemma Yields.column (hs : List.Forall₂ (fun s c => s.Selects frame c) selectors cells) {column : String}
    (hq : p.settings.parameters.get? name = some ⟨name, [column], none, 1, []⟩) :
    Yields p columns frame (.reference name false selectors) fun _ : List K => p.catalog.numberAt K column row := by
  intro x v h
  obtain ⟨column', option, hcolumn, hgives⟩ := parameter_of_evaluates h hs hq rfl hrows
  cases hcolumn
  exact numberAt_of_gives rfl rfl hgives

lemma Yields.field {selector : Selector} (hoption : selector.isOption = true) {o : Nat} (ho : o < 2 ^ 53)
    (hs : selector.Selects frame (some (.int (Int64.ofNat o)))) {fields : List String} {column : String}
    (hq : p.settings.parameters.get? name = some ⟨name, fields, none, 1, []⟩) (hcolumn : fields[o]? = some column) :
    Yields p columns frame (.reference name false [selector]) fun _ : List K => p.catalog.numberAt K column row := by
  intro x v h
  obtain ⟨column', option, hcolumn', hgives⟩ := parameter_of_evaluates h (.cons hs .nil) hq rfl hrows
  have heq : column' = column := by
    unfold Program.parameterColumn at hcolumn'
    split at hcolumn'
    · rw [optionOf_selects hoption ho, ok_bind] at hcolumn'
      simp only [Int.toNat_natCast, hcolumn] at hcolumn'
      cases hcolumn'
      rfl
    · rename_i hlength
      cases hcolumn'
      match fields, hcolumn, hlength with
      | [field], hcolumn, _ =>
        obtain rfl : o = 0 := by
          by_contra hne
          rw [List.getElem?_eq_none (by simp only [List.length_singleton]; omega)] at hcolumn
          cases hcolumn
        exact Option.some.inj hcolumn
      | _ :: _ :: _, _, hlength => simp at hlength
  rw [heq] at hgives
  exact numberAt_of_gives rfl rfl hgives

lemma Yields.indicator {selector : Selector} (hoption : selector.isOption = true) {o : Nat} (ho : o < 2 ^ 53)
    (hs : selector.Selects frame (some (.int (Int64.ofNat o)))) {options : List String} {column option : String}
    (hq : p.settings.parameters.get? name = some ⟨name, options.map fun _ => column, none, 1, options⟩)
    (hget : options[o]? = some option) :
    Yields p columns frame (.reference name false [selector]) fun _ : List K =>
      if Text.contains (p.catalog.valueAt column row).toText option then 1 else 0 := by
  intro x v h
  obtain ⟨column', o', hcolumn, hgives⟩ := parameter_of_evaluates h (.cons hs .nil) hq rfl hrows
  have hne : options.isEmpty = false := by
    cases options with
    | nil => cases hget
    | cons => rfl
  unfold Program.parameterColumn at hcolumn
  rw [if_pos (by simp [hne]), optionOf_selects hoption ho, ok_bind] at hcolumn
  simp only [Int.toNat_natCast, List.getElem?_map, hget, Option.map_some] at hcolumn
  cases hcolumn
  unfold Parameter.Gives at hgives
  rw [if_neg (by simp [hne])] at hgives
  obtain ⟨part, hpart, rfl⟩ := hgives
  obtain rfl := Option.some.inj (hget.symm.trans hpart)
  rw [scaleOf_one rfl, zero_eq]

end References

end LandUse
