import LandUse.Proofs.Expansion.Rows
import LandUse.Proofs.Linear.Meaning

/-! Where the loops around a parameter determine its value, the order of the rows does not matter. -/

namespace LandUse

open Exact Outcome Direct

def Catalog.valueAt (c : Catalog) (column : String) (cells : List Cell) : Value :=
  Table.readCell (c.table.cellOf column cells)

lemma getElem?_valueAt {c : Catalog} {columns : List String} {column : String} {i : Nat}
    (h : columns.findIdx? (· == column) = some i) (cells : List Cell) :
    (c.readColumns columns cells)[i]? = some (c.valueAt column cells) := by
  have hmem : column ∈ columns := by
    obtain ⟨hlt, heq, -⟩ := List.findIdx?_eq_some_iff_getElem.1 h
    exact beq_iff_eq.1 heq ▸ List.getElem_mem hlt
  obtain ⟨j, hj, hget⟩ := Program.readRow_findIdx? c.table cells hmem
  obtain rfl := Option.some.inj (hj.symm.trans h)
  exact hget

namespace Program

def Agree (p : Program) (dim : String) (a b : List Cell) : Prop :=
  ∀ column, p.catalog.resolve dim = .ok ⟨dim, some column⟩ →
    (p.catalog.valueAt column a).key = (p.catalog.valueAt column b).key

def Determines (p : Program) (rows : List (List Cell)) (bound : List String) (name : String) : Prop :=
  ∀ q, p.settings.parameters.get? name = some q → q.literal = none → ∀ column ∈ q.columns, ∀ a ∈ rows, ∀ b ∈ rows,
    (∀ dim ∈ bound, p.Agree dim a b) → p.catalog.valueAt column a = p.catalog.valueAt column b

/-- The loops around every parameter determine what it reads. -/
inductive Settled (p : Program) (rows : List (List Cell)) : List String → Formula → Prop
  | number {bound : List String} (value : Float) : Settled p rows bound (.number value)
  | reference {bound : List String} {name : String} {isVariable : Bool} {subs : List Selector} :
      (isVariable = false → p.Determines rows bound name) → Settled p rows bound (.reference name isVariable subs)
  | equation {bound : List String} {name : String} {e : Expr} : p.trees.get? name = some e →
      Settled p rows bound e.formula → Settled p rows bound (.equation name)
  | negate {bound : List String} {arg : Formula} : Settled p rows bound arg → Settled p rows bound (.negate arg)
  | binary {bound : List String} {op : Operator} {lhs rhs : Formula} : Settled p rows bound lhs →
      Settled p rows bound rhs → Settled p rows bound (.binary op lhs rhs)
  | call {bound : List String} {fn : Function} {args : List Formula} : (∀ a ∈ args, Settled p rows bound a) →
      Settled p rows bound (.call fn args)
  | loop {bound : List String} {keyword : Keyword} {dim : String} {arg : Formula} : Settled p rows (dim :: bound) arg →
      Settled p rows bound (.loop keyword dim arg)

lemma Determines.of_apart {p : Program} {rows : List (List Cell)} {bound : List String} {dim : String}
    (hapart : ∀ a ∈ rows, ∀ b ∈ rows, p.Agree dim a b → a = b) (hdim : dim ∈ bound) (name : String) :
    p.Determines rows bound name := by
  intro q _ _ column _ a ha b hb hagree
  rw [hapart a ha b hb (hagree dim hdim)]

end Program

mutual

def Formula.isWithin (dim : String) (bound : List String) : Formula → Bool
  | .number _ => true
  | .reference _ isVariable _ => isVariable || bound.contains dim
  | .equation _ => false
  | .negate arg => arg.isWithin dim bound
  | .binary _ lhs rhs => lhs.isWithin dim bound && rhs.isWithin dim bound
  | .call _ args => argumentsWithin dim bound args
  | .loop _ d arg => arg.isWithin dim (d :: bound)

def argumentsWithin (dim : String) (bound : List String) : List Formula → Bool
  | [] => true
  | f :: fs => f.isWithin dim bound && argumentsWithin dim bound fs

end

section Within

variable {p : Program} {rows : List (List Cell)} {dim : String}

mutual

/-- Loops over a dimension with one row per value determine whatever is read inside them. -/
lemma settled_of_isWithin (hapart : ∀ a ∈ rows, ∀ b ∈ rows, p.Agree dim a b → a = b) (bound : List String) :
    (f : Formula) → f.isWithin dim bound = true → p.Settled rows bound f
  | .number value, _ => .number value
  | .reference name isVariable subs, h => by
    refine .reference fun hv => .of_apart hapart ?_ name
    simpa [Formula.isWithin, hv] using h
  | .negate arg, h => .negate (settled_of_isWithin hapart bound arg h)
  | .binary op lhs rhs, h => by
    obtain ⟨hlhs, hrhs⟩ := Bool.and_eq_true_iff.1 h
    exact .binary (settled_of_isWithin hapart bound lhs hlhs) (settled_of_isWithin hapart bound rhs hrhs)
  | .call fn args, h => .call (settled_of_argumentsWithin hapart bound args h)
  | .loop keyword d arg, h => .loop (settled_of_isWithin hapart (d :: bound) arg h)

lemma settled_of_argumentsWithin (hapart : ∀ a ∈ rows, ∀ b ∈ rows, p.Agree dim a b → a = b) (bound : List String) :
    (args : List Formula) → argumentsWithin dim bound args = true → ∀ a ∈ args, p.Settled rows bound a
  | [], _ => by simp
  | f :: fs, h => by
    obtain ⟨hf, hfs⟩ := Bool.and_eq_true_iff.1 h
    exact List.forall_mem_cons.2
      ⟨settled_of_isWithin hapart bound f hf, settled_of_argumentsWithin hapart bound fs hfs⟩

end

end Within

structure Binding.Same (b b' : Binding) : Prop where
  dim : b.dim = b'.dim
  key : b.value.key = b'.value.key
  option : b.dim = optionsDimension → b.value = b'.value

structure Similar (p : Program) (columns columns' : List String) (rows : List (List Cell)) (bound : List String)
    (frame frame' : Frame) : Prop where
  bindings : List.Forall₂ Binding.Same frame.bindings frame'.bindings
  rows : ∃ cs cs', cs.Perm cs' ∧ cs ⊆ rows ∧ (∀ dim ∈ bound, ∀ a ∈ cs, ∀ b ∈ cs, p.Agree dim a b) ∧
    (columns ≠ [] → frame.rows = cs.map (p.catalog.readColumns columns)) ∧
    (columns' ≠ [] → frame'.rows = cs'.map (p.catalog.readColumns columns'))

lemma find?_same {bs bs' : List Binding} (h : List.Forall₂ Binding.Same bs bs') (dim : String) :
    Option.Rel (fun c c' => c.key = c'.key ∧ (dim = optionsDimension → c = c'))
      ((bs.find? (·.dim == dim)).map (·.value)) ((bs'.find? (·.dim == dim)).map (·.value)) := by
  induction h with
  | nil => exact .none
  | @cons b b' bs bs' hb _ ih =>
    rw [List.find?_cons, List.find?_cons, ← hb.dim]
    cases hdim : b.dim == dim with
    | true => exact .some ⟨hb.key, fun ho => hb.option ((beq_iff_eq.1 hdim).trans ho)⟩
    | false => exact ih

structure SameSubscript (v v' : Cell × Bool) : Prop where
  key : v.1.key = v'.1.key
  selects : v.2 = v'.2
  option : v.2 = true → v.1 = v'.1

section References

variable {p : Program} {columns columns' : List String} {rows : List (List Cell)} {bound : List String}
  {frame frame' : Frame}
  {name : String}

lemma Similar.binding? (h : Similar p columns columns' rows bound frame frame') (dim : String) :
    Option.Rel (fun c c' => c.key = c'.key ∧ (dim = optionsDimension → c = c')) (frame.binding? dim)
    (frame'.binding? dim) :=
  find?_same (List.forall₂_reverse_iff.2 h.bindings) dim

variable {sub : Subscript} {v : Cell × Bool} {values values' : List (Cell × Bool)}

lemma subscript_bound {dim : String} (hsub : sub.selector = .bound dim)
    (hv : Program.subscript frame name sub = .ok v) :
    frame.binding? dim = some v.1 ∧ v.2 = (dim == optionsDimension) := by
  cases sub with
  | dim span d =>
    cases hsub
    rw [Program.subscript] at hv
    split at hv
    · cases hv
      exact ⟨‹_›, rfl⟩
    · cases hv
  | option | index => cases hsub

lemma subscript_option {i : Nat} (hsub : sub.selector = .option i) (hv : Program.subscript frame name sub = .ok v) :
    v = (some (.int (Int64.ofNat i)), true) := by
  cases sub with
  | dim => cases hsub
  | option | index =>
    cases hsub
    cases hv
    rfl

lemma Similar.subscript (h : Similar p columns columns' rows bound frame frame') {sub' : Subscript}
    (hsub : sub.selector = sub'.selector) {v' : Cell × Bool} (hv : Program.subscript frame name sub = .ok v)
    (hv' : Program.subscript frame' name sub' = .ok v') : SameSubscript v v' := by
  cases hs : sub.selector with
  | bound dim =>
    obtain ⟨hb, hflag⟩ := subscript_bound hs hv
    obtain ⟨hb', hflag'⟩ := subscript_bound (hsub ▸ hs) hv'
    have hrel := h.binding? dim
    rw [hb, hb'] at hrel
    obtain ⟨hkey, hoption⟩ := Option.rel_some_some.1 hrel
    refine ⟨hkey, hflag.trans hflag'.symm, fun ht => hoption (beq_iff_eq.1 (hflag ▸ ht))⟩
  | option i =>
    rw [subscript_option hs hv, subscript_option (hsub ▸ hs) hv']
    exact ⟨rfl, rfl, fun _ => rfl⟩

lemma Similar.subscripts (h : Similar p columns columns' rows bound frame frame') {subs subs' : List Subscript}
    (hsubs : subs.map Subscript.selector = subs'.map Subscript.selector) {values values' : List (Cell × Bool)}
    (hv : subs.mapM (Program.subscript frame name) = .ok values)
    (hv' : subs'.mapM (Program.subscript frame' name) = .ok values') : List.Forall₂ SameSubscript values values' := by
  replace hv := forall₂_of_mapM hv
  replace hv' := forall₂_of_mapM hv'
  induction hv generalizing subs' values' with
  | nil =>
    obtain rfl := List.map_eq_nil_iff.1 hsubs.symm
    cases hv'
    exact .nil
  | cons hx _ ih =>
    cases hv' with
    | nil => cases hsubs
    | cons hx' hv' =>
      obtain ⟨hsub, hsubs⟩ := List.cons_eq_cons.1 hsubs
      exact .cons (h.subscript hsub hx hx') (ih hsubs hv')

lemma selectedOption_same (h : List.Forall₂ SameSubscript values values') :
    Program.selectedOption values = Program.selectedOption values' := by
  unfold Program.selectedOption
  replace h := List.forall₂_reverse_iff.2 h
  generalize values.reverse = vs at h
  generalize values'.reverse = vs' at h
  induction h with
  | nil => rfl
  | @cons v v' vs vs' hv _ ih =>
    rw [List.find?_cons, List.find?_cons, ← hv.selects]
    cases hs : v.2 with
    | true => exact congrArg (some ∘ Program.optionNumber) (hv.option hs)
    | false => exact ih

lemma Similar.optionOf (h : Similar p columns columns' rows bound frame frame')
    (hvalues : List.Forall₂ SameSubscript values values') {n n' : Int}
    (hn : Program.optionOf frame name values = .ok n) (hn' : Program.optionOf frame' name values' = .ok n') :
    n = n' := by
  unfold Program.optionOf at hn hn'
  rw [← selectedOption_same hvalues] at hn'
  split at hn
  · rename_i hs
    cases hn
    rw [hs] at hn'
    cases hn'
    rfl
  · rename_i hs
    rw [hs] at hn'
    dsimp only at hn'
    have hrel := h.binding? optionsDimension
    split at hn <;> cases hn
    split at hn' <;> cases hn'
    rename_i hb _ _ hb'
    rw [hb, hb'] at hrel
    rw [(Option.rel_some_some.1 hrel).2 rfl]

lemma Similar.parameterColumn (h : Similar p columns columns' rows bound frame frame') {q : Parameter}
    (hvalues : List.Forall₂ SameSubscript values values') {r r' : String × Nat}
    (hr : Program.parameterColumn frame q name values = .ok r)
    (hr' : Program.parameterColumn frame' q name values' = .ok r') : r = r' := by
  unfold Program.parameterColumn at hr hr'
  split at hr
  · rename_i hq
    rw [if_pos hq, bind_eq_ok] at hr'
    rw [bind_eq_ok] at hr
    obtain ⟨n, hn, hr⟩ := hr
    obtain ⟨n', hn', hr'⟩ := hr'
    obtain rfl := h.optionOf hvalues hn hn'
    split at hr <;> cases hr
    rename_i hcolumn
    rw [hcolumn] at hr'
    cases hr'
    rfl
  · rename_i hq
    rw [if_neg hq] at hr'
    cases hr
    cases hr'
    rfl

lemma readParameter_valueAt {column : String} {v : Value} (hv : Program.readParameter frame columns name column = .ok v)
    {cs : List (List Cell)} (hcs : columns ≠ [] → frame.rows = cs.map (p.catalog.readColumns columns)) :
    ∃ cells ∈ cs, v = p.catalog.valueAt column cells := by
  unfold Program.readParameter at hv
  split at hv
  · cases hv
  · rename_i row rest hrows
    split at hv <;> cases hv
    rename_i hget
    rw [Option.bind_eq_some_iff] at hget
    obtain ⟨i, hi, hget⟩ := hget
    have hne : columns ≠ [] := by
      rintro rfl
      cases hi
    rw [hcs hne] at hrows
    cases cs with
    | nil => cases hrows
    | cons cells cs =>
      obtain ⟨rfl, -⟩ := List.cons_eq_cons.1 hrows
      rw [getElem?_valueAt hi] at hget
      exact ⟨cells, List.mem_cons_self, (Option.some.inj hget).symm⟩

lemma Similar.readParameter (h : Similar p columns columns' rows bound frame frame') {q : Parameter}
    (hq : p.settings.parameters.get? name = some q) (hliteral : q.literal = none) (hd : p.Determines rows bound name)
    {column : String} (hcolumn : column ∈ q.columns) {v v' : Value}
    (hv : Program.readParameter frame columns name column = .ok v)
    (hv' : Program.readParameter frame' columns' name column = .ok v') : v = v' := by
  obtain ⟨cs, cs', hperm, hsub, hagree, hcs, hcs'⟩ := h.rows
  obtain ⟨a, ha, rfl⟩ := readParameter_valueAt hv hcs
  obtain ⟨b, hb, rfl⟩ := readParameter_valueAt hv' hcs'
  replace hb := hperm.mem_iff.2 hb
  exact hd q hq hliteral column hcolumn a (hsub ha) b (hsub hb) fun dim hdim => hagree dim hdim a ha b hb

variable {α : Type} [Scalar α]

lemma Similar.parameter (h : Similar p columns columns' rows bound frame frame') (hd : p.Determines rows bound name)
    {subs subs' : List Subscript} (hsubs : subs.map Subscript.selector = subs'.map Subscript.selector) {c c' : α}
    (hc : Program.parameter p.settings frame columns name subs = .ok c)
    (hc' : Program.parameter p.settings frame' columns' name subs' = .ok c') : c = c' := by
  obtain ⟨q, hq, hvalue⟩ := Program.parameter_eq_ok hc
  obtain ⟨q', hq', hvalue'⟩ := Program.parameter_eq_ok hc'
  obtain rfl := Option.some.inj (hq.symm.trans hq')
  rcases hvalue with ⟨x, hx, rfl⟩ | ⟨hx, hne, values, column, option, v, hvalues, hcolumn, hv, hgives⟩
  · rcases hvalue' with ⟨x', hx', rfl⟩ | ⟨hx', -⟩
    · rw [Option.some.inj (hx.symm.trans hx')]
    · exact nomatch hx.symm.trans hx'
  · rcases hvalue' with ⟨x', hx', rfl⟩ | ⟨-, -, values', column', option', v', hvalues', hcolumn', hv', hgives'⟩
    · exact nomatch hx.symm.trans hx'
    · have hsame := h.subscripts hsubs hvalues hvalues'
      obtain ⟨rfl, rfl⟩ := Prod.mk.inj (h.parameterColumn hsame hcolumn hcolumn')
      obtain rfl := h.readParameter hq hx hd (Program.mem_of_parameterColumn hne hcolumn) hv hv'
      exact hgives.unique hgives'

lemma tupleKey_same (h : List.Forall₂ SameSubscript values values') :
    Cell.tupleKey (values.map (·.1)) = Cell.tupleKey (values'.map (·.1)) := by
  have hkeys : (values.map (·.1)).map Cell.key = (values'.map (·.1)).map Cell.key := by
    induction h with
    | nil => rfl
    | cons hv _ ih =>
      simp only [List.map_cons, hv.key]
      exact congrArg _ ih
  rw [Cell.tupleKey, Cell.tupleKey, hkeys]

lemma Similar.equation (h : Similar p columns columns' rows bound frame frame') (name : String) :
    Similar p columns columns' rows bound { frame with equation := name } { frame' with equation := name } :=
  ⟨h.bindings, h.rows⟩

lemma Similar.reference (h : Similar p columns columns' rows bound frame frame') {isVariable : Bool}
    (hd : isVariable = false → p.Determines rows bound name) {subs subs' : List Subscript}
    (hsubs : subs.map Subscript.selector = subs'.map Subscript.selector) {i i' : Instr α}
    (hi : p.reference frame columns name isVariable subs = .ok i)
    (hi' : p.reference frame' columns' name isVariable subs' = .ok i') : i = i' := by
  unfold Program.reference at hi hi'
  cases isVariable with
  | true =>
    simp only [if_true, bind_eq_ok, orFault_eq_ok] at hi hi'
    obtain ⟨values, hvalues, k, hk, hi⟩ := hi
    obtain ⟨values', hvalues', k', hk', hi'⟩ := hi'
    cases hi
    cases hi'
    have hkey := tupleKey_same (h.subscripts hsubs hvalues hvalues')
    unfold Offsets.offset VariableInstance.keyOf at hk hk'
    rw [← hkey] at hk'
    split at hk <;> cases hk
    rename_i hindex
    rw [hindex] at hk'
    cases hk'
    rfl
  | false =>
    simp only [Bool.false_eq_true, if_false, bind_eq_ok] at hi hi'
    obtain ⟨c, hc, hi⟩ := hi
    obtain ⟨c', hc', hi'⟩ := hi'
    cases hi
    cases hi'
    rw [h.parameter (hd rfl) hsubs hc hc']

end References

variable {β γ : Type}

lemma exists_matching {f : β → String} {g : γ → String} {l : List β} {l' : List γ} (h : (l.map f).Perm (l'.map g)) :
    ∃ l'', l''.Perm l' ∧ List.Forall₂ (fun a b => f a = g b) l l'' := by
  induction l generalizing l' with
  | nil =>
    obtain rfl := List.map_eq_nil_iff.1 h.symm.eq_nil
    exact ⟨[], .nil, .nil⟩
  | cons a l ih =>
    obtain ⟨b, hb, hkey⟩ := List.mem_map.1 (h.subset List.mem_cons_self)
    obtain ⟨s, t, rfl⟩ := List.append_of_mem hb
    have hmiddle : (s ++ b :: t).Perm (b :: (s ++ t)) := List.perm_middle
    replace h := h.trans (hmiddle.map g)
    rw [List.map_cons, List.map_cons, hkey] at h
    obtain ⟨l'', hperm, hmatch⟩ := ih (List.perm_cons _ |>.1 h)
    exact ⟨b :: l'', (hperm.cons b).trans hmiddle.symm, .cons hkey.symm hmatch⟩

lemma exists_zip_perm {l l' : List β} (h : l.Perm l') {m' : List γ} (hlength : l'.length = m'.length) :
    ∃ m, m.Perm m' ∧ l.length = m.length ∧ (l.zip m).Perm (l'.zip m') := by
  induction h generalizing m' with
  | nil => exact ⟨m', .refl _, hlength, .refl _⟩
  | cons a _ ih =>
    cases m' with
    | nil => cases hlength
    | cons c m' =>
      obtain ⟨m, hm, hlm, hzip⟩ := ih (Nat.succ.inj hlength)
      exact ⟨c :: m, hm.cons c, congrArg Nat.succ hlm, hzip.cons (a, c)⟩
  | swap a b l =>
    match m', hlength with
    | c :: d :: m', hlength => exact ⟨d :: c :: m', .swap c d m', hlength, .swap _ _ _⟩
  | trans h₁ _ ih₁ ih₂ =>
    obtain ⟨m, hm, hlm, hzip⟩ := ih₂ hlength
    obtain ⟨m₁, hm₁, hlm₁, hzip₁⟩ := ih₁ hlm
    exact ⟨m₁, hm₁.trans hm, hlm₁, hzip₁.trans hzip⟩

lemma eq_of_forall₂ {δ : Type} {R : β → γ → Prop} {l : List β} {l' : List γ} {m m' : List δ} (h : List.Forall₂ R l l')
    (hm : l.length = m.length) (hm' : l'.length = m'.length)
    (heq : ∀ a b c c', R a b → (a, c) ∈ l.zip m → (b, c') ∈ l'.zip m' → c = c') : m = m' := by
  induction h generalizing m m' with
  | nil => rw [List.length_eq_zero_iff.1 hm.symm, List.length_eq_zero_iff.1 hm'.symm]
  | @cons a b l l' hab _ ih =>
    match m, m', hm, hm' with
    | c :: m, c' :: m', hm, hm' =>
      rw [heq a b c c' hab List.mem_cons_self List.mem_cons_self,
        ih (Nat.succ.inj hm) (Nat.succ.inj hm') fun a b c c' hr hc hc' =>
          heq a b c c' hr (List.mem_cons_of_mem _ hc) (List.mem_cons_of_mem _ hc')]

section Loops

variable {p : Program} {columns columns' : List String} {rows : List (List Cell)} {bound : List String}
  {frame frame' : Frame}
  {dim : String}

lemma iterates_cases {its : List Iteration} (h : Iterates p columns frame dim its) :
    (dim = optionsDimension ∧ its = p.catalog.optionValues.map fun v => ⟨v, frame.rows⟩) ∨
      ∃ column i, p.catalog.resolve dim = .ok ⟨dim, some column⟩ ∧ columns.findIdx? (· == column) = some i ∧
        its = Program.groupBy i frame.rows := by
  obtain ⟨memo, memo', h⟩ := h
  exact iterations_cases (congrArg Prod.fst h)

lemma same_bindings_within (h : Similar p columns columns' rows bound frame frame') {it it' : Iteration}
    (hkey : it.key = it'.key) (hoption : dim = optionsDimension → it.value = it'.value) :
    List.Forall₂ Binding.Same (within frame dim it).bindings (within frame' dim it').bindings :=
  List.rel_append h.bindings (.cons ⟨rfl, hkey, fun ho => congrArg some (hoption ho)⟩ .nil)

lemma Similar.option (h : Similar p columns columns' rows bound frame frame') (v : Value) :
    Similar p columns columns' rows (optionsDimension :: bound) (within frame optionsDimension ⟨v, frame.rows⟩)
      (within frame' optionsDimension ⟨v, frame'.rows⟩) := by
  obtain ⟨cs, cs', hperm, hsub, hagree, hcs, hcs'⟩ := h.rows
  refine ⟨same_bindings_within h rfl fun _ => rfl, cs, cs', hperm, hsub, ?_, hcs, hcs'⟩
  refine List.forall_mem_cons.2 ⟨fun a _ b _ column hcolumn => ?_, hagree⟩
  cases hcolumn

variable {column : String} {i : Nat}

lemma filter_readColumns (hi : columns.findIdx? (· == column) = some i) (key : String) (cs : List (List Cell)) :
    (cs.map (p.catalog.readColumns columns)).filter (Program.hasKey i key) =
      (cs.filter fun cells => (p.catalog.valueAt column cells).key == key).map (p.catalog.readColumns columns) := by
  rw [List.filter_map]
  congr 1
  refine List.filter_congr fun cells _ => ?_
  simp only [Function.comp_apply, Program.hasKey, getElem?_valueAt hi, Option.any_some]

lemma ne_nil_of_findIdx? (hi : columns.findIdx? (· == column) = some i) : columns ≠ [] := by
  rintro rfl
  cases hi

lemma mem_keys_groupBy (hi : columns.findIdx? (· == column) = some i) {cs : List (List Cell)} {key : String} :
    key ∈ (Program.groupBy i (cs.map (p.catalog.readColumns columns))).map Iteration.key ↔
      ∃ cells ∈ cs, (p.catalog.valueAt column cells).key = key := by
  have hgroups := Program.groups_groupBy i (cs.map (p.catalog.readColumns columns))
  constructor
  · intro hkey
    obtain ⟨it, hit, rfl⟩ := List.mem_map.1 hkey
    obtain ⟨row, hrow, hvalue⟩ := hgroups.value it hit
    obtain ⟨cells, hcells, rfl⟩ := List.mem_map.1 hrow
    rw [getElem?_valueAt hi] at hvalue
    exact ⟨cells, hcells, congrArg Value.key (Option.some.inj hvalue)⟩
  · rintro ⟨cells, hcells, rfl⟩
    exact hgroups.all _ (List.mem_map_of_mem hcells) _ (getElem?_valueAt hi cells)

lemma Similar.groupBy (h : Similar p columns columns' rows bound frame frame')
    (hdim : p.catalog.resolve dim = .ok ⟨dim, some column⟩) {i' : Nat} (hi : columns.findIdx? (· == column) = some i)
    (hi' : columns'.findIdx? (· == column) = some i') :
    ((Program.groupBy i frame.rows).map Iteration.key).Perm ((Program.groupBy i' frame'.rows).map Iteration.key) ∧
    ∀ it ∈ Program.groupBy i frame.rows, ∀ it' ∈ Program.groupBy i' frame'.rows, it.key = it'.key →
      Similar p columns columns' rows (dim :: bound) (within frame dim it) (within frame' dim it') := by
  have hne : dim ≠ optionsDimension := by
    rintro rfl
    cases hdim
  obtain ⟨cs, cs', hperm, hsub, hagree, hcs, hcs'⟩ := h.rows
  replace hcs := hcs (ne_nil_of_findIdx? hi)
  replace hcs' := hcs' (ne_nil_of_findIdx? hi')
  have hgroups := Program.groups_groupBy i frame.rows
  have hgroups' := Program.groups_groupBy i' frame'.rows
  constructor
  · rw [List.perm_ext_iff_of_nodup hgroups.nodup hgroups'.nodup]
    intro key
    rw [hcs, hcs', mem_keys_groupBy hi, mem_keys_groupBy hi']
    simp only [hperm.mem_iff]
  · intro it hit it' hit' hkey
    have hrows : it.rows = (cs.filter fun cells => (p.catalog.valueAt column cells).key == it.key).map
        (p.catalog.readColumns columns) := by
      rw [hgroups.filtered it hit, hcs, filter_readColumns hi]
    have hrows' : it'.rows = (cs'.filter fun cells => (p.catalog.valueAt column cells).key == it.key).map
        (p.catalog.readColumns columns') := by
      rw [hgroups'.filtered it' hit', hcs', filter_readColumns hi', hkey]
    refine ⟨same_bindings_within h hkey fun ho => absurd ho hne, _, _, hperm.filter _,
      fun a ha => hsub (List.mem_of_mem_filter ha), ?_, fun _ => hrows, fun _ => hrows'⟩
    refine List.forall_mem_cons.2 ⟨fun a ha b hb d hd => ?_, fun d hd a ha b hb => ?_⟩
    · obtain rfl : column = d := by
        rw [hdim] at hd
        cases hd
        rfl
      rw [beq_iff_eq.1 (List.mem_filter.1 ha).2, beq_iff_eq.1 (List.mem_filter.1 hb).2]
    · exact hagree d hd a (List.mem_of_mem_filter ha) b (List.mem_of_mem_filter hb)

lemma Similar.iterations (h : Similar p columns columns' rows bound frame frame') {its its' : List Iteration}
    (hits : Iterates p columns frame dim its) (hits' : Iterates p columns' frame' dim its') :
    ∃ its'', its''.Perm its' ∧ List.Forall₂ (fun it it' =>
      Similar p columns columns' rows (dim :: bound) (within frame dim it) (within frame' dim it')) its its'' := by
  rcases iterates_cases hits with ⟨rfl, rfl⟩ | ⟨column, i, hdim, hi, rfl⟩
  · rcases iterates_cases hits' with ⟨-, rfl⟩ | ⟨column, i, hdim, -⟩
    · refine ⟨_, .refl _, ?_⟩
      rw [List.forall₂_map_left_iff, List.forall₂_map_right_iff, List.forall₂_same]
      exact fun v _ => h.option v
    · cases hdim
  · rcases iterates_cases hits' with ⟨rfl, rfl⟩ | ⟨column', i', hdim', hi', rfl⟩
    · cases hdim
    · obtain rfl : column = column' := by
        rw [hdim] at hdim'
        cases hdim'
        rfl
      obtain ⟨hkeys, hsimilar⟩ := h.groupBy hdim hi hi'
      obtain ⟨its'', hperm, hmatch⟩ := exists_matching hkeys
      refine ⟨its'', hperm, ?_⟩
      have hall := List.forall₂_iff_zip.1 hmatch
      refine List.forall₂_iff_zip.2 ⟨hall.1, fun {it it'} hmem => ?_⟩
      have hmem' := List.of_mem_zip hmem
      exact hsimilar it hmem'.1 it' (hperm.subset hmem'.2) (hall.2 hmem)

end Loops

section Values

variable {K : Type} [Field K] [LinearOrder K] [Functions K]

lemma best_spec {precedes : K → K → Bool} {R : K → K → Prop} (hrefl : ∀ a, R a a)
    (htrans : ∀ {a b c}, R a b → R b c → R a c) (h : ∀ a b, if precedes a b then R a b else R b a)
    (x : K) (xs : List K) :
    Scalar.best precedes x xs ∈ x :: xs ∧ ∀ a ∈ x :: xs, R (Scalar.best precedes x xs) a := by
  induction xs generalizing x with
  | nil => exact ⟨List.mem_cons_self, by simpa [Scalar.best] using hrefl x⟩
  | cons y ys ih =>
    have hbest : Scalar.best precedes x (y :: ys) =
        if precedes y x then Scalar.best precedes y ys else Scalar.best precedes x ys := by
      simp [Scalar.best, Scalar.isNaN]
    have hyx := h y x
    rw [hbest]
    split_ifs at hyx ⊢ with hp
    · obtain ⟨hmem, hall⟩ := ih y
      obtain ⟨hy, hys⟩ := List.forall_mem_cons.1 hall
      exact ⟨List.mem_cons_of_mem _ hmem, List.forall_mem_cons.2 ⟨htrans hy hyx, hall⟩⟩
    · obtain ⟨hmem, hall⟩ := ih x
      obtain ⟨hx, hxs⟩ := List.forall_mem_cons.1 hall
      refine ⟨?_, List.forall_mem_cons.2 ⟨hx, List.forall_mem_cons.2 ⟨htrans hx hyx, hxs⟩⟩⟩
      rcases List.mem_cons.1 hmem with hm | hm
      · rw [hm]
        exact List.mem_cons_self
      · exact List.mem_cons_of_mem _ (List.mem_cons_of_mem _ hm)

lemma best_perm {precedes : K → K → Bool} {R : K → K → Prop} (hrefl : ∀ a, R a a)
    (htrans : ∀ {a b c}, R a b → R b c → R a c) (hanti : ∀ {a b}, R a b → R b a → a = b)
    (h : ∀ a b, if precedes a b then R a b else R b a) {u u' : K} {us us' : List K}
    (hperm : (u :: us).Perm (u' :: us')) :
    Scalar.best precedes u us = Scalar.best precedes u' us' := by
  obtain ⟨hmem, hall⟩ := best_spec hrefl htrans h u us
  obtain ⟨hmem', hall'⟩ := best_spec hrefl htrans h u' us'
  exact hanti (hall _ (hperm.mem_iff.2 hmem')) (hall' _ (hperm.mem_iff.1 hmem))

omit [Field K] [LinearOrder K] [Functions K] in
lemma Keyword.apply_nil [Scalar K] (k : Keyword) : k.opcode.apply ([] : List K) = .error (.noOperand k.opcode) := by
  cases k <;> rfl

lemma Keyword.apply_perm (k : Keyword) {us us' : List K} (h : us.Perm us') {v v' : K} (hv : k.opcode.apply us = .ok v)
    (hv' : k.opcode.apply us' = .ok v') : v = v' := by
  have hless : ∀ a b : K, if Scalar.less a b then a ≤ b else b ≤ a := by
    intro a b
    split_ifs with hab
    · exact (of_decide_eq_true hab).le
    · exact not_lt.1 fun hlt => hab (decide_eq_true hlt)
  cases us with
  | nil =>
    rw [k.apply_nil] at hv
    cases hv
  | cons u us =>
    cases us' with
    | nil =>
      rw [k.apply_nil] at hv'
      cases hv'
    | cons u' us' =>
      cases k with
      | sum =>
        cases hv
        cases hv'
        rw [sum_eq, sum_eq, h.sum_eq]
      | min =>
        cases hv
        cases hv'
        exact best_perm (R := (· ≤ ·)) le_refl le_trans le_antisymm hless h
      | max =>
        cases hv
        cases hv'
        exact best_perm (R := fun a b => b ≤ a) le_refl (fun hab hbc => hbc.trans hab) (fun hab hba => hba.antisymm hab)
          (fun a b => hless b a) h

theorem Similar.evaluates {p : Program} {columns columns' : List String} {x : List K} {frame : Frame}
    {f : Formula} {v : K}
    (h : Evaluates p columns x frame f v) {rows : List (List Cell)} {bound : List String} {frame' : Frame} {v' : K}
    (hsimilar : Similar p columns columns' rows bound frame frame') (hsettled : p.Settled rows bound f)
    (h' : Evaluates p columns' x frame' f v') : v = v' := by
  induction h generalizing bound frame' v' with
  | number =>
    cases h'
    rfl
  | reference hsubs hi hv =>
    cases hsettled with
    | reference hd =>
      cases h' with
      | reference hsubs' hi' hv' =>
        obtain rfl := hsimilar.reference hd (hsubs.trans hsubs'.symm) hi hi'
        exact hv.unique hv'
  | equation he _ ih =>
    cases hsettled with
    | equation he' hsettled =>
      cases h' with
      | equation he'' h' =>
        obtain rfl := Option.some.inj (he.symm.trans he')
        obtain rfl := Option.some.inj (he.symm.trans he'')
        exact ih (hsimilar.equation _) hsettled h'
  | negate _ ih =>
    cases hsettled with
    | negate hsettled =>
      cases h' with
      | negate h' => rw [ih hsimilar hsettled h']
  | binary _ _ happly ihl ihr =>
    cases hsettled with
    | binary hl hr =>
      cases h' with
      | binary hl' hr' happly' =>
        obtain rfl := ihl hsimilar hl hl'
        obtain rfl := ihr hsimilar hr hr'
        exact Except.ok.inj (happly.symm.trans happly')
  | call hlength _ happly ih =>
    cases hsettled with
    | call hsettled =>
      cases h' with
      | call hlength' hargs' happly' =>
        obtain rfl := eq_of_forall₂ (R := Eq) (List.forall₂_refl _) hlength hlength' fun a b c c' hab hc hc' => by
          subst hab
          exact ih (a, c) hc hsimilar (hsettled a (List.of_mem_zip hc).1) (hargs' (a, c') hc')
        exact Except.ok.inj (happly.symm.trans happly')
  | empty hits hk =>
    cases h' with
    | empty => rfl
    | loop hits' hlength' _ happly' =>
      obtain ⟨its, hperm, hmatch⟩ := hsimilar.iterations hits hits'
      cases hmatch
      rw [hperm.symm.eq_nil, List.length_nil] at hlength'
      rw [List.length_eq_zero_iff.1 hlength'.symm, Keyword.apply_nil] at happly'
      cases happly'
  | loop hits hlength _ happly ih =>
    cases hsettled with
    | loop hsettled =>
      cases h' with
      | empty hits' =>
        obtain ⟨its, hperm, hmatch⟩ := hsimilar.iterations hits hits'
        rw [hmatch.length_eq, hperm.eq_nil, List.length_nil] at hlength
        rw [List.length_eq_zero_iff.1 hlength.symm, Keyword.apply_nil] at happly
        cases happly
      | loop hits' hlength' hall' happly' =>
        obtain ⟨its, hperm, hmatch⟩ := hsimilar.iterations hits hits'
        obtain ⟨us, hus, hlength'', hzip⟩ := exists_zip_perm hperm hlength'
        obtain rfl := eq_of_forall₂ hmatch hlength hlength'' fun a b c c' hab hc hc' =>
          ih (a, c) hc hab hsettled (hall' (b, c') (hzip.subset hc'))
        exact Keyword.apply_perm _ hus happly happly'

end Values

end LandUse
