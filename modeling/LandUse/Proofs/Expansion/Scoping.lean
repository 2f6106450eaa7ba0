import LandUse.Proofs.Expansion.Contents
import LandUse.Proofs.Expansion.Coverage
import LandUse.Proofs.Expansion.Grouping
import LandUse.Proofs.Expansion.Instances
import LandUse.Proofs.Expansion.Missing

namespace LandUse

open Outcome Direct

structure Frame.Holds (p : Program) (columns free bound : List String) (frame : Frame) : Prop where
  rows : ∀ row ∈ frame.rows, ∃ cells, p.catalog.Selected cells ∧
    row = Table.readRow (p.catalog.table.cellsOf columns cells)
  value : ∀ d, d ∈ bound ∨ d ∈ free → ∃ v, frame.binding? d = some (some v) ∧ p.catalog.Occurs d v
  defined : ∀ b ∈ frame.bindings, ∃ d, p.catalog.resolve b.dim = .ok d

structure Program.Supplied (p : Program) : Prop where
  columns : p.catalog.columns = p.settings.dimensions
  options : p.catalog.options = p.settings.options
  numbers : ∀ v ∈ p.settings.decisions, p.offsets.Numbers p.catalog v

lemma Frame.binding?_append (f : Frame) (bs : List Binding) (d : String) :
    Frame.binding? { f with bindings := f.bindings ++ bs } d =
      ((bs.reverse.find? (·.dim == d)).map (·.value)).or (f.binding? d) := by
  unfold binding?
  rw [List.reverse_append, List.find?_append, Option.map_or]

lemma Frame.binding?_bind (f : Frame) (dim : String) (v : Cell) (d : String) :
    (f.bind dim v).binding? d = if d = dim then some v else f.binding? d := by
  rw [bind, binding?_append]
  by_cases h : d = dim
  · simp [h]
  · simp [h, Ne.symm h]

namespace Program

variable {p : Program} {columns free bound : List String} {frame : Frame}
variable {column name : String} {f : Failure}

lemma resolve_eq {dim : String} (hne : dim ≠ optionsDimension) (h : p.catalog.columns.get? dim = some column) :
    p.catalog.resolve dim = .ok ⟨dim, some column⟩ := by
  unfold Catalog.resolve
  rw [if_neg fun h => hne (beq_iff_eq.1 h), h]

lemma readRow_findIdx? (t : Table) (cells : List Cell) (h : column ∈ columns) :
    ∃ i, columns.findIdx? (· == column) = some i ∧
      (Table.readRow (t.cellsOf columns cells))[i]? = some (Table.readCell (t.cellOf column cells)) := by
  have hsome : (columns.findIdx? (· == column)).isSome :=
    List.findIdx?_isSome.trans (List.any_eq_true.2 ⟨column, h, beq_self_eq_true _⟩)
  obtain ⟨i, hi⟩ := Option.isSome_iff_exists.1 hsome
  refine ⟨i, hi, ?_⟩
  obtain ⟨hlt, heq, -⟩ := List.findIdx?_eq_some_iff_getElem.1 hi
  have hget : columns[i]? = some column := by rw [List.getElem?_eq_getElem hlt, beq_iff_eq.1 heq]
  rw [Table.readRow, Table.cellsOf, List.getElem?_map, List.getElem?_map, hget]
  rfl

namespace Supplied

lemma subscript_ok (hp : p.Supplied) (h : frame.Holds p columns free bound) (name : String) {sub : Subscript}
    (hsub : ∀ d, sub.Names d → d ∈ bound ∨ d ∈ free) : ∃ w b, subscript frame name sub = .ok (some w, b) ∧
      ∀ dim, p.settings.Selects dim sub → p.catalog.Occurs dim w := by
  have hoption : ∀ {i : Nat}, i < p.settings.options.length →
      p.catalog.Occurs optionsDimension (.int (Int64.ofNat i)) := fun {i} hi =>
    .option (List.mem_map.2 ⟨i, List.mem_range.2 (hp.options ▸ hi), rfl⟩)
  cases sub with
  | dim span d =>
    obtain ⟨v, hv, hoccurs⟩ := h.value d (hsub d rfl)
    refine ⟨v, d == optionsDimension, by rw [subscript, hv], ?_⟩
    rintro _ rfl
    exact hoccurs
  | option span o index =>
    refine ⟨_, _, rfl, ?_⟩
    rintro _ ⟨rfl, hi⟩
    exact hoption hi
  | index span value expr =>
    refine ⟨_, _, rfl, ?_⟩
    rintro _ ⟨rfl, hi⟩
    exact hoption hi

lemma subscripts_ok (hp : p.Supplied) (h : frame.Holds p columns free bound) (name : String) {subs : List Subscript}
    (hsubs : ∀ sub ∈ subs, ∀ d, sub.Names d → d ∈ bound ∨ d ∈ free) :
    ∃ values, subs.mapM (subscript frame name) = .ok values ∧ ∀ dims, List.Forall₂ p.settings.Selects dims subs →
      List.Forall₂ (fun d cell => ∃ w, cell = some w ∧ p.catalog.Occurs d w) dims (values.map (·.1)) := by
  induction subs with
  | nil =>
    refine ⟨[], rfl, ?_⟩
    rintro _ ⟨⟩
    exact .nil
  | cons sub subs ih =>
    obtain ⟨hsub, hsubs⟩ := List.forall_mem_cons.1 hsubs
    obtain ⟨w, b, hw, hoccurs⟩ := hp.subscript_ok h name hsub
    obtain ⟨values, hvalues, hall⟩ := ih hsubs
    refine ⟨(some w, b) :: values, by rw [List.mapM_cons, hw, ok_bind, hvalues, ok_bind]; rfl, ?_⟩
    rintro _ (_ | ⟨hd, hdims⟩)
    exact .cons ⟨w, rfl, hoccurs _ hd⟩ (hall _ hdims)

end Supplied

variable {α : Type} [Scalar α]

omit [Scalar α] in
lemma harmless_missing (hs : p.catalog.table.Proper → ¬ p.Subscripted) (text : String) :
    p.Harmless (.failure (.lookup "" (-1) ("no decision variable " ++ text))) := by
  rintro _ ⟨⟩
  refine ⟨?_, ?_, fun ht h => absurd h (hs ht)⟩
  · rintro ⟨_, _, _, h⟩
    cases congrArg Failure.kind h
  · rintro (⟨_, _, _, h⟩ | ⟨_, column, name, h⟩)
    · cases congrArg Failure.kind h
    · have hstart := congrArg (fun f => f.message.toList.take 4) h
      dsimp only [Failure.lookup] at hstart
      rw [String.append_assoc, String.append_assoc, String.append_assoc, start_append _ (by decide),
        start_append _ (by decide)] at hstart
      exact absurd hstart (by decide)

lemma harmless_reference (hp : p.Supplied) (hframe : frame.Holds p columns free bound) {isVariable : Bool}
    {subs : List Subscript} (hsubs : ∀ sub ∈ subs, ∀ d, sub.Names d → d ∈ bound ∨ d ∈ free)
    (hcolumns : isVariable = false → ∀ q, p.settings.parameters.get? name = some q → q.columns ⊆ columns)
    (hdeclared : p.Subscripted → (CodeToken.param name isVariable subs).Subscripted p.settings) {e : Fault}
    (h : (p.reference frame columns name isVariable subs : Except Fault (Instr α)) = .error e) : p.Harmless e := by
  cases refused_reference h with
  | @unbound span dim hsub hdim =>
    -- The dimension of a subscript is bound in the frame.
    obtain ⟨v, hv, -⟩ := hframe.value dim (hsubs _ hsub dim rfl)
    rw [hdim] at hv
    cases hv
  | @noInstance values hvariable hvalues hnone =>
    refine harmless_missing (fun ht hs => ?_) _
    obtain ⟨values', hvalues', hoccur⟩ := hp.subscripts_ok hframe name hsubs
    obtain rfl := Except.ok.inj (hvalues.symm.trans hvalues')
    rw [hvariable] at hdeclared
    obtain ⟨v, hv, rfl, hselects⟩ := hdeclared hs
    obtain ⟨k, hk⟩ := (hp.numbers v hv).offset ht (hoccur _ hselects)
    exact hnone k hk
  | @unread q column row hvariable hq hcolumn hrow hread =>
    -- The column is one of those that are read.
    obtain ⟨cells, -, rfl⟩ := hframe.rows row hrow
    obtain ⟨i, hi, hget⟩ := readRow_findIdx? p.catalog.table cells (hcolumns hvariable q hq hcolumn)
    rw [hi, Option.bind_some, hget] at hread
    cases hread
  | empty => exact harmless_violation
  | noOption => exact harmless_dimension_ending (by decide) (by decide) (by decide)
  | unknown => exact harmless_lookup_start (by decide) (by decide) (by decide)
  | noRow =>
    rw [String.append_assoc]
    exact harmless_lookup_start (by decide) (by decide) (by decide)
  | noColumn | noNumber | noValue =>
    rw [String.append_assoc, String.append_assoc]
    exact harmless_lookup_start (by decide) (by decide) (by decide)

end Program

namespace Direct

variable {p : Program} {columns free bound : List String} {frame : Frame}

def Ready (p : Program) (columns : List String) (dim : String) : Prop :=
  dim ≠ optionsDimension → ∃ column, p.settings.dimensions.get? dim = some column ∧ column ∈ columns

variable {dim : String}

lemma resolve_ready (hp : p.Supplied) (h : Ready p columns dim) :
    (dim = optionsDimension ∧ p.catalog.resolve dim = .ok ⟨dim, none⟩) ∨
      ∃ column ∈ columns, dim ≠ optionsDimension ∧ p.catalog.columns.get? dim = some column ∧
        p.catalog.resolve dim = .ok ⟨dim, some column⟩ := by
  by_cases hdim : dim = optionsDimension
  · left
    exact ⟨hdim, if_pos (beq_iff_eq.2 hdim)⟩
  · right
    obtain ⟨column, hget, hmem⟩ := h hdim
    rw [← hp.columns] at hget
    exact ⟨column, hmem, hdim, hget, Program.resolve_eq hdim hget⟩

lemma harmless_iterations (hp : p.Supplied) (hframe : frame.Holds p columns free bound) (hdim : Ready p columns dim)
    {memo : Catalog.Memo} {e : Fault} (h : (iterations p columns frame dim memo).1 = .error e) : p.Harmless e := by
  unfold iterations at h
  rcases resolve_ready hp hdim with ⟨-, hres⟩ | ⟨column, hmem, -, -, hres⟩
  · rw [hres] at h
    cases h
  · obtain ⟨i, hi, -⟩ := Program.readRow_findIdx? p.catalog.table [] hmem
    rw [hres] at h
    dsimp only at h
    rw [hi] at h
    dsimp only at h
    split at h
    · rename_i f _ hlength
      cases h
      obtain ⟨message, rfl⟩ := Catalog.fails_conditionalLength ⟨_, hres⟩ hframe.defined memo f
        (congrArg Prod.fst hlength)
      exact Program.harmless_access message none
    · split at h
      · cases h
      · cases h
        exact Program.harmless_dimension_ending (by decide) (by decide) (by decide)

lemma holds_inside (hp : p.Supplied) {here : Place} (hframe : here.frame.Holds p columns free bound)
    (hdim : Ready p columns dim) {memo : Catalog.Memo} {its : List Iteration}
    (h : (iterations p columns here.frame dim memo).1 = .ok its) {it : Iteration} (hit : it ∈ its) (n : Nat) :
    (here.inside dim it n).frame.Holds p columns free (bound ++ [dim]) := by
  have hits : (∀ row ∈ it.rows, row ∈ here.frame.rows) ∧ p.catalog.Occurs dim it.value ∧
      ∃ d, p.catalog.resolve dim = .ok d := by
    rcases iterations_cases h with ⟨rfl, rfl⟩ | ⟨column, i, hcolumn, hi, rfl⟩
    · obtain ⟨v, hv, rfl⟩ := List.mem_map.1 hit
      exact ⟨fun _ h => h, .option hv, _, if_pos (beq_self_eq_true _)⟩
    · obtain ⟨column', hmem, hne, hget, hres⟩ := (resolve_ready hp hdim).resolve_left fun h => by
        cases hcolumn.symm.trans h.2
      obtain rfl : column = column' := Option.some.inj
        (congrArg Dimension.column? (Except.ok.inj (hcolumn.symm.trans hres)))
      have hgroups := Program.groups_groupBy i here.frame.rows
      obtain ⟨row, hrow, hvalue⟩ := hgroups.value it hit
      obtain ⟨cells, hsel, rfl⟩ := hframe.rows row hrow
      obtain ⟨i', hi', hread⟩ := Program.readRow_findIdx? p.catalog.table cells hmem
      obtain rfl : i' = i := Option.some.inj (hi'.symm.trans hi)
      have hvalue : Table.readCell (p.catalog.table.cellOf column cells) = it.value :=
        Option.some.inj (hread.symm.trans hvalue)
      refine ⟨fun row hrow => ?_, hvalue ▸ .cell hne hget hsel, _, hres⟩
      rw [hgroups.filtered it hit] at hrow
      exact List.mem_of_mem_filter hrow
  obtain ⟨hrows, hvalue, hres⟩ := hits
  refine ⟨fun row hrow => hframe.rows row (hrows row hrow), fun d hd => ?_, fun b hb => ?_⟩
  · show ∃ v, (Frame.bind _ dim _).binding? d = _ ∧ _
    rw [Frame.binding?_bind]
    by_cases h : d = dim
    · rw [if_pos h, h]
      exact ⟨it.value, rfl, hvalue⟩
    · rw [if_neg h]
      refine hframe.value d (hd.imp_left fun hd => ?_)
      exact (List.mem_append.1 hd).resolve_right fun hd => h (List.mem_singleton.1 hd)
  · rcases List.mem_append.1 hb with hb | hb
    · exact hframe.defined b hb
    · rw [List.mem_singleton.1 hb]
      exact hres

variable {α : Type} [Scalar α] {visit : String → Place → ExpandM α Unit} {V : String → List String → Prop}

def Follows (p : Program) (tokens : List CodeToken) : Prop :=
  p.Subscripted → ∀ token ∈ tokens, token.Subscripted p.settings

omit [Scalar α] in
lemma fails_mark (here : Place) (i : Instr α) : Fails p.Harmless (mark here i) := fails_modify _

omit [Scalar α] in
lemma fails_markAll (here : Place) (is : List (Instr α)) : Fails p.Harmless (markAll here is) :=
  fails_forM fun i _ => fails_mark here i

mutual

theorem fails_expand (hp : p.Supplied)
    (hvisit : ∀ name bound, V name bound → ∀ here : Place, here.frame.Holds p columns free bound →
      Fails p.Harmless (visit name here)) {here : Place} {bound : List String} (hframe :
      here.frame.Holds p columns free bound)
    (k : Nat) : (e : Expr) → e.Covered p.settings columns free V bound → Follows p (e.code k) →
    Fails p.Harmless (expand p columns visit here e)
  | .number .., _, _ => fails_mark here _
  | .param _ name isVariable subs, hc, hs => by
    intro t e h
    rw [expand, result_bind, result_ofExcept] at h
    cases hi : (p.reference here.frame columns name isVariable subs : Except Fault (Instr α)) with
    | error e' =>
      rw [hi] at h
      cases h
      exact Program.harmless_reference hp hframe hc.1 hc.2 (fun h => hs h _ (List.mem_singleton_self _)) hi
    | ok i =>
      rw [hi] at h
      cases h
  | .equation _ name, hc, _ => hvisit name bound hc (here.referring name) ⟨hframe.rows, hframe.value, hframe.defined⟩
  | .negate _ _ arg, hc, hs => by
    refine (fails_mark here _).bind fun _ _ _ => fails_expand hp hvisit hframe (k + 1) arg hc fun h token hmem => ?_
    exact hs h token (List.mem_cons_of_mem _ hmem)
  | .binary _ _ _ lhs rhs, hc, hs => by
    refine (fails_mark here _).bind fun _ _ _ => (fails_expand hp hvisit hframe (k + 1) lhs hc.1 ?_).bind fun _ _ _ =>
      fails_expand hp hvisit hframe (k + 1 + (lhs.code (k + 1)).length) rhs hc.2 ?_
    · exact fun h token hmem => hs h token (List.mem_cons_of_mem _ (List.mem_append_left _ hmem))
    · exact fun h token hmem => hs h token (List.mem_cons_of_mem _ (List.mem_append_right _ hmem))
  | .group _ arg, hc, hs => fails_expand hp hvisit hframe k arg hc hs
  | .call _ fn _ _ _ args, hc, hs => by
    refine (fails_markAll here _).bind fun _ _ _ =>
      fails_expandArgs hp hvisit hframe (k + (fn.head args.length).length) args hc fun h token hmem => ?_
    exact hs h token (List.mem_append_right _ hmem)
  | .loop _ keyword dim _ _ _ body, hc, hs => by
    have hbody : Follows p (body.code (k + 1)) := fun h token hmem => hs h token (List.mem_cons_of_mem _ hmem)
    refine Fails.bind (fun t e h => ?_) fun t its hits => ?_
    · rw [result_askIterations] at h
      exact harmless_iterations hp hframe hc.1 h
    · rw [result_askIterations] at hits
      cases its with
      | nil =>
        dsimp only
        split
        · exact fails_mark here _
        · exact fails_throw (Program.harmless_dimension_ending (by decide) (by decide) (by decide))
      | cons it its =>
        refine (fails_markAll here _).bind fun _ _ _ => fails_forM fun (it', n) hit' => ?_
        have hit' : it' ∈ it :: its := List.fst_mem_of_mem_zipIdx hit'
        exact fails_expand hp hvisit (holds_inside hp hframe hc.1 hits hit' n) (k + 1) body hc.2 hbody

theorem fails_expandArgs (hp : p.Supplied)
    (hvisit : ∀ name bound, V name bound → ∀ here : Place, here.frame.Holds p columns free bound →
      Fails p.Harmless (visit name here)) {here : Place} {bound : List String} (hframe :
      here.frame.Holds p columns free bound)
    (k : Nat) : (es : List Expr) → ArgumentsCovered p.settings columns free V bound es → Follows p (argumentCode k es) →
    Fails p.Harmless (expandArgs p columns visit here es)
  | [], _, _ => fails_pure _
  | e :: es, hc, hs => by
    refine (fails_expand hp hvisit hframe k e hc.1 ?_).bind fun _ _ _ =>
      fails_expandArgs hp hvisit hframe (k + (e.code k).length) es hc.2 ?_
    · exact fun h token hmem => hs h token (List.mem_append_left _ hmem)
    · exact fun h token hmem => hs h token (List.mem_append_right _ hmem)

end

theorem fails_expandEquation (hp : p.Supplied) (hi : p.Indexed) (depth : Nat) {d : Nat} {name : String}
    (hc : p.Covered columns free d name bound) {here : Place} (hframe : here.frame.Holds p columns free bound) :
    Fails p.Harmless (expandEquation p columns depth name here : ExpandM α Unit) := by
  induction depth generalizing d name bound here with
  | zero => exact fails_throw Program.harmless_violation
  | succ depth ih =>
    cases d with
    | zero => exact hc.elim
    | succ d =>
      obtain ⟨e, he, hc⟩ := hc
      simp only [expandEquation, he]
      have hvisit : ∀ name bound, p.Covered columns free d name bound → ∀ here : Place,
          here.frame.Holds p columns free bound →
          Fails p.Harmless (expandEquation (α := α) p columns depth name here) :=
        fun name bound hv here hh => ih hv hh
      refine fails_expand hp hvisit hframe 0 e hc fun hs => ?_
      exact hs (name, Code.ofExpr name e) (Dict.mem_of_get? (by rw [hi.get?_codes, he, Option.map_some]))

end Direct

end LandUse
