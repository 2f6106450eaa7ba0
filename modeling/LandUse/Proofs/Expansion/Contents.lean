import LandUse.Proofs.Expansion.Direct
import LandUse.Proofs.Expansion.References
import LandUse.Proofs.Expansion.Refusals

namespace LandUse

open Outcome

def Instr.Plain {α : Type} (n : Nat) : Instr α → Prop
  | .op _ | .num _ => True
  | .list operation _ => operation.arity = .list
  | .var k => 0 ≤ k ∧ k < n

lemma Keyword.plain_header {α : Type} (k : Keyword) (count n : Nat) :
    ∀ i ∈ ((k.header count).instrs : List (Instr α)), i.Plain n := by
  have hk : k.opcode.arity = .list := by cases k <;> rfl
  unfold Keyword.header
  split
  · exact List.forall_mem_nil _
  · split
    · split
      · simp [Header.instrs, Instr.Plain]
      · simpa [Header.instrs, Instr.Plain] using hk
    · simpa [Header.instrs, Instr.Plain] using hk

lemma Offsets.lastIndex_lt {key : String} {keys : List String} {i : Nat} (h : lastIndex key keys = some i) :
    i < keys.length := by
  unfold lastIndex at h
  obtain ⟨j, hj, rfl⟩ := Option.map_eq_some_iff.mp h
  have hlt := (List.findIdx?_eq_some_iff_findIdx_eq.mp hj).1
  rw [List.length_reverse] at hlt
  omega

namespace Direct

variable {α : Type} [Scalar α]

def Explained (p : Program) : Fault → Prop
  | .violation => ∃ name param, p.settings.parameters.get? name = some param ∧ param.literal = none ∧ param.columns = []
  | _ => True

def Sound (p : Program) {β : Type} (x : ExpandM α β) : Prop :=
  ∀ t, (∀ m ∈ t.marks, m.instr.Plain p.offsets.keys.length) →
    (∀ m ∈ (result x t).2.marks, m.instr.Plain p.offsets.keys.length) ∧ ∀ e, (result x t).1 = .error e → Explained p e

variable {p : Program}

omit [Scalar α] in
lemma Sound.bind {β γ : Type} {x : ExpandM α β} {f : β → ExpandM α γ} (hx : Sound p x) (hf : ∀ b, Sound p (f b)) :
    Sound p (x >>= f) := by
  intro t ht
  obtain ⟨hmarks, hfaults⟩ := hx t ht
  rw [result_bind]
  rcases hr : result x t with ⟨e | b, t'⟩
  · rw [hr] at hmarks hfaults
    refine ⟨hmarks, ?_⟩
    rintro _ ⟨⟩
    exact hfaults e rfl
  · rw [hr] at hmarks
    exact hf b t' hmarks

variable {β : Type} {e : Fault} {frame : Frame} {name : String} {subs : List Subscript}

omit [Scalar α] in
lemma sound_pure (b : β) : Sound p (pure b : ExpandM α β) := fun _ ht => ⟨ht, fun _ h => nomatch h⟩

omit [Scalar α] in
lemma sound_throw (h : Explained p e) : Sound p (throw e : ExpandM α β) := by
  refine fun _ ht => ⟨ht, ?_⟩
  rintro _ ⟨⟩
  exact h

omit [Scalar α] in
lemma sound_mark (here : Place) {i : Instr α} (hi : i.Plain p.offsets.keys.length) : Sound p (mark here i) :=
  fun _ ht => ⟨List.forall_mem_cons.mpr ⟨hi, ht⟩, fun _ h => nomatch h⟩

omit [Scalar α] in
lemma sound_markOp (here : Place) (op : Opcode) : Sound p (mark here (.op op) : ExpandM α Unit) :=
  sound_mark here trivial

omit [Scalar α] in
lemma sound_forM {f : β → ExpandM α PUnit} {bs : List β} (hf : ∀ b ∈ bs, Sound p (f b)) : Sound p (bs.forM f) := by
  induction bs with
  | nil => exact sound_pure _
  | cons b bs ih =>
    obtain ⟨hb, hbs⟩ := List.forall_mem_cons.mp hf
    exact hb.bind fun _ => ih hbs

omit [Scalar α] in
lemma sound_markAll (here : Place) {is : List (Instr α)} (his : ∀ i ∈ is, i.Plain p.offsets.keys.length) :
    Sound p (markAll here is) :=
  sound_forM fun i hi => sound_mark here (his i hi)

lemma explained_reference {columns : List String} {isVariable : Bool}
    (h : (p.reference frame columns name isVariable subs : Except Fault (Instr α)) = .error e) : Explained p e := by
  cases Program.refused_reference h with
  | empty hq hliteral hcolumns => exact ⟨name, _, hq, hliteral, hcolumns⟩
  | _ => trivial

lemma explained_iterations {columns : List String} {dim : String} {memo : Catalog.Memo}
    (h : (iterations p columns frame dim memo).1 = .error e) : Explained p e := by
  unfold iterations at h
  split at h
  · cases h
    trivial
  · cases h
  · split at h
    · cases h
      trivial
    · dsimp only at h
      split at h
      · cases h
        trivial
      · split at h <;> cases h
        trivial

lemma plain_reference {columns : List String} {isVariable : Bool} {i : Instr α}
    (h : p.reference frame columns name isVariable subs = .ok i) : i.Plain p.offsets.keys.length := by
  unfold Program.reference at h
  split at h
  · simp only [bind_eq_ok, orFault_eq_ok] at h
    obtain ⟨values, -, k, hk, h⟩ := h
    cases h
    unfold Offsets.offset at hk
    split at hk <;> cases hk
    exact ⟨Int.natCast_nonneg k, by exact_mod_cast Offsets.lastIndex_lt ‹_›⟩
  · rw [bind_eq_ok] at h
    obtain ⟨c, -, h⟩ := h
    cases h
    trivial

omit [Scalar α] in
lemma plain_callHead (fn : Function) (count n : Nat) : ∀ i ∈ (callHead fn count : List (Instr α)), i.Plain n := by
  unfold callHead
  split
  · exact Keyword.plain_header _ count n
  · simp [Instr.Plain]

variable {columns : List String} {visit : String → Place → ExpandM α Unit}

mutual

theorem sound_expand (here : Place) : (e : Expr) → (e.ForRefs fun name => ∀ here, Sound p (visit name here)) →
    Sound p (expand p columns visit here e)
  | .number .., _ => sound_mark here trivial
  | .param _ name isVariable subs, _ => by
    intro t ht
    rw [expand, result_bind, result_ofExcept]
    cases hi : (p.reference here.frame columns name isVariable subs : Except Fault (Instr α)) with
    | error e =>
      refine ⟨ht, ?_⟩
      rintro _ ⟨⟩
      exact explained_reference hi
    | ok i => exact sound_mark here (plain_reference hi) t ht
  | .equation _ name, h => h _
  | .negate _ _ arg, h => (sound_markOp here _).bind fun _ => sound_expand here arg h
  | .binary _ _ _ lhs rhs, h =>
    (sound_markOp here _).bind fun _ => (sound_expand here lhs h.1).bind fun _ => sound_expand here rhs h.2
  | .group _ arg, h => sound_expand here arg h
  | .call _ fn _ _ _ args, h => (sound_markAll here (plain_callHead fn _ _)).bind fun _ => sound_expandArgs here args h
  | .loop _ keyword dim _ _ _ body, h => by
    refine Sound.bind (fun t ht => ?_) fun its => ?_
    · rw [result_askIterations]
      exact ⟨ht, fun e => explained_iterations⟩
    · cases its with
      | nil =>
        dsimp only
        split
        · exact sound_mark here trivial
        · exact sound_throw trivial
      | cons it its =>
        exact (sound_markAll here (keyword.plain_header _ _)).bind fun _ =>
          sound_forM fun (it, i) _ => sound_expand _ body h

theorem sound_expandArgs (here : Place) : (es : List Expr) →
    ArgumentsForRefs (fun name => ∀ here, Sound p (visit name here)) es → Sound p (expandArgs p columns visit here es)
  | [], _ => sound_pure _
  | e :: es, h => (sound_expand here e h.1).bind fun _ => sound_expandArgs here es h.2

end

theorem sound_expandEquation {d depth : Nat} (hd : d ≤ depth) (hg : p.Grounded d name) (here : Place) :
    Sound p (expandEquation p columns depth name here : ExpandM α Unit) := by
  -- On the true depth of references; the bound may be larger.
  induction d generalizing depth name here with
  | zero => exact hg.elim
  | succ d ih =>
    obtain ⟨depth, rfl⟩ : ∃ n, depth = n + 1 := ⟨depth - 1, by omega⟩
    obtain ⟨e, he, hrefs⟩ := hg
    simp only [expandEquation, he]
    exact sound_expand here e (hrefs.imp fun r hr here => ih (by omega) hr here)

end Direct

end LandUse
