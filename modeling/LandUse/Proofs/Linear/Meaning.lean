import LandUse.Proofs.Expansion.Rules
import LandUse.Proofs.Linear.Prefix

/-! The value of a formula is given by recursion over it, and the instructions it is expanded to have this value. -/

namespace LandUse

open Outcome Exact Direct

def Parameter.Gives {α : Type} [Scalar α] (q : Parameter) (v : Value) (option : Nat) (c : α) : Prop :=
  if q.contains.isEmpty then ∃ x, v.toFloat = .ok x ∧ c = Scalar.ofFloat x * Program.scaleOf q
  else ∃ part, q.contains[option]? = some part ∧ c =
    if Text.contains v.toText part then Program.scaleOf q else Scalar.zero

lemma Parameter.Gives.unique {α : Type} [Scalar α] {q : Parameter} {v : Value} {option : Nat} {c c' : α}
    (h : q.Gives v option c) (h' : q.Gives v option c') : c = c' := by
  unfold Gives at h h'
  split at h
  · rename_i hq
    rw [if_pos hq] at h'
    obtain ⟨x, hx, rfl⟩ := h
    obtain ⟨y, hy, rfl⟩ := h'
    obtain rfl := Except.ok.inj (hx.symm.trans hy)
    rfl
  · rename_i hq
    rw [if_neg hq] at h'
    obtain ⟨part, hpart, rfl⟩ := h
    obtain ⟨part', hpart', rfl⟩ := h'
    obtain rfl := Option.some.inj (hpart.symm.trans hpart')
    rfl

lemma Program.parameter_eq_ok {α : Type} [Scalar α] {s : Settings} {frame : Frame}
    {columns : List String} {name : String}
    {subs : List Subscript} {c : α} (h : parameter s frame columns name subs = .ok c) :
    ∃ q, s.parameters.get? name = some q ∧
      ((∃ x, q.literal = some x ∧ c = Scalar.ofFloat x * scaleOf q) ∨
        q.literal = none ∧ q.columns ≠ [] ∧ ∃ values column option v, subs.mapM (subscript frame name) = .ok values ∧
          parameterColumn frame q name values = .ok (column, option) ∧
          readParameter frame columns name column = .ok v ∧ q.Gives v option c) := by
  unfold parameter at h
  split at h
  · cases h
  · rename_i q hq
    refine ⟨q, hq, ?_⟩
    dsimp only at h
    split at h
    · rename_i x hx
      cases h
      exact .inl ⟨x, hx, rfl⟩
    · rename_i hx
      split at h
      · cases h
      · rename_i hne
        simp only [bind_eq_ok, orFault_eq_ok] at h
        obtain ⟨values, hvalues, ⟨column, option⟩, hcolumn, v, hv, h⟩ := h
        refine .inr ⟨hx, by simpa using hne, values, column, option, v, hvalues, hcolumn, hv, ?_⟩
        unfold Parameter.Gives
        split at h
        · rename_i hc
          rw [if_pos hc]
          split at h <;> cases h
          exact ⟨_, ‹_›, rfl⟩
        · rename_i hc
          rw [if_neg hc]
          split at h <;> cases h
          exact ⟨_, ‹_›, rfl⟩

variable {K : Type} [Field K] [LinearOrder K] [Functions K]

def Instr.Has (x : List K) (v : K) : Instr K → Prop
  | .num c => c = v
  | .var k => ∃ n : Nat, k = n ∧ x[n]? = some v
  | .op _ | .list .. => False

omit [Field K] [LinearOrder K] [Functions K] in
lemma Instr.Has.unique {x : List K} {v v' : K} {i : Instr K} (h : i.Has x v) (h' : i.Has x v') : v = v' := by
  cases i with
  | num c => exact h.symm.trans h'
  | var k =>
    obtain ⟨n, hn, hv⟩ := h
    obtain ⟨n', hn', hv'⟩ := h'
    obtain rfl : n = n' := by omega
    exact Option.some.inj (hv.symm.trans hv')
  | op | list => exact h.elim

inductive Evaluates (p : Program) (columns : List String) (x : List K) : Frame → Formula → K → Prop
  | number {frame : Frame} {value : Float} : Evaluates p columns x frame (.number value) (Scalar.ofFloat value)
  | reference {frame : Frame} {name : String} {isVariable : Bool} {subs : List Subscript} {selectors : List Selector}
      {i : Instr K} {v : K} : subs.map Subscript.selector = selectors →
      p.reference frame columns name isVariable subs = .ok i → i.Has x v →
      Evaluates p columns x frame (.reference name isVariable selectors) v
  | equation {frame : Frame} {name : String} {e : Expr} {v : K} : p.trees.get? name = some e →
      Evaluates p columns x { frame with equation := name } e.formula v → Evaluates p columns x frame (.equation name) v
  | negate {frame : Frame} {arg : Formula} {v : K} : Evaluates p columns x frame arg v →
      Evaluates p columns x frame (.negate arg) (-v)
  | binary {frame : Frame} {op : Operator} {lhs rhs : Formula} {u v w : K} : Evaluates p columns x frame lhs u →
      Evaluates p columns x frame rhs v → op.opcode.apply [u, v] = .ok w →
      Evaluates p columns x frame (.binary op lhs rhs) w
  | call {frame : Frame} {fn : Function} {args : List Formula} {us : List K} {v : K} : args.length = us.length →
      (∀ a ∈ args.zip us, Evaluates p columns x frame a.1 a.2) → fn.opcode.apply us = .ok v →
      Evaluates p columns x frame (.call fn args) v
  | empty {frame : Frame} {keyword : Keyword} {dim : String} {arg : Formula} : Iterates p columns frame dim [] →
      keyword.binary?.isSome = true → Evaluates p columns x frame (.loop keyword dim arg) 0
  | loop {frame : Frame} {keyword : Keyword} {dim : String} {arg : Formula} {its : List Iteration}
      {us : List K} {v : K} :
      Iterates p columns frame dim its → its.length = us.length →
      (∀ a ∈ its.zip us, Evaluates p columns x (within frame dim a.1) arg a.2) → keyword.opcode.apply us = .ok v →
      Evaluates p columns x frame (.loop keyword dim arg) v

section Values

variable {x : List K}

lemma Denotes.length {n : Nat} {code rest : List (Instr K)} {vs : List K} (h : Denotes x n code vs rest) :
    vs.length = n := by
  induction h with
  | done => rfl
  | num _ _ ih | var _ _ ih => rw [List.length_cons, ih]
  | op _ _ _ _ _ ih | list _ _ _ _ ih => rw [List.length_cons, ih]

lemma Denotes.join {m n : Nat} {code mid rest : List (Instr K)} {us vs : List K} (h : Denotes x m code us mid)
    (h' : Denotes x n mid vs rest) : Denotes x (m + n) code (us ++ vs) rest := by
  induction h with
  | done =>
    rw [Nat.zero_add]
    exact h'
  | num c _ ih =>
    rw [Nat.add_right_comm]
    exact .num c (ih h')
  | var hv _ ih =>
    rw [Nat.add_right_comm]
    exact .var hv (ih h')
  | op hop hargs happly _ _ ih =>
    rw [Nat.add_right_comm]
    exact .op hop hargs happly (ih h')
  | list hargs happly _ _ ih =>
    rw [Nat.add_right_comm]
    exact .list hargs happly (ih h')

end Values

abbrev EvaluatesAll (p : Program) (columns : List String) (x : List K) : List (Frame × Formula) → List K → Prop :=
  List.Forall₂ fun a v => Evaluates p columns x a.1 a.2 v

def Means (p : Program) (columns : List String) (x : List K) (work : List (Frame × Formula))
    (code : List (Instr K)) : Prop :=
  ∀ n rest vs, Denotes x (work.length + n) (code ++ rest) vs [] →
    ∃ us ws, vs = us ++ ws ∧ EvaluatesAll p columns x work us ∧ Denotes x n rest ws []

variable {p : Program} {columns : List String} {x : List K}

lemma Means.nil : Means p columns x [] [] := by
  intro n rest vs h
  rw [List.length_nil, Nat.zero_add] at h
  exact ⟨[], vs, rfl, .nil, h⟩

lemma Means.append {work work' : List (Frame × Formula)} {code code' : List (Instr K)} (h : Means p columns x work code)
    (h' : Means p columns x work' code') : Means p columns x (work ++ work') (code ++ code') := by
  intro n rest vs hd
  rw [List.length_append, Nat.add_assoc, List.append_assoc] at hd
  obtain ⟨us, ws, rfl, hus, hd⟩ := h _ _ _ hd
  obtain ⟨us', ws, rfl, hus', hd⟩ := h' _ _ _ hd
  exact ⟨us ++ us', ws, (List.append_assoc _ _ _).symm, List.rel_append hus hus', hd⟩

lemma Means.evaluates {frame : Frame} {e : Formula} {code : List (Instr K)} {v : K}
    (h : Means p columns x [(frame, e)] code)
    (hv : HasValue x code v) : Evaluates p columns x frame e v := by
  rw [HasValue, ← List.append_nil code] at hv
  obtain ⟨us, ws, hvs, hus, hd⟩ := h 0 [] [v] hv
  cases hd
  rw [List.append_nil] at hvs
  rw [← hvs] at hus
  exact (List.forall₂_cons.1 hus).1

lemma means_number {frame : Frame} {e : Formula} {c : K} (h : Evaluates p columns x frame e c) :
    Means p columns x [(frame, e)] [.num c] := by
  intro n rest vs hd
  rw [List.length_singleton, Nat.add_comm] at hd
  cases hd with
  | num _ hd => exact ⟨[c], _, rfl, .cons h .nil, hd⟩

lemma Means.equation {frame : Frame} {name : String} {e : Expr} {code : List (Instr K)}
    (he : p.trees.get? name = some e)
    (h : Means p columns x [({ frame with equation := name }, e.formula)] code) :
    Means p columns x [(frame, .equation name)] code := by
  intro n rest vs hd
  obtain ⟨us, ws, rfl, hus, hrest⟩ := h n rest vs hd
  obtain ⟨v, rfl⟩ := List.length_eq_one_iff.1 hus.length_eq.symm
  exact ⟨[v], ws, rfl, .cons (.equation he (List.forall₂_cons.1 hus).1) .nil, hrest⟩

lemma instr_of_reference {frame : Frame} {name : String} {isVariable : Bool} {subs : List Subscript} {i : Instr K}
    (h : p.reference frame columns name isVariable subs = .ok i) : (∃ c, i = .num c) ∨ ∃ k, i = .var k := by
  unfold Program.reference at h
  split at h
  · simp only [bind_eq_ok] at h
    obtain ⟨values, -, k, -, h⟩ := h
    cases h
    exact .inr ⟨k, rfl⟩
  · rw [bind_eq_ok] at h
    obtain ⟨c, -, h⟩ := h
    cases h
    exact .inl ⟨c, rfl⟩

lemma means_reference {frame : Frame} {name : String} {isVariable : Bool} {subs : List Subscript} {i : Instr K}
    (h : p.reference frame columns name isVariable subs = .ok i) :
    Means p columns x [(frame, .reference name isVariable (subs.map Subscript.selector))] [i] := by
  rcases instr_of_reference h with ⟨c, rfl⟩ | ⟨k, rfl⟩
  · exact means_number (.reference rfl h rfl)
  · intro n rest vs hd
    rw [List.length_singleton, Nat.add_comm] at hd
    cases hd with
    | var hv hd => exact ⟨[_], _, rfl, .cons (.reference rfl h ⟨_, rfl, hv⟩) .nil, hd⟩

lemma Means.operation {frame : Frame} {e : Formula} {i : Instr K} {op : Opcode} {work : List (Frame × Formula)}
    {code : List (Instr K)} (h : Means p columns x work code)
    (hi : i = .list op work.length ∨ i = .op op ∧ op.arity = .fixed work.length)
    (hv : ∀ us v, EvaluatesAll p columns x work us → op.apply us = .ok v → Evaluates p columns x frame e v) :
    Means p columns x [(frame, e)] (i :: code) := by
  intro n rest vs hd
  rw [List.length_singleton, Nat.add_comm] at hd
  have hargs : ∃ args mid v ws, vs = v :: ws ∧ Denotes x work.length (code ++ rest) args mid ∧ op.apply args = .ok v ∧
      Denotes x n mid ws [] := by
    rcases hi with rfl | ⟨rfl, harity⟩
    · cases hd with
      | list hargs happly hd => exact ⟨_, _, _, _, rfl, hargs, happly, hd⟩
    · cases hd with
      | op harity' hargs happly hd =>
        obtain rfl := Opcode.Arity.fixed.inj (harity.symm.trans harity')
        exact ⟨_, _, _, _, rfl, hargs, happly, hd⟩
  obtain ⟨args, mid, v, ws, rfl, hargs, happly, hd⟩ := hargs
  obtain ⟨us, ws', hvs, hus, hd⟩ := h _ _ _ (hargs.join hd)
  obtain ⟨rfl, rfl⟩ := List.append_inj hvs (hargs.length.trans hus.length_eq)
  exact ⟨[v], ws, rfl, .cons (hv _ _ hus happly) .nil, hd⟩

lemma Means.negate {frame : Frame} {arg : Formula} {code : List (Instr K)} (h : Means p columns x [(frame, arg)] code) :
    Means p columns x [(frame, .negate arg)] (.op .neg :: code) := by
  refine h.operation (.inr ⟨rfl, rfl⟩) fun us v hus happly => ?_
  obtain ⟨u, rfl⟩ := List.length_eq_one_iff.1 hus.length_eq.symm
  cases happly
  exact .negate (List.forall₂_cons.1 hus).1

lemma Means.binary {frame : Frame} {op : Operator} {lhs rhs : Formula} {code : List (Instr K)}
    (h : Means p columns x [(frame, lhs), (frame, rhs)] code) :
    Means p columns x [(frame, .binary op lhs rhs)] (.op op.opcode :: code) := by
  have harity : op.opcode.arity = .fixed 2 := by cases op <;> rfl
  refine h.operation (.inr ⟨rfl, harity⟩) fun us w hus happly => ?_
  obtain ⟨u, v, rfl⟩ := List.length_eq_two.1 hus.length_eq.symm
  obtain ⟨hu, hus⟩ := List.forall₂_cons.1 hus
  exact .binary hu (List.forall₂_cons.1 hus).1 happly

lemma Keyword.apply_singleton (k : Keyword) (u : K) : k.opcode.apply [u] = .ok u := by
  cases k with
  | sum => simp [opcode, Opcode.apply, Opcode.arity, Opcode.applyList, sum_eq]
  | min => rfl
  | max => rfl

lemma Means.header {frame : Frame} {e : Formula} {keyword : Keyword} {work : List (Frame × Formula)}
    {code : List (Instr K)}
    (h : Means p columns x work code)
    (hv : ∀ us v, EvaluatesAll p columns x work us → keyword.opcode.apply us = .ok v →
      Evaluates p columns x frame e v) :
    Means p columns x [(frame, e)] ((keyword.header work.length).instrs ++ code) := by
  rcases keyword.header_cases work.length with ⟨hlength, hheader⟩ | ⟨hlength, rfl, hheader⟩ | hheader
  · obtain ⟨a, rfl⟩ := List.length_eq_one_iff.1 hlength
    intro n rest vs hd
    rw [hheader] at hd
    obtain ⟨us, ws, rfl, hus, hrest⟩ := h n rest vs hd
    obtain ⟨u, rfl⟩ := List.length_eq_one_iff.1 hus.length_eq.symm
    exact ⟨[u], ws, rfl, .cons (hv [u] u hus (keyword.apply_singleton u)) .nil, hrest⟩
  · rw [hheader]
    change Means p columns x _ (.op .plus :: code)
    refine h.operation (.inr ⟨rfl, by rw [hlength]; rfl⟩) fun us v hus happly => hv us v hus ?_
    obtain ⟨a, b, rfl⟩ := List.length_eq_two.1 (hus.length_eq.symm.trans hlength)
    simpa [Keyword.opcode, Opcode.apply, Opcode.arity, Opcode.applyList, Opcode.applyBinary, sum_eq] using happly
  · rw [hheader]
    exact h.operation (.inl rfl) hv

lemma Means.call {frame : Frame} {fn : Function} {args : List Formula} {code : List (Instr K)}
    (h : Means p columns x (args.map (frame, ·)) code) (hargs : fn.accepts args.length = true) :
    Means p columns x [(frame, .call fn args)] (callHead fn args.length ++ code) := by
  have hlength : (args.map ((frame, ·) : Formula → Frame × Formula)).length = args.length := List.length_map _
  have hv : ∀ us v, EvaluatesAll p columns x (args.map (frame, ·)) us → fn.opcode.apply us = .ok v →
      Evaluates p columns x frame (.call fn args) v := by
    intro us v hus happly
    rw [EvaluatesAll, List.forall₂_map_left_iff, List.forall₂_iff_zip] at hus
    exact .call hus.1 (fun a ha => hus.2 ha) happly
  unfold callHead
  split
  · rename_i k hk
    have hopcode : fn.opcode = k.opcode := by cases fn <;> cases hk <;> rfl
    rw [← hlength]
    exact h.header (hopcode ▸ hv)
  · rename_i hk
    have harity : fn.opcode.arity = .fixed fn.minArgs ∧ fn.maxArgs? = some fn.minArgs := by
      cases fn <;> first | exact ⟨rfl, rfl⟩ | cases hk
    simp only [Function.accepts, harity.2, Bool.and_eq_true, decide_eq_true_eq] at hargs
    have hmin : fn.minArgs = args.length := by omega
    exact h.operation (.inr ⟨rfl, by rw [hlength, harity.1, hmin]⟩) hv

lemma Means.loop {frame : Frame} {keyword : Keyword} {dim : String} {arg : Formula} {its : List Iteration}
    {code : List (Instr K)} (hits : Iterates p columns frame dim its)
    (h : Means p columns x (its.map fun it => (within frame dim it, arg)) code) :
    Means p columns x [(frame, .loop keyword dim arg)] ((keyword.header its.length).instrs ++ code) := by
  have hlength : (its.map fun it => (within frame dim it, arg)).length = its.length := List.length_map _
  rw [← hlength]
  refine h.header fun us v hus happly => ?_
  rw [EvaluatesAll, List.forall₂_map_left_iff, List.forall₂_iff_zip] at hus
  exact .loop hits hus.1 (fun a ha => hus.2 ha) happly

lemma Means.flatten {β : Type} {f : β → Frame × Formula} {bs : List β} {codes : List (List (Instr K))}
    (hlength : bs.length = codes.length) (h : ∀ a ∈ bs.zip codes, Means p columns x [f a.1] a.2) :
    Means p columns x (bs.map f) codes.flatten := by
  have hall : List.Forall₂ (fun b code => Means p columns x [f b] code) bs codes :=
    List.forall₂_iff_zip.2 ⟨hlength, fun ha => h _ ha⟩
  clear hlength h
  induction hall with
  | nil => exact .nil
  | cons hcode _ ih => exact hcode.append ih

theorem Direct.Expands.means {frame : Frame} {e : Formula} {code : List (Instr K)}
    (h : Expands p columns frame e code) :
    Means p columns x [(frame, e)] code := by
  induction h with
  | number => exact means_number .number
  | reference hi => exact means_reference hi
  | equation he _ ih => exact ih.equation he
  | negate _ ih => exact ih.negate
  | binary _ _ ihl ihr => exact (ihl.append ihr).binary
  | call hargs hlength _ ih => exact (Means.flatten hlength ih).call hargs
  | empty hits hk =>
    rw [zero_eq]
    exact means_number (.empty hits hk)
  | loop hits _ hlength _ ih => exact .loop hits (Means.flatten hlength ih)

lemma evaluates_of_expansion (hp : p.Indexed) {depth : Nat} {name : String} {frame : Frame}
    {memo : Catalog.Memo} {t : Trace K}
    (h : expansion p columns depth name frame memo = (.ok (), t)) {e : Expr} (he : p.trees.get? name = some e) {v : K}
    (hv : HasValue x (t.marks.reverse.map (·.instr)) v) : Evaluates p columns x frame e.formula v := by
  obtain ⟨e', he', hcode⟩ := expands_of_expansion hp h
  obtain rfl := Option.some.inj (he.symm.trans he')
  exact hcode.means.evaluates hv

end LandUse
