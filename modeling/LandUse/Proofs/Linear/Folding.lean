import LandUse.Proofs.Expansion.Balance
import LandUse.Proofs.Linear.Meaning

namespace LandUse

open Exact Outcome

variable {K : Type} [Field K] [LinearOrder K] [Functions K]

def VariableFree {α : Type} (code : List (Instr α)) : Prop := ∀ k, .var k ∉ code

def Opcode.IsLinear (op : Opcode) : Prop := op ∈ [plus, minus, neg, mult, div]

/-- Code that is linear by its syntax: a part without variables has a value. -/
structure LinearSyntax (code : List (Instr K)) : Prop where
  product : ∀ a b, Expressions 1 a → Expressions 1 b → .op .mult :: (a ++ b) <:+: code →
    VariableFree a ∨ VariableFree b
  quotient : ∀ a b, Expressions 1 a → Expressions 1 b → .op .div :: (a ++ b) <:+: code →
    VariableFree b ∧ ¬ HasValue [] b 0
  operation : ∀ op n args, ¬ op.IsLinear → op.arity = .fixed n → Expressions n args → .op op :: args <:+: code →
    VariableFree args
  list : ∀ op n args, op ≠ .sumList → op.arity = .list → Expressions n args → .list op n :: args <:+: code →
    VariableFree args
  known : ∀ part, Expressions 1 part → VariableFree part → part <:+: code → ∃ v, HasValue [] part v

section Sound

variable {x : List K} {n : Nat} {code rest : List (Instr K)} {vs : List K}

lemma Denotes.covers (h : Denotes x n code vs rest) {k : Int} (hk : .var k ∈ code) :
    .var k ∈ rest ∨ 0 ≤ k ∧ k < x.length := by
  induction h with
  | done => exact .inl hk
  | num _ _ ih => exact ih (by simpa using hk)
  | @var _ _ _ _ j _ hj _ ih =>
    rcases List.mem_cons.1 hk with heq | hk
    · cases heq
      exact .inr ⟨Int.natCast_nonneg j, by exact_mod_cast (List.getElem?_eq_some_iff.1 hj).1⟩
    · exact ih hk
  | op _ _ _ _ ihargs ih =>
    rcases ihargs (by simpa using hk) with hmid | hk
    · exact ih hmid
    · exact .inr hk
  | list _ _ _ ihargs ih =>
    rcases ihargs (by simpa using hk) with hmid | hk
    · exact ih hmid
    · exact .inr hk

lemma plain_of_hasValue {v : K} (hcode : Expressions 1 code) (hv : HasValue x code v) :
    ∀ i ∈ code, i.Plain x.length := by
  intro i hi
  cases i with
  | op | num => trivial
  | list op count => exact hcode.arity_of_list hi
  | var k =>
    rcases Denotes.covers hv hi with hnil | hk
    · cases hnil
    · exact hk

lemma value_of_form {label : String} {p : LinearForm K} {v : K} (hcode : Expressions 1 code)
    (hp : RowSink.form label code = .ok p) (hv : HasValue x code v) :
    v = p.constant + (p.nonzero.map fun (k, a) => a * coordinate x k).sum := by
  have hvalue := form_hasValue hp (plain_of_hasValue hcode hv)
  rw [hv.unique hvalue, LinearForm.value, ← LinearForm.value_nonzero]
  rfl

end Sound

section Complete

variable {x : List K} {n : Nat} {code rest : List (Instr K)} {vs : List K} {stack : FormStack K}

lemma Denotes.before {mid : List (Instr K)} (h : Denotes x n code vs mid) (rest : List (Instr K)) :
    Denotes x n (code ++ rest) vs (mid ++ rest) := by
  induction h with
  | done => exact .done _
  | num c _ ih => exact .num c ih
  | var hv _ ih => exact .var hv ih
  | op hop _ happly _ ihargs ih => exact .op hop ihargs happly ih
  | list _ happly _ ihargs ih => exact .list ihargs happly ih

lemma LinearForm.constants_ofConstant (cs : List K) : (cs.map ofConstant).mapM constant? = some cs := by
  induction cs with
  | nil => rfl
  | cons c cs ih =>
    rw [List.map_cons, List.mapM_cons, ih]
    simp [constant?, ofConstant]

lemma foldInstrs_apply_known {op : Opcode} {count : Nat} {args : List K} {v : K} (hargs : args.length = count)
    (happly : op.apply args = .ok v) (stack : FormStack K) :
    foldInstrs.apply (args.map LinearForm.ofConstant ++ stack) op count = .ok (LinearForm.ofConstant v :: stack) := by
  have hlength : count = (args.map (LinearForm.ofConstant (α := K))).length := by rw [List.length_map, hargs]
  rw [hlength, foldInstrs_apply_eq (by simp), List.take_left, List.drop_left, LinearForm.apply,
    LinearForm.constants_ofConstant]
  simp only [happly]
  rfl

lemma foldInstrs_known (h : Denotes ([] : List K) n code vs rest) (hrest : foldInstrs rest = .ok stack) :
    foldInstrs code = .ok (vs.map LinearForm.ofConstant ++ stack) := by
  induction h generalizing stack with
  | done => exact hrest
  | num c _ ih =>
    rw [foldInstrs, ih hrest]
    rfl
  | var hv => cases hv
  | op hop hargs happly _ ihargs ih =>
    rw [foldInstrs, ihargs (ih hrest), ok_bind]
    simp only [hop]
    exact foldInstrs_apply_known hargs.length happly _
  | list hargs happly _ ihargs ih =>
    rw [foldInstrs, ihargs (ih hrest), ok_bind]
    exact foldInstrs_apply_known hargs.length happly _

lemma HasValue.folds {part : List (Instr K)} {v : K} (h : HasValue [] part v) (hrest : foldInstrs rest = .ok stack) :
    foldInstrs (part ++ rest) = .ok (LinearForm.ofConstant v :: stack) :=
  foldInstrs_known (Denotes.before h rest) hrest

lemma exists_fold_of_append {code' : List (Instr K)} (h : foldInstrs (code ++ code') = .ok stack) :
    ∃ stack', foldInstrs code' = .ok stack' := by
  induction code generalizing stack with
  | nil => exact ⟨stack, h⟩
  | cons i code ih =>
    rw [List.cons_append, foldInstrs, bind_eq_ok] at h
    obtain ⟨_, h, -⟩ := h
    exact ih h

end Complete

namespace LinearForm

variable {p q : LinearForm K}

lemma exists_apply {op : Opcode} {ps : List (LinearForm K)}
    (hknown : ∀ cs, ps.mapM constant? = some cs → ∃ c, op.apply cs = .ok c)
    (hunknown : ∃ r, applyUnknown op ps = .ok r) :
    ∃ r, apply op ps = .ok r := by
  unfold apply
  split
  · rename_i cs hcs
    obtain ⟨c, hc⟩ := hknown cs hcs
    rw [hc]
    exact ⟨_, rfl⟩
  · exact hunknown

lemma exists_apply_plus (p q : LinearForm K) : ∃ r, apply .plus [p, q] = .ok r := by
  refine exists_apply (fun cs hcs => ?_) ⟨_, rfl⟩
  obtain ⟨a, b, rfl⟩ := List.length_eq_two.1 (length_constants hcs)
  exact ⟨_, rfl⟩

lemma exists_apply_minus (p q : LinearForm K) : ∃ r, apply .minus [p, q] = .ok r := by
  refine exists_apply (fun cs hcs => ?_) ⟨_, rfl⟩
  obtain ⟨a, b, rfl⟩ := List.length_eq_two.1 (length_constants hcs)
  exact ⟨_, rfl⟩

lemma exists_apply_neg (p : LinearForm K) : ∃ r, apply .neg [p] = .ok r := by
  refine exists_apply (fun cs hcs => ?_) ⟨_, rfl⟩
  obtain ⟨a, rfl⟩ := List.length_eq_one_iff.1 (length_constants hcs)
  exact ⟨_, rfl⟩

lemma exists_apply_sumList (p : LinearForm K) (ps : List (LinearForm K)) : ∃ r, apply .sumList (p :: ps) = .ok r := by
  refine exists_apply (fun cs hcs => ?_) ⟨_, rfl⟩
  obtain ⟨a, as, rfl⟩ := List.exists_cons_of_length_eq_add_one (length_constants hcs)
  exact ⟨_, rfl⟩

lemma constant?_ofConstant (c : K) : (ofConstant c).constant? = some c := by
  simp [constant?, ofConstant]

lemma exists_apply_mult (h : (∃ c, p = ofConstant c) ∨ ∃ c, q = ofConstant c) : ∃ r, apply .mult [p, q] = .ok r := by
  refine exists_apply (fun cs hcs => ?_) ?_
  · obtain ⟨a, b, rfl⟩ := List.length_eq_two.1 (length_constants hcs)
    exact ⟨_, rfl⟩
  · show ∃ r, multiply p q = .ok r
    unfold multiply
    split
    · exact ⟨_, rfl⟩
    · exact ⟨_, rfl⟩
    · rename_i hq hp
      rcases h with ⟨c, rfl⟩ | ⟨c, rfl⟩
      · rw [constant?_ofConstant] at hp
        cases hp
      · rw [constant?_ofConstant] at hq
        cases hq

lemma exists_apply_div {c : K} (hc : c ≠ 0) (p : LinearForm K) : ∃ r, apply .div [p, ofConstant c] = .ok r := by
  have hzero : ¬ Scalar.isZero c = true := by rwa [isZero_iff]
  refine exists_apply (fun cs hcs => ?_) ⟨p.scale (1 / c), ?_⟩
  · obtain ⟨a, b, rfl⟩ := List.length_eq_two.1 (length_constants hcs)
    obtain rfl : c = b := by
      have hvalues := values_of_constants (v := fun _ => 0) hcs
      simpa using (List.cons.inj (List.cons.inj hvalues).2).1
    exact ⟨a / c, by simp [Opcode.apply, Opcode.arity, Opcode.applyBinary, hzero]⟩
  · simp [applyUnknown, divide, constant?_ofConstant, hzero]

end LinearForm

section Complete

variable {n : Nat} {code rest : List (Instr K)} {stack : FormStack K}

lemma exists_fold_operation {i : Instr K} {op : Opcode} {count : Nat} {args : List (Instr K)} (ps : FormStack K)
    (hi : i = .op op ∧ op.arity = .fixed count ∨ i = .list op count) (hps : ps.length = count)
    (hfold : foldInstrs (args ++ rest) = .ok (ps ++ stack)) (happly : ∃ r, LinearForm.apply op ps = .ok r) :
    ∃ r, foldInstrs (i :: (args ++ rest)) = .ok (r :: stack) := by
  obtain ⟨r, hr⟩ := happly
  have hstep : foldInstrs (i :: (args ++ rest)) = foldInstrs.apply (ps ++ stack) op count := by
    rw [foldInstrs, hfold, ok_bind]
    rcases hi with ⟨rfl, harity⟩ | rfl
    · simp only [harity]
    · rfl
  rw [← hps, foldInstrs_apply_eq (by simp), List.take_left, List.drop_left, hr] at hstep
  exact ⟨r, hstep⟩

lemma exists_pair {a b : List (Instr K)} {ps : FormStack K} (ha : Expressions 1 a) (hb : Expressions 1 b)
    (hrest : foldInstrs rest = .ok stack) (hfold : foldInstrs (a ++ b ++ rest) = .ok (ps ++ stack)) :
    ∃ p q, foldInstrs (b ++ rest) = .ok (q :: stack) ∧ foldInstrs (a ++ (b ++ rest)) = .ok (p :: q :: stack) := by
  rw [List.append_assoc] at hfold
  obtain ⟨stack₁, h₁⟩ := exists_fold_of_append hfold
  cases hb.folds rest with
  | before hrest' _ => exact nomatch hrest.symm.trans hrest'
  | refused _ h => exact nomatch h₁.symm.trans h
  | @pushed qs stack' hqs hrest' h =>
    obtain ⟨q, rfl⟩ := List.length_eq_one_iff.1 hqs
    obtain rfl := Except.ok.inj (hrest.symm.trans hrest')
    cases ha.folds (b ++ rest) with
    | before h' _ => exact nomatch h.symm.trans h'
    | refused _ h' => exact nomatch hfold.symm.trans h'
    | @pushed ps' stack₂ hps' h' hall =>
      obtain ⟨p, rfl⟩ := List.length_eq_one_iff.1 hps'
      obtain rfl := Except.ok.inj (h.symm.trans h')
      exact ⟨p, q, h, hall⟩

omit [Field K] [LinearOrder K] [Functions K] in
lemma infix_of_cons {i : Instr K} {args code whole : List (Instr K)} (h : i :: (args ++ code) <:+: whole) :
    (i :: args <:+: whole) ∧ (args <:+: whole) ∧ code <:+: whole :=
  ⟨((List.prefix_append (i :: args) code).isInfix).trans h,
    ((List.prefix_append args code).isInfix.trans (List.suffix_cons i _).isInfix).trans h,
    ((List.suffix_append (i :: args) code).isInfix).trans h⟩

section Operations

variable {whole args : List (Instr K)} {op : Opcode} {count : Nat} {qs : FormStack K}

lemma LinearSyntax.operation_folds (hwhole : LinearSyntax whole) (hop : op.arity = .fixed count)
    (hargs : Expressions count args) (hpart : .op op :: args <:+: whole) (hrest : foldInstrs rest = .ok stack)
    (hqs : qs.length = count) (hfold : foldInstrs (args ++ rest) = .ok (qs ++ stack)) :
    ∃ r, foldInstrs (.op op :: (args ++ rest)) = .ok (r :: stack) := by
  by_cases hlinear : op.IsLinear
  · have htwo : op.arity = .fixed 2 → ∃ a b, args = a ++ b ∧ Expressions 1 a ∧ Expressions 1 b := by
      intro h
      obtain rfl : count = 2 := by simpa [hop] using h
      exact hargs.first
    have hin : args <:+: whole := (List.suffix_cons _ _).isInfix.trans hpart
    simp only [Opcode.IsLinear, List.mem_cons, List.not_mem_nil, or_false] at hlinear
    rcases hlinear with rfl | rfl | rfl | rfl | rfl
    · cases hop
      obtain ⟨p, q, rfl⟩ := List.length_eq_two.1 hqs
      exact exists_fold_operation _ (.inl ⟨rfl, rfl⟩) hqs hfold (LinearForm.exists_apply_plus p q)
    · cases hop
      obtain ⟨p, q, rfl⟩ := List.length_eq_two.1 hqs
      exact exists_fold_operation _ (.inl ⟨rfl, rfl⟩) hqs hfold (LinearForm.exists_apply_minus p q)
    · cases hop
      obtain ⟨p, rfl⟩ := List.length_eq_one_iff.1 hqs
      exact exists_fold_operation _ (.inl ⟨rfl, rfl⟩) hqs hfold (LinearForm.exists_apply_neg p)
    · obtain ⟨a, b, rfl, ha, hb⟩ := htwo rfl
      obtain ⟨p, q, hq, hp⟩ := exists_pair ha hb hrest hfold
      have hinA : a <:+: whole := (List.prefix_append a b).isInfix.trans hin
      have hinB : b <:+: whole := (List.suffix_append a b).isInfix.trans hin
      rw [List.append_assoc]
      refine exists_fold_operation [p, q] (.inl ⟨rfl, rfl⟩) rfl hp (LinearForm.exists_apply_mult ?_)
      rcases hwhole.product a b ha hb hpart with hfree | hfree
      · obtain ⟨c, hc⟩ := hwhole.known a ha hfree hinA
        exact .inl ⟨c, by simpa using hp.symm.trans (hc.folds hq)⟩
      · obtain ⟨c, hc⟩ := hwhole.known b hb hfree hinB
        exact .inr ⟨c, by simpa using hq.symm.trans (hc.folds hrest)⟩
    · obtain ⟨a, b, rfl, ha, hb⟩ := htwo rfl
      obtain ⟨p, q, hq, hp⟩ := exists_pair ha hb hrest hfold
      have hinB : b <:+: whole := (List.suffix_append a b).isInfix.trans hin
      obtain ⟨hfree, hzero⟩ := hwhole.quotient a b ha hb hpart
      obtain ⟨c, hc⟩ := hwhole.known b hb hfree hinB
      obtain rfl : q = .ofConstant c := by simpa using hq.symm.trans (hc.folds hrest)
      have hne : c ≠ 0 := by
        rintro rfl
        exact hzero hc
      rw [List.append_assoc]
      exact exists_fold_operation [p, _] (.inl ⟨rfl, rfl⟩) rfl hp (LinearForm.exists_apply_div hne p)
  · have hfree := hwhole.operation op count args hlinear hop hargs hpart
    obtain ⟨v, hv⟩ := hwhole.known _ (.operation hop hargs) (by simpa [VariableFree] using hfree) hpart
    exact ⟨_, hv.folds hrest⟩

lemma LinearSyntax.list_folds (hwhole : LinearSyntax whole) (hop : op.arity = .list) (hcount : 1 ≤ count)
    (hargs : Expressions count args) (hpart : .list op count :: args <:+: whole) (hrest : foldInstrs rest = .ok stack)
    (hqs : qs.length = count) (hfold : foldInstrs (args ++ rest) = .ok (qs ++ stack)) :
    ∃ r, foldInstrs (.list op count :: (args ++ rest)) = .ok (r :: stack) := by
  by_cases hsum : op = .sumList
  · subst hsum
    obtain ⟨q, qs, rfl⟩ := List.exists_cons_of_length_pos (hqs ▸ hcount)
    exact exists_fold_operation _ (.inr rfl) hqs hfold (LinearForm.exists_apply_sumList q qs)
  · have hfree := hwhole.list op count args hsum hop hargs hpart
    obtain ⟨v, hv⟩ := hwhole.known _ (.listing hop hcount hargs) (by simpa [VariableFree] using hfree) hpart
    exact ⟨_, hv.folds hrest⟩

end Operations

theorem LinearSyntax.folds {whole : List (Instr K)} (hwhole : LinearSyntax whole) (h : Expressions n code)
    (hcode : code <:+: whole) (hrest : foldInstrs rest = .ok stack) :
    ∃ ps, ps.length = n ∧ foldInstrs (code ++ rest) = .ok (ps ++ stack) := by
  induction h generalizing rest stack with
  | none => exact ⟨[], rfl, hrest⟩
  | num c _ ih =>
    obtain ⟨ps, hps, hfold⟩ := ih ((List.suffix_cons _ _).isInfix.trans hcode) hrest
    refine ⟨.ofConstant c :: ps, congrArg (· + 1) hps, ?_⟩
    rw [List.cons_append, foldInstrs, hfold]
    rfl
  | @var _ _ k _ _ ih =>
    obtain ⟨ps, hps, hfold⟩ := ih ((List.suffix_cons _ _).isInfix.trans hcode) hrest
    refine ⟨.ofVariable k :: ps, congrArg (· + 1) hps, ?_⟩
    rw [List.cons_append, foldInstrs, hfold]
    rfl
  | op hop hargs _ ihargs ih =>
    obtain ⟨hpart, hin, hbehind⟩ := infix_of_cons hcode
    obtain ⟨ps, hps, hfold⟩ := ih hbehind hrest
    obtain ⟨qs, hqs, hfolds⟩ := ihargs hin hfold
    obtain ⟨r, hr⟩ := hwhole.operation_folds hop hargs hpart hfold hqs hfolds
    exact ⟨r :: ps, congrArg (· + 1) hps, by rw [List.cons_append, List.append_assoc, hr, List.cons_append]⟩
  | list hop hcount hargs _ ihargs ih =>
    obtain ⟨hpart, hin, hbehind⟩ := infix_of_cons hcode
    obtain ⟨ps, hps, hfold⟩ := ih hbehind hrest
    obtain ⟨qs, hqs, hfolds⟩ := ihargs hin hfold
    obtain ⟨r, hr⟩ := hwhole.list_folds hop hcount hargs hpart hfold hqs hfolds
    exact ⟨r :: ps, congrArg (· + 1) hps, by rw [List.cons_append, List.append_assoc, hr, List.cons_append]⟩

end Complete

/-- Forms have the values of their expressions, and code that is linear by its syntax has a form. -/
theorem form_sound_and_complete (code : List (Instr K)) (hcode : Expressions 1 code) (label : String) :
    (∀ p, RowSink.form label code = .ok p → ∀ (x : List K) (v : K), HasValue x code v →
      v = p.constant + (p.nonzero.map fun (k, a) => a * coordinate x k).sum) ∧
    (LinearSyntax code → ∃ p, RowSink.form label code = .ok p) := by
  refine ⟨fun p hp x v hv => value_of_form hcode hp hv, fun hlinear => ?_⟩
  have hempty : foldInstrs ([] : List (Instr K)) = .ok [] := rfl
  obtain ⟨ps, hps, hfold⟩ := hlinear.folds hcode (List.infix_refl code) hempty
  obtain ⟨p, rfl⟩ := List.length_eq_one_iff.1 hps
  rw [List.append_nil] at hfold
  exact ⟨p, by simp only [RowSink.form, hfold]; rfl⟩

lemma Expressions.unique {α : Type} {n : Nat} {a b r s : List (Instr α)} (ha : Expressions n a) (hb : Expressions n b)
    (h : a ++ r = b ++ s) : a = b ∧ r = s := by
  induction ha generalizing b r s with
  | none =>
    cases hb
    exact ⟨rfl, h⟩
  | num c _ ih =>
    cases hb <;> simp only [List.cons_append, List.cons.injEq, Instr.num.injEq, reduceCtorEq, false_and] at h
    case num hb =>
      obtain ⟨rfl, rfl⟩ := ih hb h.2
      exact ⟨by rw [h.1], rfl⟩
  | var _ _ ih =>
    cases hb <;> simp only [List.cons_append, List.cons.injEq, Instr.var.injEq, reduceCtorEq, false_and] at h
    case var hb =>
      obtain ⟨rfl, rfl⟩ := ih hb h.2
      exact ⟨by rw [h.1], rfl⟩
  | op hop _ _ ihargs ih =>
    cases hb <;> simp only [List.cons_append, List.append_assoc, List.cons.injEq, Instr.op.injEq, reduceCtorEq,
      false_and] at h
    case op hop' hargs hb =>
      obtain ⟨rfl, h⟩ := h
      cases hop.symm.trans hop'
      obtain ⟨rfl, hcode⟩ := ihargs hargs h
      obtain ⟨rfl, rfl⟩ := ih hb hcode
      exact ⟨rfl, rfl⟩
  | list _ _ _ _ ihargs ih =>
    cases hb <;> simp only [List.cons_append, List.append_assoc, List.cons.injEq, Instr.list.injEq, reduceCtorEq,
      false_and] at h
    case list hargs hb =>
      obtain ⟨⟨rfl, rfl⟩, h⟩ := h
      obtain ⟨rfl, hcode⟩ := ihargs hargs h
      obtain ⟨rfl, rfl⟩ := ih hb hcode
      exact ⟨rfl, rfl⟩

def halved : List (Instr ℚ) := [.op .div, .op .mult, .num 2, .var 0, .num 4]

lemma doubled_expression : Expressions 1 ([.op .mult, .num 2, .var 0] : List (Instr ℚ)) :=
  .operation (n := 2) rfl (.num 2 (.var (by decide) .none))

lemma halved_expression : Expressions 1 halved :=
  .operation (n := 2) rfl (doubled_expression.append (.number 4))

lemma halved_linear : LinearSyntax halved where
  product a b ha _ h := by
    obtain ⟨r, h⟩ : a ++ b <+: [.num 2, .var 0, .num 4] := by simpa [halved, List.infix_cons_iff] using h
    rw [List.append_assoc] at h
    obtain ⟨rfl, -⟩ := ha.unique (.number 2) h
    exact .inl (by simp [VariableFree])
  quotient a b ha hb h := by
    obtain ⟨r, h⟩ : a ++ b <+: [.op .mult, .num 2, .var 0, .num 4] := by simpa [halved, List.infix_cons_iff] using h
    rw [List.append_assoc] at h
    obtain ⟨rfl, h'⟩ := ha.unique doubled_expression h
    obtain ⟨rfl, -⟩ := hb.unique (.number 4) h'
    have hvalue : HasValue ([] : List ℚ) [.num 4] 4 := .num 4 (.done [])
    refine ⟨by simp [VariableFree], fun hzero => ?_⟩
    have h40 : (4 : ℚ) = 0 := hvalue.unique hzero
    norm_num at h40
  operation op n args hop _ _ h := by
    obtain rfl | rfl : op = .div ∨ op = .mult := by simpa [halved] using h.subset List.mem_cons_self
    all_goals exact absurd (by simp [Opcode.IsLinear]) hop
  list op n args _ _ _ h := by
    have hmem := h.subset List.mem_cons_self
    simp [halved] at hmem
  known part hpart hfree h := by
    obtain ⟨suffix, ⟨r, hpre⟩, hsuf⟩ := List.infix_iff_prefix_suffix.1 h
    simp only [halved, List.suffix_cons_iff, List.suffix_nil] at hsuf
    rcases hsuf with rfl | rfl | rfl | rfl | rfl | rfl
    · obtain ⟨rfl, -⟩ := hpart.unique halved_expression (hpre.trans (List.append_nil _).symm)
      exact absurd (by simp [halved]) (hfree 0)
    · obtain ⟨rfl, -⟩ := hpart.unique doubled_expression hpre
      exact absurd (by simp) (hfree 0)
    · obtain ⟨rfl, -⟩ := hpart.unique (.number 2) hpre
      exact ⟨2, .num 2 (.done [])⟩
    · obtain ⟨rfl, -⟩ := hpart.unique (.var (by decide) .none) hpre
      exact absurd (by simp) (hfree 0)
    · obtain ⟨rfl, -⟩ := hpart.unique (.number 4) hpre
      exact ⟨4, .num 4 (.done [])⟩
    · obtain ⟨rfl, -⟩ := List.append_eq_nil_iff.1 hpre
      cases hpart

theorem halved_has_form : Expressions 1 halved ∧ LinearSyntax halved ∧ HasValue [6] halved (3 : ℚ) ∧
    ∃ p, RowSink.form "half" halved = .ok p ∧
      3 = p.constant + (p.nonzero.map fun (k, a) => a * coordinate [6] k).sum := by
  have hvalue : HasValue [6] halved (3 : ℚ) := by
    have hproduct : Opcode.mult.apply [2, 6] = .ok (12 : ℚ) := by
      norm_num [Opcode.apply, Opcode.arity, Opcode.applyBinary]
    have hquotient : Opcode.div.apply [12, 4] = .ok (3 : ℚ) := by
      norm_num [Opcode.apply, Opcode.arity, Opcode.applyBinary]
    exact .op rfl (.op rfl (.num 2 (.var (k := 0) rfl (.done _))) hproduct (.num 4 (.done _))) hquotient (.done _)
  obtain ⟨hsound, hcomplete⟩ := form_sound_and_complete halved halved_expression "half"
  obtain ⟨p, hp⟩ := hcomplete halved_linear
  exact ⟨halved_expression, halved_linear, hvalue, p, hp, hsound p hp _ _ hvalue⟩

end LandUse
