import LandUse.Equation.Eval
import LandUse.Proofs.Exact
import LandUse.Proofs.Grammar.Unique

/-! Prefix code means what the tree means; errors are compared with the place where they are raised. -/

namespace LandUse

open Grammar Outcome

deriving instance DecidableEq for EvalError

inductive Expr.Admissible : Expr → Prop
  | number (span lexeme value) : Admissible (.number span lexeme value)
  | param (span name isVariable subs) : Admissible (.param span name isVariable subs)
  | equation (span name) : Admissible (.equation span name)
  | negate {arg} (span opSpan) : Admissible arg → Admissible (.negate span opSpan arg)
  | binary {lhs rhs} (span op opSpan) : Admissible lhs → Admissible rhs → Admissible (.binary span op opSpan lhs rhs)
  | group {arg} (span) : Admissible arg → Admissible (.group span arg)
  | call {fn args} (span level body seps) : fn.accepts args.length = true → (∀ e ∈ args, Admissible e) →
      Admissible (.call span fn level body seps args)
  | loop (span keyword dim dimSpan level body arg) : Admissible (.loop span keyword dim dimSpan level body arg)

lemma Grammar.Derives.admissible {c : Parser.Context} {l : Level} {p : Phrase} (h : Derives c l p) (d : Parser.Depth) :
    (p.expr d).Admissible := by
  induction h generalizing d with
  | tighter _ _ ih => exact ih d
  | operation mark _ _ _ _ ihp ihq => exact .binary _ _ _ (ihp d) (ihq d)
  | power mark _ _ ihp ihq => exact .binary _ _ _ (ihp d) (ihq d)
  | minus sign _ ih => exact .negate _ _ (ih d)
  | plus sign _ ih => exact ih d
  | number x mark => exact .number _ _ _
  | group left right _ ih => exact .group _ (ih d)
  | loop => exact .loop _ _ _ _ _ _ _
  | @call fn args pos left right _ ha ih =>
    refine .call _ _ _ _ (by rwa [Arguments.length_exprs]) ?_
    rw [Arguments.exprs_eq, List.forall_mem_map]
    exact fun p hp => ih p hp _
  | decision => exact .param _ _ _ _
  | parameter => exact .param _ _ _ _
  | equation => exact .equation _ _

lemma admissible_of_parse {symbols : Symbols} {self : String} {src : Text.Bytes} {e : Expr}
    (h : parseBytes symbols self src = .ok e) : e.Admissible := by
  unfold parseBytes at h
  split at h
  · cases h
  · cases h
  · obtain ⟨p, hp, -, rfl⟩ := derives_of_equation h
    exact hp.admissible _

mutual

theorem Expr.length_code (k : Nat) : (e : Expr) → (e.code k).length = e.codeSize
  | .number .. | .param .. | .equation .. => by simp only [Expr.code, Expr.codeSize, List.length_singleton]
  | .negate _ _ arg => by
    rw [Expr.code, Expr.codeSize, List.length_cons, Expr.length_code, Nat.add_comm]
  | .binary _ _ _ lhs rhs => by
    simp only [Expr.code, Expr.codeSize, List.length_cons, List.length_append, Expr.length_code]
    omega
  | .group _ arg => by rw [Expr.code, Expr.codeSize, Expr.length_code]
  | .call _ fn _ _ _ args => by
    simp only [Expr.code, Expr.codeSize, List.length_append, length_argumentCode]
  | .loop _ _ _ _ _ _ arg => by
    simp only [Expr.code, Expr.codeSize, List.length_cons, Expr.length_code]
    omega

theorem length_argumentCode (k : Nat) : (es : List Expr) → (argumentCode k es).length = argumentsSize es
  | [] => rfl
  | e :: es => by simp [argumentCode, argumentsSize, Expr.length_code, length_argumentCode]

end

namespace Interpretation

variable {β ε : Type} (m : Interpretation β ε) (env : String → Option β)

mutual

def locateExpr (start : Nat) : Expr → Except (EvalError ε × Nat) β
  | .number _ _ value => .ok (m.number value)
  | .param _ name _ subs => (lookup env (referenceText name subs)).mapError (·, start)
  | .equation _ name => (lookup env name).mapError (·, start)
  | .negate _ _ arg => do (m.operate .neg [← locateExpr (start + 1) arg]).mapError (·, start)
  | .binary _ op _ lhs rhs => do
    let x ← locateExpr (start + 1) lhs
    let y ← locateExpr (start + 1 + lhs.codeSize) rhs
    (m.operate op.opcode [x, y]).mapError (·, start)
  | .group _ arg => locateExpr start arg
  | .call _ fn _ _ _ args => do
    (m.operate fn.opcode (← locateArgs (start + (fn.head args.length).length) args)).mapError (·, start)
  | .loop _ _ dim _ _ _ _ => .error (.loop dim, start)

def locateArgs (start : Nat) : List Expr → Except (EvalError ε × Nat) (List β)
  | [] => .ok []
  | e :: es => do
    let v ← locateExpr start e
    let vs ← locateArgs (start + e.codeSize) es
    return v :: vs

end

mutual

def locateTokens (equation : String) (total : Nat) :
    Nat → List CodeToken → Except (EvalError ε × Nat) (β × List CodeToken)
  | 0, ts => .error (.missingOperand equation, total - ts.length)
  | _ + 1, [] => .error (.missingOperand equation, total)
  | fuel + 1, t :: ts =>
    let place := total - (ts.length + 1)
    match t with
    | .number value => .ok (m.number value, ts)
    | .param name _ subs => do return (← (lookup env (referenceText name subs)).mapError (·, place), ts)
    | .equation name => do return (← (lookup env name).mapError (·, place), ts)
    | .loop _ dim _ _ => .error (.loop dim, place)
    | .operation op => do
      let (vs, ts) ← locateOperands equation total fuel (operandCount op) ts
      return (← (m.operate op vs).mapError (·, place), ts)
    | .list op count => do
      let (vs, ts) ← locateOperands equation total fuel count ts
      return (← (m.operate op vs).mapError (·, place), ts)

def locateOperands (equation : String) (total : Nat) :
    Nat → Nat → List CodeToken → Except (EvalError ε × Nat) (List β × List CodeToken)
  | _, 0, ts => .ok ([], ts)
  | 0, _ + 1, ts => .error (.missingOperand equation, total - ts.length)
  | fuel + 1, n + 1, ts => do
    let (v, ts) ← locateTokens equation total fuel ts
    let (vs, ts) ← locateOperands equation total fuel n ts
    return (v :: vs, ts)

end

def locateCode (c : Code) : Except (EvalError ε × Nat) β := do
  let (v, rest) ← m.locateTokens env c.name c.tokens.length (2 * c.tokens.length + 2) c.tokens
  if rest.isEmpty then return v else .error (.surplus c.name rest.length, c.tokens.length - rest.length)

variable {α : Type} {es : List Expr} {equation : String} {e : Expr} {op : Opcode} {err : EvalError ε}

lemma mapError_bind {γ ρ σ : Type} (x : Except ρ α) (f : α → Except ρ γ) (g : ρ → σ) :
    (x >>= f).mapError g = x.mapError g >>= fun a => (f a).mapError g := by
  cases x <;> rfl

lemma mapError_located (x : Except (EvalError ε) α) (place : Nat) :
    (x.mapError (·, place)).mapError Prod.fst = x := by
  cases x <;> rfl

mutual

theorem erase_locateExpr (start : Nat) : (e : Expr) → (m.locateExpr env start e).mapError Prod.fst = m.evalExpr env e
  | .number .. => rfl
  | .param .. => mapError_located _ _
  | .equation .. => mapError_located _ _
  | .negate _ _ arg => by
    simp only [locateExpr, evalExpr, mapError_bind, erase_locateExpr, mapError_located]
  | .binary _ _ _ lhs rhs => by
    simp only [locateExpr, evalExpr, mapError_bind, erase_locateExpr, mapError_located]
  | .group _ arg => by simp only [locateExpr, evalExpr, erase_locateExpr]
  | .call _ _ _ _ _ args => by
    simp only [locateExpr, evalExpr, mapError_bind, erase_locateArgs, mapError_located]
  | .loop .. => rfl

theorem erase_locateArgs (start : Nat) :
    (es : List Expr) → (m.locateArgs env start es).mapError Prod.fst = m.evalArgs env es
  | [] => rfl
  | e :: es => by
    simp only [locateArgs, evalArgs, mapError_bind, erase_locateExpr, erase_locateArgs]
    rfl

end

lemma mapError_ok {ρ σ : Type} (x : α) (g : ρ → σ) : (Except.ok x : Except ρ α).mapError g = .ok x := rfl

mutual

theorem erase_locateTokens (equation : String) (total : Nat) : (fuel : Nat) → (ts : List CodeToken) →
    (m.locateTokens env equation total fuel ts).mapError Prod.fst = m.evalTokens env equation fuel ts
  | 0, _ => rfl
  | _ + 1, [] => rfl
  | fuel + 1, t :: ts => by
    cases t with
    | number value => rfl
    | param | equation =>
      simp only [locateTokens, evalTokens, mapError_bind, mapError_located]
      rfl
    | loop => rfl
    | operation | list =>
      simp only [locateTokens, evalTokens, mapError_bind, erase_locateOperands, mapError_located]
      rfl

theorem erase_locateOperands (equation : String) (total : Nat) : (fuel n : Nat) → (ts : List CodeToken) →
    (m.locateOperands env equation total fuel n ts).mapError Prod.fst = m.evalOperands env equation fuel n ts
  | _, 0, _ => by simp only [locateOperands, evalOperands, mapError_ok]
  | 0, _ + 1, _ => rfl
  | fuel + 1, n + 1, ts => by
    simp only [locateOperands, evalOperands, mapError_bind, erase_locateTokens, erase_locateOperands]
    rfl

end

theorem erase_locateCode (c : Code) : (m.locateCode env c).mapError Prod.fst = m.evalCode env c := by
  simp only [locateCode, evalCode, mapError_bind, erase_locateTokens]
  congr 1
  funext r
  split <;> rfl

structure Collapses : Prop where
  single : ∀ (k : Keyword) (x : β), m.apply k.opcode [x] = .ok x
  pair : ∀ x y : β, m.apply .sumList [x, y] = m.apply .plus [x, y]

variable {m env}

lemma Collapses.operate_single (hm : m.Collapses) (k : Keyword) (x : β) : m.operate k.opcode [x] = .ok x := by
  simp [operate, hm.single]

lemma Collapses.operate_pair (hm : m.Collapses) (x y : β) : m.operate .sumList [x, y] = m.operate .plus [x, y] := by
  simp [operate, hm.pair]

lemma length_locateArgs {start : Nat} {vs : List β} (h : m.locateArgs env start es = .ok vs) :
    vs.length = es.length := by
  induction es generalizing start vs with
  | nil => simp_all [locateArgs]
  | cons e es ih =>
    simp only [locateArgs, bind_eq_ok, pure_eq_ok, Except.ok.injEq] at h
    obtain ⟨v, -, vs, hvs, rfl⟩ := h
    simp [ih hvs]

variable (m env) in
def Agrees (equation : String) (e : Expr) : Prop :=
  0 < e.codeSize ∧ ∀ ⦃total start fuel rest⦄, total = start + e.codeSize + rest.length → 2 * e.codeSize ≤ fuel + 1 →
    m.locateTokens env equation total fuel (e.code start ++ rest) = m.locateExpr env start e >>= fun v => .ok (v, rest)

lemma operands_agree (h : ∀ e ∈ es, Agrees m env equation e) {total start fuel : Nat} {rest : List CodeToken}
    (ht : total = start + argumentsSize es + rest.length) (hf : 2 * argumentsSize es ≤ fuel) :
    m.locateOperands env equation total fuel es.length (argumentCode start es ++ rest) =
      m.locateArgs env start es >>= fun vs => .ok (vs, rest) := by
  -- Every operand leaves the place where the next one starts.
  induction es generalizing start fuel with
  | nil => simp [locateOperands, locateArgs, argumentCode]
  | cons e es ih =>
    obtain ⟨⟨hpos, he⟩, hes⟩ := List.forall_mem_cons.mp h
    simp only [argumentsSize] at ht hf
    obtain ⟨fuel, rfl⟩ : ∃ f, fuel = f + 1 := ⟨fuel - 1, by omega⟩
    have hlen : (argumentCode (start + e.codeSize) es ++ rest).length = argumentsSize es + rest.length := by
      rw [List.length_append, length_argumentCode]
    simp only [locateOperands, locateArgs, argumentCode, List.length_cons, List.append_assoc, Expr.length_code]
    rw [he (by omega) (by omega)]
    cases m.locateExpr env start e with
    | error err => rfl
    | ok v =>
      simp only [ok_bind]
      rw [ih hes (by omega) (by omega)]
      cases m.locateArgs env (start + e.codeSize) es <;> rfl

structure Applies (e : Expr) (t : CodeToken) (op : Opcode) (es : List Expr) : Prop where
  code : ∀ k, e.code k = t :: argumentCode (k + 1) es
  size : e.codeSize = 1 + argumentsSize es
  count : t = .operation op ∧ operandCount op = es.length ∨ t = .list op es.length

lemma Applies.agrees {t : CodeToken} (h : Applies e t op es) (hes : ∀ a ∈ es, Agrees m env equation a)
    (hvalue : ∀ k, m.locateExpr env k e = m.locateArgs env (k + 1) es >>= fun vs => (m.operate op vs).mapError (·, k)) :
    Agrees m env equation e := by
  refine ⟨by rw [h.size]; omega, fun total start fuel rest ht hf => ?_⟩
  rw [h.size] at ht hf
  obtain ⟨fuel, rfl⟩ : ∃ f, fuel = f + 1 := ⟨fuel - 1, by omega⟩
  have hplace : total - ((argumentCode (start + 1) es ++ rest).length + 1) = start := by
    rw [List.length_append, length_argumentCode]
    omega
  have ho : m.locateOperands env equation total fuel es.length (argumentCode (start + 1) es ++ rest) =
      m.locateArgs env (start + 1) es >>= fun vs => .ok (vs, rest) :=
    operands_agree hes (by omega) (by omega)
  rw [h.code, hvalue, List.cons_append]
  obtain ⟨rfl, hc⟩ | rfl := h.count
  · simp only [locateTokens, hc, hplace, ho]
    cases m.locateArgs env (start + 1) es <;> rfl
  · simp only [locateTokens, hplace, ho]
    cases m.locateArgs env (start + 1) es <;> rfl

lemma applies_negate (span opSpan : Span) (arg : Expr) :
    Applies (.negate span opSpan arg) (.operation .neg) .neg [arg] where
  code k := by simp [Expr.code, argumentCode]
  size := by simp [Expr.codeSize, argumentsSize]
  count := .inl ⟨rfl, rfl⟩

lemma applies_binary (span opSpan : Span) (op : Operator) (lhs rhs : Expr) :
    Applies (.binary span op opSpan lhs rhs) (.operation op.opcode) op.opcode [lhs, rhs] where
  code k := by simp [Expr.code, argumentCode]
  size := by simp [Expr.codeSize, argumentsSize, Nat.add_assoc]
  count := .inl ⟨rfl, by cases op <;> rfl⟩

lemma applies_call {fn : Function} {args : List Expr} {t : CodeToken} (span body : Span) (level : Nat)
    (seps : List Int) (hhead : fn.head args.length = [t])
    (hcount : t = .operation op ∧ operandCount op = args.length ∨ t = .list op args.length) :
    Applies (.call span fn level body seps args) t op args where
  code k := by simp [Expr.code, hhead]
  size := by simp [Expr.codeSize, hhead]
  count := hcount

lemma operandCount_function {fn : Function} (h : fn.keyword? = none) :
    fn.maxArgs? = some (operandCount fn.opcode) ∧ fn.minArgs = operandCount fn.opcode := by
  cases fn <;> first | exact ⟨rfl, rfl⟩ | cases h

lemma accepts_fixed {fn : Function} {n : Nat} (h : fn.accepts n = true) (hk : fn.keyword? = none) :
    operandCount fn.opcode = n := by
  obtain ⟨hmax, hmin⟩ := operandCount_function hk
  simp only [Function.accepts, hmax, hmin, Bool.and_eq_true, decide_eq_true_eq] at h
  omega

lemma opcode_of_keyword {fn : Function} {k : Keyword} (h : fn.keyword? = some k) : fn.opcode = k.opcode := by
  cases fn <;> cases h <;> rfl

lemma single_agrees (hm : m.Collapses) {fn : Function} {k : Keyword} (hk : fn.keyword? = some k) {arg : Expr}
    (span body : Span) (level : Nat) (seps : List Int) (h : Agrees m env equation arg) :
    Agrees m env equation (.call span fn level body seps [arg]) := by
  have hhead : fn.head [arg].length = [] := by simp [Function.head, hk, Keyword.header, Header.tokens]
  have hsize : Expr.codeSize (.call span fn level body seps [arg]) = arg.codeSize := by
    rw [Expr.codeSize, hhead, List.length_nil, argumentsSize, argumentsSize, Nat.zero_add, Nat.add_zero]
  refine ⟨hsize ▸ h.1, fun total start fuel rest ht hf => ?_⟩
  rw [hsize] at ht hf
  simp only [Expr.code, hhead, argumentCode, locateExpr, locateArgs, List.length_nil, Nat.add_zero, List.nil_append,
    List.append_nil, opcode_of_keyword hk]
  rw [h.2 ht hf]
  cases m.locateExpr env start arg with
  | error err => rfl
  | ok v => simp [hm.operate_single, mapError_ok]

lemma call_agrees (hm : m.Collapses) {fn : Function} {args : List Expr} (span body : Span) (level : Nat)
    (seps : List Int) (h : fn.accepts args.length = true) (hargs : ∀ a ∈ args, Agrees m env equation a) :
    Agrees m env equation (.call span fn level body seps args) := by
  cases hk : fn.keyword? with
  | none =>
    have hhead : fn.head args.length = [.operation fn.opcode] := by simp [Function.head, hk]
    refine (applies_call span body level seps hhead (.inl ⟨rfl, accepts_fixed h hk⟩)).agrees hargs fun k => ?_
    simp only [locateExpr, hhead, List.length_singleton]
  | some k =>
    have hop := opcode_of_keyword hk
    match args with
    | [] => cases fn <;> cases h
    | [arg] => exact single_agrees hm hk span body level seps (List.forall_mem_singleton.mp hargs)
    | a :: b :: es =>
      by_cases hpair : k = .sum ∧ es = []
      · obtain ⟨rfl, rfl⟩ := hpair
        have hhead : fn.head [a, b].length = [.operation .plus] := by
          simp [Function.head, hk, Keyword.header, Keyword.binary?, Header.tokens]
        refine (applies_call span body level seps hhead (.inl ⟨rfl, rfl⟩)).agrees hargs fun k => ?_
        simp only [locateExpr, hhead, List.length_singleton, hop]
        cases hv : m.locateArgs env (k + 1) [a, b] with
        | error err => rfl
        | ok vs =>
          match vs, length_locateArgs hv with
          | [x, y], _ => exact congrArg (·.mapError (·, k)) (hm.operate_pair x y)
      · have hhead : fn.head (a :: b :: es).length = [.list k.opcode (a :: b :: es).length] := by
          cases k <;> simp_all [Function.head, Keyword.header, Keyword.binary?, Header.tokens]
        refine (applies_call span body level seps hhead (.inr rfl)).agrees hargs fun k => ?_
        simp only [locateExpr, hhead, List.length_singleton, hop]

theorem agrees_of_admissible (hm : m.Collapses) (equation : String) (h : e.Admissible) : Agrees m env equation e := by
  induction h with
  | number | param | equation =>
    refine ⟨by simp only [Expr.codeSize]; omega, fun total start fuel rest ht hf => ?_⟩
    simp only [Expr.codeSize] at ht hf
    obtain ⟨fuel, rfl⟩ : ∃ f, fuel = f + 1 := ⟨fuel - 1, by omega⟩
    have hplace : total - (rest.length + 1) = start := by omega
    simp only [Expr.code, List.cons_append, List.nil_append, locateTokens, locateExpr, hplace]
    rfl
  | loop =>
    refine ⟨by simp only [Expr.codeSize]; omega, fun total start fuel rest ht hf => ?_⟩
    simp only [Expr.codeSize] at ht hf
    obtain ⟨fuel, rfl⟩ : ∃ f, fuel = f + 1 := ⟨fuel - 1, by omega⟩
    simp only [Expr.code, List.cons_append, locateTokens, locateExpr, List.length_append, Expr.length_code]
    simp only [error_bind, Except.error.injEq, Prod.mk.injEq, true_and]
    omega
  | negate span opSpan _ ih =>
    refine (applies_negate span opSpan _).agrees (List.forall_mem_singleton.mpr ih) fun k => ?_
    rw [locateExpr, locateArgs, locateArgs]
    cases m.locateExpr env (k + 1) _ <;> rfl
  | @binary lhs rhs span op opSpan _ _ ihl ihr =>
    have hes := List.forall_mem_cons.mpr ⟨ihl, List.forall_mem_singleton.mpr ihr⟩
    refine (applies_binary span opSpan op _ _).agrees hes fun k => ?_
    rw [locateExpr, locateArgs, locateArgs, locateArgs]
    cases m.locateExpr env (k + 1) lhs with
    | error err => rfl
    | ok x => cases m.locateExpr env (k + 1 + lhs.codeSize) rhs <;> rfl
  | group span _ ih => exact ih
  | call span level body seps hn _ ih => exact call_agrees hm span body level seps hn ih

theorem locateCode_ofExpr (hm : m.Collapses) (name : String) (h : e.Admissible) :
    m.locateCode env (Code.ofExpr name e) = m.locateExpr env 0 e := by
  have ha : m.locateTokens env name (e.code 0).length (2 * (e.code 0).length + 2) (e.code 0 ++ []) = _ :=
    (agrees_of_admissible hm name h).2 (by simp [Expr.length_code]) (by rw [Expr.length_code]; omega)
  rw [List.append_nil] at ha
  simp only [locateCode, Code.ofExpr, ha]
  cases m.locateExpr env 0 e <;> rfl

def isMalformed : EvalError ε → Bool
  | .missingOperand _ | .surplus .. => true
  | .unbound _ | .loop _ | .operation _ => false

lemma lookup_malformed {key : String} (h : lookup env key = .error err) : isMalformed err = false := by
  unfold lookup at h
  split at h <;> cases h
  rfl

lemma operate_malformed {vs : List β} (h : m.operate op vs = .error err) : isMalformed err = false := by
  unfold operate at h
  split at h <;> cases h
  rfl

lemma bind_malformed {γ : Type} {x : Except (EvalError ε) α} {f : α → Except (EvalError ε) γ}
    (hx : ∀ err, x = .error err → isMalformed err = false) (hf : ∀ a err, f a = .error err → isMalformed err = false)
    (h : (x >>= f) = .error err) : isMalformed err = false := by
  cases x with
  | error e =>
    cases h
    exact hx err rfl
  | ok a => exact hf a err h

mutual

theorem evalExpr_malformed : (e : Expr) → (err : EvalError ε) → m.evalExpr env e = .error err → isMalformed err = false
  | .number .., _, h => by cases h
  | .param .., _, h | .equation .., _, h => lookup_malformed h
  | .negate _ _ arg, _, h => bind_malformed (evalExpr_malformed arg) (fun _ _ => operate_malformed) h
  | .binary _ _ _ lhs rhs, _, h =>
    bind_malformed (evalExpr_malformed lhs)
      (fun _ _ => bind_malformed (evalExpr_malformed rhs) fun _ _ => operate_malformed) h
  | .group _ arg, err, h => evalExpr_malformed arg err h
  | .call _ _ _ _ _ args, _, h => bind_malformed (evalArgs_malformed args) (fun _ _ => operate_malformed) h
  | .loop .., _, h => by
    cases h
    rfl

theorem evalArgs_malformed :
    (es : List Expr) → (err : EvalError ε) → m.evalArgs env es = .error err → isMalformed err = false
  | [], _, h => by cases h
  | e :: es, _, h =>
    bind_malformed (evalExpr_malformed e)
      (fun _ _ => bind_malformed (evalArgs_malformed es) fun _ _ h => by cases h) h

end

def exact (K : Type) [Field K] [LinearOrder K] [Functions K] : Interpretation K ApplyError :=
  ⟨Scalar.ofFloat, Opcode.apply⟩

lemma exact_collapses (K : Type) [Field K] [LinearOrder K] [Functions K] : (exact K).Collapses where
  single k x := by
    cases k with
    | sum => simp [exact, Keyword.opcode, Opcode.apply, Opcode.arity, Opcode.applyList, Exact.sum_eq]
    | min | max => rfl
  pair x y := by
    simp [exact, Opcode.apply, Opcode.arity, Opcode.applyList, Opcode.applyBinary, Exact.sum_eq]

variable (m env) in
/-- Prefix code has the value of its equation, or raises the same error at the same place. -/
theorem code_preserves_meaning (hm : m.Collapses) {symbols : Symbols} {self : String} {src : Text.Bytes} {e : Expr}
    (h : parseBytes symbols self src = .ok e) :
    m.evalCode env (Code.ofExpr self e) = m.evalExpr env e ∧
    m.locateCode env (Code.ofExpr self e) = m.locateExpr env 0 e ∧
    (m.locateCode env (Code.ofExpr self e)).mapError Prod.fst = m.evalCode env (Code.ofExpr self e) ∧
    (m.locateExpr env 0 e).mapError Prod.fst = m.evalExpr env e ∧
    ∀ err, m.evalCode env (Code.ofExpr self e) = .error err → isMalformed err = false := by
  have hlocate : m.locateCode env (Code.ofExpr self e) = m.locateExpr env 0 e :=
    locateCode_ofExpr hm self (admissible_of_parse h)
  have hcode : m.evalCode env (Code.ofExpr self e) = m.evalExpr env e := by
    rw [← erase_locateCode, hlocate, erase_locateExpr]
  exact ⟨hcode, hlocate, erase_locateCode m env _, erase_locateExpr m env 0 e,
    fun err herr => evalExpr_malformed e err (hcode ▸ herr)⟩

theorem quotient_preserves_failure : ∃ e,
    parseBytes parametersOnly "q" (Text.bytes "sum(a, b) / (c - max(d))") = .ok e ∧
    (exact ℚ).locateExpr (fun key => if key == "b" then some 3 else some 2) 0 e =
      .error (.operation .divisionByZero, 0) ∧
    (exact ℚ).locateCode (fun key => if key == "b" then some 3 else some 2) (Code.ofExpr "q" e) =
      .error (.operation .divisionByZero, 0) := by
  have hrun : (parseBytes parametersOnly "q" (Text.bytes "sum(a, b) / (c - max(d))")).toOption.any (fun e =>
      refusal? ((exact ℚ).locateExpr (fun key => if key == "b" then some 3 else some 2) 0 e) =
        some (.operation .divisionByZero, 0)) = true := by decide +kernel
  obtain ⟨e, he, hv⟩ := exists_of_any hrun
  have hv := refusal?_eq_some.1 (of_decide_eq_true hv)
  have hp := code_preserves_meaning (exact ℚ) (fun key => if key == "b" then some 3 else some 2)
    (exact_collapses ℚ) he
  exact ⟨e, he, hv, hp.2.1.trans hv⟩

end Interpretation

end LandUse
