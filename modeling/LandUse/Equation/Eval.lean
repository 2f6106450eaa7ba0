import LandUse.Equation.Code

namespace LandUse

structure Interpretation (β ε : Type) where
  number : Float → β
  apply : Opcode → List β → Except ε β

inductive EvalError (ε : Type) where
  | unbound (key : String)
  | loop (dim : String)
  | operation (e : ε)
  | missingOperand (equation : String)
  | surplus (equation : String) (count : Nat)

def EvalError.message {ε : Type} (operationMessage : ε → String) : EvalError ε → String
  | unbound key => "no value for " ++ key
  | loop dim => "cannot evaluate loop over " ++ dim ++ " without table data"
  | operation e => operationMessage e
  | missingOperand equation => "equation " ++ equation ++ ": missing operand"
  | surplus equation count => "equation " ++ equation ++ ": " ++ toString count ++ " surplus tokens"

namespace Interpretation

variable {β ε : Type}

def lookup (env : String → Option β) (key : String) : Except (EvalError ε) β :=
  match env key with
  | some v => .ok v
  | none => .error (.unbound key)

def operate (m : Interpretation β ε) (op : Opcode) (args : List β) : Except (EvalError ε) β :=
  match m.apply op args with
  | .ok v => .ok v
  | .error e => .error (.operation e)

mutual

def evalExpr (m : Interpretation β ε) (env : String → Option β) : Expr → Except (EvalError ε) β
  | .number _ _ value => .ok (m.number value)
  | .param _ name _ subs => lookup env (referenceText name subs)
  | .equation _ name => lookup env name
  | .negate _ _ arg => do m.operate .neg [← m.evalExpr env arg]
  | .binary _ op _ lhs rhs => do
    let x ← m.evalExpr env lhs
    let y ← m.evalExpr env rhs
    m.operate op.opcode [x, y]
  | .group _ arg => m.evalExpr env arg
  | .call _ fn _ _ _ args => do m.operate fn.opcode (← m.evalArgs env args)
  | .loop _ _ dim _ _ _ _ => .error (.loop dim)

def evalArgs (m : Interpretation β ε) (env : String → Option β) : List Expr → Except (EvalError ε) (List β)
  | [] => .ok []
  | e :: es => do
    let v ← m.evalExpr env e
    let vs ← m.evalArgs env es
    return v :: vs

end

def operandCount (op : Opcode) : Nat :=
  match op.arity with
  | .fixed n => n
  | .list => 0

mutual

def evalTokens (m : Interpretation β ε) (env : String → Option β) (equation : String) :
    Nat → List CodeToken → Except (EvalError ε) (β × List CodeToken)
  | 0, _ => .error (.missingOperand equation)
  | _ + 1, [] => .error (.missingOperand equation)
  | fuel + 1, t :: ts =>
    match t with
    | .number value => .ok (m.number value, ts)
    | .param name _ subs => do return (← lookup env (referenceText name subs), ts)
    | .equation name => do return (← lookup env name, ts)
    | .loop _ dim _ _ => .error (.loop dim)
    | .operation op => do
      let (vs, ts) ← m.evalOperands env equation fuel (operandCount op) ts
      return (← m.operate op vs, ts)
    | .list op count => do
      let (vs, ts) ← m.evalOperands env equation fuel count ts
      return (← m.operate op vs, ts)

def evalOperands (m : Interpretation β ε) (env : String → Option β) (equation : String) :
    Nat → Nat → List CodeToken → Except (EvalError ε) (List β × List CodeToken)
  | _, 0, ts => .ok ([], ts)
  | 0, _ + 1, _ => .error (.missingOperand equation)
  | fuel + 1, n + 1, ts => do
    let (v, ts) ← m.evalTokens env equation fuel ts
    let (vs, ts) ← m.evalOperands env equation fuel n ts
    return (v :: vs, ts)

end

def evalCode (m : Interpretation β ε) (env : String → Option β) (c : Code) : Except (EvalError ε) β := do
  let (v, rest) ← m.evalTokens env c.name (2 * c.tokens.length + 2) c.tokens
  if rest.isEmpty then return v else .error (.surplus c.name rest.length)

end Interpretation

end LandUse
