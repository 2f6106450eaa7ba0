import LandUse.Failure
import LandUse.Linear.Form

namespace LandUse

inductive FoldError where
  | operands (op : Opcode) (expected : Int) (got : Nat)
  | operation (e : ApplyError)
  | product
  | divisor
  | divisionByZero
  | nonlinear (op : Opcode)
  | missing

def FoldError.message : FoldError → String
  | operands op expected got =>
    "o" ++ toString op.code ++ " needs " ++ toString expected ++ " operand(s), but " ++ toString got ++ " on stack"
  | operation e => e.message
  | product => "product of two unknowns is not linear"
  | divisor => "division by an unknown is not linear"
  | divisionByZero => "division by zero"
  | nonlinear op => "operation o" ++ toString op.code ++ " of unknowns is not linear"
  | missing => "missing operand"

def FoldError.fault : FoldError → Fault
  | missing => .violation
  | e => .plain e.message

namespace LinearForm

open Scalar

variable {α : Type} [Scalar α]

def multiply (p q : LinearForm α) : Except FoldError (LinearForm α) :=
  match q.constant?, p.constant? with
  | some c, _ => .ok (p.scale c)
  | none, some c => .ok (q.scale c)
  | none, none => .error .product

def divide (p q : LinearForm α) : Except FoldError (LinearForm α) :=
  match q.constant? with
  | none => .error .divisor
  | some c => if isZero c then .error .divisionByZero else .ok (p.scale (one / c))

def power (p q : LinearForm α) : Except FoldError (LinearForm α) :=
  match q.constant? with
  | some c => if same c one then .ok p else .error (.nonlinear .pow)
  | none => .error (.nonlinear .pow)

def applyUnknown (op : Opcode) (args : List (LinearForm α)) : Except FoldError (LinearForm α) :=
  match op, args with
  | .plus, p :: ps | .sumList, p :: ps => .ok (ps.foldl add p)
  | .minus, p :: q :: _ => .ok (p.sub q)
  | .neg, p :: _ => .ok (p.scale (clean (-one)))
  | .mult, p :: q :: _ => multiply p q
  | .div, p :: q :: _ => divide p q
  | .pow, p :: q :: _ => power p q
  | .minus, _ | .mult, _ | .div, _ | .pow, _ => .error .missing
  | .minList, [p] | .maxList, [p] => .ok p
  | op, _ => .error (.nonlinear op)

def apply (op : Opcode) (args : List (LinearForm α)) : Except FoldError (LinearForm α) :=
  match args.mapM constant? with
  | some cs =>
    match op.apply cs with
    | .ok c => .ok (ofConstant c)
    | .error e => .error (.operation e)
  | none => applyUnknown op args

end LinearForm

abbrev FormStack (α : Type) := List (LinearForm α)

/-- The operands are taken off the stack even if the operation fails. -/
def FormStack.apply {α : Type} [Scalar α] (stack : FormStack α) (op : Opcode) (n : Int) :
    Except FoldError Unit × FormStack α :=
  if (stack.length : Int) < n then (.error (.operands op n stack.length), stack)
  else if n < 0 then (.error .missing, stack)
  else
    let rest := stack.drop n.toNat
    match LinearForm.apply op (stack.take n.toNat) with
    | .ok p => (.ok (), p :: rest)
    | .error e => (.error e, rest)

end LandUse
