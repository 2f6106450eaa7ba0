import LandUse.Number.Arith
import LandUse.Opcode

/-! The arithmetic of expressions: floating point numbers when run, exact numbers in proofs. -/

namespace LandUse

class Scalar (α : Type) where
  protected add : α → α → α
  protected sub : α → α → α
  protected mul : α → α → α
  protected div : α → α → α
  protected neg : α → α
  ofFloat : Float → α
  ofInt : Int → α
  same : α → α → Bool
  less : α → α → Bool
  negligible : α → Bool
  finite : α → Bool
  isNaN : α → Bool
  remainder : α → α → α
  power : α → α → α
  atan2 : α → α → α
  floor : α → α
  ceil : α → α
  abs : α → α
  sqrt : α → α
  exp : α → α
  log : α → α
  log10 : α → α
  sin : α → α
  cos : α → α
  tan : α → α
  tanh : α → α

namespace Scalar

variable {α : Type} [Scalar α]

-- Types that have an arithmetic of their own keep it.
instance (priority := low) : Add α := ⟨Scalar.add⟩

instance (priority := low) : Sub α := ⟨Scalar.sub⟩

instance (priority := low) : Mul α := ⟨Scalar.mul⟩

instance (priority := low) : Div α := ⟨Scalar.div⟩

instance (priority := low) : Neg α := ⟨Scalar.neg⟩

def zero : α := ofFloat 0

def one : α := ofFloat 1

def isZero (x : α) : Bool := same x zero

def ofBool (b : Bool) : α := if b then one else zero

def atMost (x y : α) : Bool := less x y || same x y

def sum (xs : List α) : α := xs.foldl (· + ·) zero

/-- Elements which are no numbers are passed over as long as there are others. -/
def best (precedes : α → α → Bool) : α → List α → α
  | x, [] => x
  | x, y :: ys =>
    if isNaN x then (if isNaN y then best precedes x ys else best precedes y ys)
    else if !isNaN y && precedes y x then best precedes y ys else best precedes x ys

end Scalar

instance : Scalar Float where
  add := Add.add
  sub := Sub.sub
  mul := Mul.mul
  div := Div.div
  neg := Neg.neg
  ofFloat := id
  ofInt := Float.ofInt
  same x y := x == y
  less x y := x < y
  negligible x := x.abs ≤ 1e-7
  finite x := x.isFinite
  isNaN x := x.isNaN
  remainder := Number.remainder
  power := Number.power
  atan2 := Float.atan2
  floor := Number.floor
  ceil := Number.ceil
  abs := Float.abs
  sqrt := Float.sqrt
  exp := Float.exp
  log := Float.log
  log10 := Number.log10
  sin := Float.sin
  cos := Float.cos
  tan := Float.tan
  tanh := Float.tanh

inductive ApplyError where
  | operandCount (op : Opcode) (expected got : Nat)
  | noOperand (op : Opcode)
  | divisionByZero
  | unknown (op : Opcode)
deriving DecidableEq

def ApplyError.message : ApplyError → String
  | operandCount op expected got =>
    "opcode o" ++ toString op.code ++ " expects " ++ toString expected ++ " operands, got " ++ toString got
  | noOperand op => "opcode o" ++ toString op.code ++ " expects at least one operand"
  | divisionByZero => "division by zero"
  | unknown op => "unknown opcode o" ++ toString op.code

namespace Opcode

open Scalar

variable {α : Type} [Scalar α]

def applyUnary (op : Opcode) (x : α) : Except ApplyError α :=
  match op with
  | neg => .ok (-x)
  | floor => .ok (Scalar.floor x)
  | ceil => .ok (Scalar.ceil x)
  | abs => .ok (Scalar.abs x)
  | sqrt => .ok (Scalar.sqrt x)
  | exp => .ok (Scalar.exp x)
  | log => .ok (Scalar.log x)
  | log10 => .ok (Scalar.log10 x)
  | sin => .ok (Scalar.sin x)
  | cos => .ok (Scalar.cos x)
  | tan => .ok (Scalar.tan x)
  | tanh => .ok (Scalar.tanh x)
  | _ => .error (.unknown op)

def applyBinary (op : Opcode) (x y : α) : Except ApplyError α :=
  match op with
  | plus => .ok (x + y)
  | minus => .ok (x - y)
  | mult => .ok (x * y)
  | div => if isZero y then .error .divisionByZero else .ok (x / y)
  | rem => if isZero y then .error .divisionByZero else .ok (Scalar.remainder x y)
  | pow => .ok (Scalar.power x y)
  | atan2 => .ok (Scalar.atan2 x y)
  | lt => .ok (ofBool (less x y))
  | le => .ok (ofBool (atMost x y))
  | eq => .ok (ofBool (same x y))
  | ge => .ok (ofBool (atMost y x))
  | gt => .ok (ofBool (less y x))
  | ne => .ok (ofBool (!same x y))
  | _ => .error (.unknown op)

def applyList (op : Opcode) (x : α) (xs : List α) : Except ApplyError α :=
  match op with
  | sumList => .ok (Scalar.sum (x :: xs))
  | minList => .ok (best less x xs)
  | maxList => .ok (best (fun a b => less b a) x xs)
  | _ => .error (.unknown op)

def apply (op : Opcode) (args : List α) : Except ApplyError α :=
  match op.arity, args with
  | .list, [] => .error (.noOperand op)
  | .list, x :: xs => applyList op x xs
  | .fixed 1, [x] => applyUnary op x
  | .fixed 2, [x, y] => applyBinary op x y
  | .fixed n, xs => .error (.operandCount op n xs.length)

end Opcode

end LandUse
