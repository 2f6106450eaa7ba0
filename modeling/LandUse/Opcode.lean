/-! Operations, numbered as in `.nl` model files. -/

namespace LandUse

inductive Opcode where
  | plus | minus | mult | div | rem | pow
  | minList | maxList
  | floor | ceil | abs | neg
  | lt | le | eq | ge | gt | ne
  | tanh | tan | sqrt | sin | log10 | log | exp | cos | atan2
  | sumList
  | other (number : Int)
deriving DecidableEq

namespace Opcode

def code : Opcode → Int
  | plus => 0 | minus => 1 | mult => 2 | div => 3 | rem => 4 | pow => 5
  | minList => 11 | maxList => 12
  | floor => 13 | ceil => 14 | abs => 15 | neg => 16
  | lt => 22 | le => 23 | eq => 24 | ge => 28 | gt => 29 | ne => 30
  | tanh => 37 | tan => 38 | sqrt => 39 | sin => 41 | log10 => 42 | log => 43 | exp => 44 | cos => 46
  | atan2 => 48
  | sumList => 54
  | other number => number

def named : List Opcode :=
  [plus, minus, mult, div, rem, pow, minList, maxList, floor, ceil, abs, neg, lt, le, eq, ge, gt, ne,
    tanh, tan, sqrt, sin, log10, log, exp, cos, atan2, sumList]

def ofCode (n : Int) : Opcode := (named.find? (·.code == n)).getD (other n)

inductive Arity where
  | list
  | fixed (n : Nat)
deriving DecidableEq

def arity : Opcode → Arity
  | minList | maxList | sumList => .list
  | neg | floor | ceil | abs | sqrt | exp | log | log10 | sin | cos | tan | tanh => .fixed 1
  | _ => .fixed 2

end Opcode

end LandUse
