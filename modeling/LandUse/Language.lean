import LandUse.Opcode
import LandUse.Text.Bytes

namespace LandUse

inductive Operator where
  | lt | le | eq | same | ge | gt | ne
  | plus | minus
  | times | div | rem
  | pow
deriving DecidableEq

namespace Operator

def symbol : Operator → String
  | lt => "<" | le => "<=" | eq => "=" | same => "==" | ge => ">=" | gt => ">" | ne => "!="
  | plus => "+" | minus => "-" | times => "*" | div => "/" | rem => "%" | pow => "^"

def opcode : Operator → Opcode
  | lt => .lt | le => .le | eq => .eq | same => .eq | ge => .ge | gt => .gt | ne => .ne
  | plus => .plus | minus => .minus | times => .mult | div => .div | rem => .rem | pow => .pow

def precedence : Operator → Nat
  | lt | le | eq | same | ge | gt | ne => 1
  | plus | minus => 2
  | times | div | rem => 3
  | pow => 4

def rightAssociative : Operator → Bool
  | pow => true
  | _ => false

def all : List Operator := [ne, rem, times, plus, minus, div, lt, le, eq, same, gt, ge, pow]

def ofSymbol? (s : String) : Option Operator := all.find? (·.symbol == s)

def signPrecedence : Nat := 4

end Operator

inductive Function where
  | abs | floor | ceil | sqrt | exp | log | log10 | sin | cos | tan | tanh
  | pow | atan2
  | min | max | sum
deriving DecidableEq

namespace Function

def name : Function → String
  | abs => "abs" | floor => "floor" | ceil => "ceil" | sqrt => "sqrt" | exp => "exp" | log => "log"
  | log10 => "log10" | sin => "sin" | cos => "cos" | tan => "tan" | tanh => "tanh"
  | pow => "pow" | atan2 => "atan2" | min => "min" | max => "max" | sum => "sum"

def opcode : Function → Opcode
  | abs => .abs | floor => .floor | ceil => .ceil | sqrt => .sqrt | exp => .exp | log => .log
  | log10 => .log10 | sin => .sin | cos => .cos | tan => .tan | tanh => .tanh
  | pow => .pow | atan2 => .atan2 | min => .minList | max => .maxList | sum => .sumList

def all : List Function :=
  [abs, floor, ceil, sqrt, exp, log, log10, sin, cos, tan, tanh, pow, atan2, min, max, sum]

def ofName? (s : String) : Option Function := all.find? (·.name == s)

def minArgs : Function → Nat
  | pow | atan2 => 2
  | _ => 1

def maxArgs? : Function → Option Nat
  | min | max | sum => none
  | pow | atan2 => some 2
  | _ => some 1

def accepts (f : Function) (n : Nat) : Bool :=
  f.minArgs ≤ n && match f.maxArgs? with
    | some m => n ≤ m
    | none => true

end Function

inductive Keyword where
  | sum | min | max
deriving DecidableEq

inductive Header where
  | bare
  | fixed (op : Opcode)
  | list (op : Opcode) (count : Nat)
deriving DecidableEq

namespace Keyword

def name : Keyword → String
  | sum => "sum" | min => "min" | max => "max"

def opcode : Keyword → Opcode
  | sum => .sumList | min => .minList | max => .maxList

def all : List Keyword := [sum, min, max]

def ofName? (s : String) : Option Keyword := all.find? (·.name == s)

def binary? : Keyword → Option Opcode
  | sum => some .plus
  | _ => none

def header (k : Keyword) (n : Nat) : Header :=
  if n = 1 then .bare
  else match k.binary? with
    | some op => if n = 2 then .fixed op else .list k.opcode n
    | none => .list k.opcode n

end Keyword

def Function.keyword? : Function → Option Keyword
  | .min => some .min
  | .max => some .max
  | .sum => some .sum
  | _ => none

namespace Alphabet

open Text

def operatorBytes : Bytes := ['+', '-', '*', '/', '^', '%', '<', '>', '=', '!'].map Char.toUInt8

def isOperatorByte (b : UInt8) : Bool := operatorBytes.contains b

def isBlankByte (b : UInt8) : Bool := b == 32 || b == 9 || b == 13 || b == 10

def isDigitByte (b : UInt8) : Bool := 48 ≤ b && b ≤ 57

def isLetterByte (b : UInt8) : Bool := (97 ≤ b && b ≤ 122) || (65 ≤ b && b ≤ 90) || b == 95

end Alphabet

end LandUse
