namespace LandUse

inductive FailureKind where
  | parse
  | dimension
  | lookup
  | access
  | settings
  | other (number : Int)
deriving DecidableEq

namespace FailureKind

def name : FailureKind → String
  | parse => "parse error"
  | dimension => "dimension error"
  | lookup => "lookup error"
  | access => "I/O error"
  | settings => "settings error"
  | other _ => "error"

def number : FailureKind → Int
  | parse => 1
  | dimension => 2
  | lookup => 3
  | access => 4
  | settings => 5
  | other n => n

def ofNumber : Int → FailureKind
  | 1 => parse
  | 2 => dimension
  | 3 => lookup
  | 4 => access
  | 5 => settings
  | n => other n

end FailureKind

/-- A negative offset, or an empty name of an equation, says that the place is not known. -/
structure Failure where
  kind : FailureKind
  equation : String := ""
  offset : Int := -1
  message : String
  inner : Option String := none

namespace Failure

def fullMessage (f : Failure) : String :=
  match f.inner with
  | none => f.message
  | some inner => if f.message.isEmpty then inner else f.message ++ ": " ++ inner

def text (f : Failure) : String :=
  let place :=
    if f.equation.isEmpty then ""
    else if 0 ≤ f.offset then " in " ++ f.equation ++ " at " ++ toString f.offset
    else " in " ++ f.equation
  f.kind.name ++ place ++ ": " ++ f.fullMessage

def parse (equation : String) (offset : Int) (message : String) : Failure :=
  { kind := .parse, equation := equation, offset := offset, message := message }

def dimension (equation message : String) : Failure :=
  { kind := .dimension, equation := equation, message := message }

def lookup (equation : String) (offset : Int) (message : String) : Failure :=
  { kind := .lookup, equation := equation, offset := offset, message := message }

def settings (message : String) : Failure := { kind := .settings, message := message }

def access (message : String) (inner : Option String) : Failure :=
  { kind := .access, message := message, inner := inner }

end Failure

inductive Fault where
  | failure (f : Failure)
  | plain (message : String)
  | violation

def Fault.text : Fault → String
  | failure f => f.text
  | plain message => message
  | violation => "violation"

def Fault.kind : Fault → FailureKind
  | failure f => f.kind
  | _ => .other 0

def orFault {α : Type} : Except Failure α → Except Fault α
  | .ok a => .ok a
  | .error f => .error (.failure f)

end LandUse
