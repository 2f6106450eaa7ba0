import LandUse.Text.Quoted

namespace LandUse

inductive Comparison where
  | none | le | ge | eq
deriving DecidableEq

namespace Comparison

def symbol : Comparison → String
  | none => ""
  | le => "<="
  | ge => ">="
  | eq => "="

def number : Comparison → Int
  | none => 0
  | le => 1
  | ge => 2
  | eq => 3

def ofNumber : Int → Comparison
  | 1 => le
  | 2 => ge
  | 3 => eq
  | _ => none

def ofSymbol? (s : String) : Option Comparison :=
  if s == "<=" then some le
  else if s == ">=" then some ge
  else if s == "=" || s == "==" then some eq
  else Option.none

def invalidMessage (s : String) : String := "invalid comparison operator " ++ Text.quote s

def label : Comparison → String
  | none => "none"
  | le => "upper"
  | ge => "lower"
  | eq => "equals"

def rangeCode : Comparison → Nat
  | none => 3
  | le => 1
  | ge => 2
  | eq => 4

end Comparison

inductive Sense where
  | minimize | maximize
deriving DecidableEq

namespace Sense

def name : Sense → String
  | minimize => "min"
  | maximize => "max"

def ofName? (s : String) : Option Sense :=
  let w := String.ofList (s.toList.take 3)
  if w == "min" || w == "MIN" || w == "Min" then some minimize
  else if w == "max" || w == "MAX" || w == "Max" then some maximize
  else none

def invalidMessage (s : String) : String := "invalid optimization sense " ++ Text.quote s

end Sense

end LandUse
