import LandUse.Number.Parts

namespace LandUse.Number

def isDigit (c : Char) : Bool := '0' ≤ c && c ≤ '9'

def isHexDigit (c : Char) : Bool := isDigit c || ('a' ≤ c && c ≤ 'f') || ('A' ≤ c && c ≤ 'F')

def hexValue (c : Char) : Nat :=
  if isDigit c then c.toNat - 48 else if 'a' ≤ c then c.toNat - 87 else c.toNat - 55

def digitsValue (base : Nat) (ds : List Char) : Nat := ds.foldl (fun n c => base * n + hexValue c) 0

def splitSign : List Char → Bool × List Char
  | '-' :: r => (true, r)
  | '+' :: r => (false, r)
  | r => (false, r)

def exponentValue (ds : List Char) : Nat :=
  ds.foldl (fun e c => if e < 10000 then 10 * e + hexValue c else e) 0

inductive Previous where
  | digit
  | underscore
  | other

def underscoresAllowed (digit : Char → Bool) : Previous → List Char → Bool
  | .underscore, [] => false
  | _, [] => true
  | prev, c :: cs =>
    if digit c then underscoresAllowed digit .digit cs
    else if c == '_' then
      match prev with
      | .digit => underscoresAllowed digit .underscore cs
      | _ => false
    else match prev with
      | .underscore => false
      | _ => underscoresAllowed digit .other cs

def splitMantissa (digit : Char → Bool) (cs : List Char) : List Char × List Char × List Char :=
  let ok (c : Char) : Bool := digit c || c == '_'
  let whole := cs.takeWhile ok
  match cs.dropWhile ok with
  | '.' :: r => (whole.filter digit, (r.takeWhile ok).filter digit, r.dropWhile ok)
  | r => (whole.filter digit, [], r)

def readExponent (marks : List Char) (required : Bool) : List Char → Option Int
  | [] => if required then none else some 0
  | c :: r =>
    if marks.contains c then
      let (negative, ds) := splitSign r
      match ds with
      | [] => none
      | d :: _ =>
        if isDigit d && ds.all (fun c => isDigit c || c == '_') then
          let e : Int := exponentValue (ds.filter isDigit)
          some (if negative then -e else e)
        else none
    else none

def hexBody? : List Char → Option (List Char)
  | '0' :: x :: c :: r => if x == 'x' || x == 'X' then some (c :: r) else none
  | _ => none

def readBody (negative hex : Bool) (body : List Char) : Option Float :=
  let digit : Char → Bool := if hex then isHexDigit else isDigit
  let (whole, frac, rest) := splitMantissa digit body
  if whole.isEmpty && frac.isEmpty then none
  else if !underscoresAllowed digit (if hex then .digit else .other) body then none
  else
    match readExponent (if hex then ['p', 'P'] else ['e', 'E']) hex rest with
    | none => none
    | some e =>
      let m := digitsValue (if hex then 16 else 10) (whole ++ frac)
      let x := if hex then ofParts negative m (e - 4 * frac.length) else ofDecimal negative m (e - frac.length)
      if x.isFinite then some x else none

def readMagnitude (negative : Bool) (cs : List Char) : Option Float :=
  match hexBody? cs with
  | some body => readBody negative true body
  | none => readBody negative false cs

def readFloat (s : String) : Option Float :=
  let lowered := s.toList.map Char.toLower
  let (negative, body) := splitSign lowered
  if lowered == "nan".toList then some nan
  else if body == "inf".toList || body == "infinity".toList then
    some (if negative then -infinity else infinity)
  else readMagnitude negative (splitSign s.toList).2

def readInt (s : String) : Option Int :=
  let (negative, ds) := splitSign s.toList
  if ds.isEmpty || !ds.all isDigit then none
  else some (if negative then -(digitsValue 10 ds : Int) else digitsValue 10 ds)

def readInt64 (s : String) : Option Int64 :=
  match readInt s with
  | some n => if Int64.minValue.toInt ≤ n && n ≤ Int64.maxValue.toInt then some (Int64.ofInt n) else none
  | none => none

end LandUse.Number
