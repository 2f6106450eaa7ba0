import LandUse.Number.Layout
import LandUse.Number.Reader
import LandUse.Text.Letter

namespace LandUse.Hcl

inductive Value where
  | null
  | bool (b : Bool)
  | number (negative : Bool) (size : Number.Digits)
  | text (s : String)
  | list (items : List Value)
  | object (values : List Value)
  | unresolved

inductive Item where
  | attribute (name : String) (value : Value)
  | block (name : String) (labels : Nat) (body : List Item)

def isNameStart (c : Char) : Bool := c == '_' || Text.isLetter c

def isNameRest (c : Char) : Bool := c == '-' || Text.isLetter c || Text.isAttached c

def dropComment : List Char → Option (List Char)
  | [] => none
  | '*' :: '/' :: r => some r
  | _ :: r => dropComment r

def skipInline : Nat → List Char → List Char
  | 0, cs => cs
  | fuel + 1, cs =>
    match cs with
    | ' ' :: r => skipInline fuel r
    | '\t' :: r => skipInline fuel r
    | '/' :: '*' :: r =>
      match dropComment r with
      | some r => skipInline fuel r
      | none => cs
    | _ => cs

def inline (cs : List Char) : List Char := skipInline cs.length cs

def lineEnd? (cs : List Char) : Option (List Char) :=
  let toLineFeed (r : List Char) : Option (List Char) :=
    match r.dropWhile (· != '\n') with
    | _ :: r => some r
    | [] => some []
  match cs with
  | '\n' :: r => some r
  | '\r' :: '\n' :: r => some r
  | '#' :: r => toLineFeed r
  | '/' :: '/' :: r => toLineFeed r
  | _ => none

def skipLines : Nat → List Char → List Char
  | 0, cs => cs
  | fuel + 1, cs =>
    let cs := inline cs
    match lineEnd? cs with
    | some r => skipLines fuel r
    | none => cs

def lines (cs : List Char) : List Char := skipLines (cs.length + 1) cs

def readName (cs : List Char) : Option (String × List Char) :=
  match cs with
  | c :: r =>
    if isNameStart c then some (String.ofList (c :: r.takeWhile isNameRest), r.dropWhile isNameRest) else none
  | [] => none

def roundedDigits (num den : Nat) : Number.Digits :=
  let q := Number.log2Fraction num den - 511
  let (n, d) := Number.scaleFraction num den (-q)
  let m := Number.roundDiv n d
  let v := if m == Number.twoTo 512 then Number.Interval.around (m / 2) (q + 1) false
    else Number.Interval.around m q false
  v.walked 160

def numberDigits (whole frac : List Char) (exponent : Int) : Number.Digits :=
  let ds := (whole ++ frac).map fun c => c.toNat - 48
  let zeros := (ds.takeWhile (· == 0)).length
  let digits := Number.stripZeros (ds.dropWhile (· == 0))
  if digits.length ≤ 153 then ⟨digits, whole.length - 1 - zeros + exponent⟩
  else
    let (num, den) := Number.shiftFraction (Number.digitsValue 10 (whole ++ frac)) 1 (exponent - frac.length)
    roundedDigits num den

def numberText (negative : Bool) (d : Number.Digits) : String :=
  Number.signText negative ++
    if d.digits.isEmpty then "0"
    else if -4 ≤ d.exponent && d.exponent ≤ 5 then Number.positional d
    else Number.scientific d

def plainNumberText (negative : Bool) (d : Number.Digits) : String :=
  Number.signText negative ++ if d.digits.isEmpty then "0" else Number.positional d

def readFraction : List Char → List Char × List Char
  | '.' :: r =>
    let ds := r.takeWhile Number.isDigit
    if ds.isEmpty then ([], '.' :: r) else (ds, r.dropWhile Number.isDigit)
  | r => ([], r)

def readExponent : List Char → Int × List Char
  | c :: r =>
    let (negative, ds) := Number.splitSign r
    let digits := ds.takeWhile Number.isDigit
    if (c == 'e' || c == 'E') && !digits.isEmpty then
      let e : Int := Number.digitsValue 10 digits
      (if negative then -e else e, ds.dropWhile Number.isDigit)
    else (0, c :: r)
  | [] => (0, [])

def readNumber (cs : List Char) : Value × List Char :=
  let (frac, r) := readFraction (cs.dropWhile Number.isDigit)
  let (e, r) := readExponent r
  (.number false (numberDigits (cs.takeWhile Number.isDigit) frac e), r)

end LandUse.Hcl
