import LandUse.Table.Numeral
import LandUse.Value

/-! What a column makes of a value: numerals and numbers are converted, and what does not fit is kept. -/

namespace LandUse

namespace Affinity

def isBlank (c : Char) : Bool := c == ' ' || (9 ≤ c.toNat && c.toNat ≤ 13)

def ofInt? (n : Int) : Option Value :=
  if Int64.minValue.toInt ≤ n && n ≤ Int64.maxValue.toInt then some (.int (Int64.ofInt n)) else none

def wholeOrReal (x : Float) : Value :=
  let n := Number.truncate x
  if Number.isIntegral x && Int64.minValue.toInt < n && n < Int64.maxValue.toInt then
    .int (Int64.ofInt n) else .double x

def ofNumeral (n : Numeral) : Value :=
  match n.integer? with
  | some i => (ofInt? i).getD (.double n.value)
  | none => .double n.value

def numeral? (s : String) : Option Value :=
  let (n, rest) := Numeral.split (s.toList.dropWhile isBlank)
  if n.digits.isEmpty || !rest.all isBlank then none else some (ofNumeral n)

def leadingNumber (s : String) : Float := (Numeral.split (s.toList.dropWhile isBlank)).1.value

def toWhole : Value → Value
  | .double x => wholeOrReal x
  | v => v

def toReal : Value → Value
  | .int i => .double (Value.ofInt64 i)
  | v => v

def toNumeric : Value → Value
  | .text s => ((numeral? s).map toWhole).getD (.text s)
  | v => toWhole v

def toText : Value → Value
  | .int i => .text (toString i.toInt)
  | .double x => .text (Numeral.text x)
  | v => v

end Affinity

namespace ValueType

def convert : ValueType → Value → Value
  | .int, v => Affinity.toNumeric v
  | .double, v =>
    match Affinity.toReal (Affinity.toNumeric v) with
    | .double x => .double (if x == 0 then 0 else x)
    | w => w
  | _, v => Affinity.toText v

def store (t : ValueType) : Cell → Cell
  | none => none
  | some (.double x) => if x.isNaN then none else some (t.convert (.double x))
  | some v => some (t.convert v)

end ValueType

end LandUse
