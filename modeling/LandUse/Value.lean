import LandUse.Number.Layout
import LandUse.Number.Reader
import LandUse.Text.Basic
import LandUse.Text.Case
import LandUse.Text.Quoted

/-! Values of table cells, and the keys by which they are told apart. -/

namespace LandUse

inductive ValueType where
  | undefined | int | double | text
deriving DecidableEq

namespace ValueType

def name : ValueType → String
  | undefined => "<undefined>"
  | int => "int"
  | double => "double"
  | text => "text"

def number : ValueType → Nat
  | undefined => 0
  | int => 1
  | double => 2
  | text => 3

def ofName (s : String) : ValueType :=
  let t := Text.lower s
  if t == "int" || t == "integer" then int
  else if t == "double" || t == "real" || t == "float" then double
  else if t == "text" || t == "string" then text
  else undefined

end ValueType

inductive Value where
  | int (i : Int64)
  | double (x : Float)
  | text (s : String)

inductive ValueError where
  | notNumeric (s : String)
  | notInteger (s : String)
  | absent
  | noType

def ValueError.message : ValueError → String
  | notNumeric s => "value " ++ Text.quote s ++ " is not numeric"
  | notInteger s => "value " ++ Text.quote s ++ " is not an integer"
  | absent => "value is nil"
  | noType => "value of unknown type <nil>"

namespace Value

def type : Value → ValueType
  | int _ => .int
  | double _ => .double
  | text _ => .text

def toText : Value → String
  | int i => toString i.toInt
  | double x => Number.general x
  | text s => s

def ofInt64 (i : Int64) : Float := Float.ofInt i.toInt

def toFloat : Value → Except ValueError Float
  | int i => .ok (ofInt64 i)
  | double x => .ok x
  | text s =>
    match Number.readFloat (Text.trim s) with
    | some x => .ok x
    | none => .error (.notNumeric s)

def integerPart (x : Float) : Int64 :=
  let n := Number.truncate x
  if x.isFinite && Int64.minValue.toInt ≤ n && n ≤ Int64.maxValue.toInt then Int64.ofInt n else Int64.minValue

def toInt : Value → Except ValueError Int64
  | int i => .ok i
  | double x => .ok (integerPart x)
  | text s =>
    match Number.readInt64 (Text.trim s) with
    | some i => .ok i
    | none => .error (.notInteger s)

def number : Value → Float
  | int i => ofInt64 i
  | double x => x
  | text _ => 0

def equal : Value → Value → Bool
  | text s, text t => s == t
  | text _, _ => false
  | _, text _ => false
  | v, w => v.number == w.number

def less : Value → Value → Bool
  | text s, text t => s < t
  | text _, _ => false
  | _, text _ => true
  | v, w => v.number < w.number

def key : Value → String
  | text s => "t:" ++ s
  | v => "n:" ++ Number.general v.number

end Value

abbrev Cell := Option Value

namespace Cell

def key : Cell → String
  | some v => v.key
  | none => "?"

def equal : Cell → Cell → Bool
  | none, none => true
  | some v, some w => v.equal w
  | _, _ => false

def toFloat : Cell → Except ValueError Float
  | some v => v.toFloat
  | none => .error .absent

def toInt : Cell → Except ValueError Int64
  | some v => v.toInt
  | none => .error .noType

def toText : Cell → String
  | some v => v.toText
  | none => "<nil>"

/-- The keys of the cells, with a zero byte between them. -/
def tupleKey (cells : List Cell) : String :=
  (String.singleton (Char.ofNat 0)).intercalate (cells.map key)

end Cell

end LandUse
