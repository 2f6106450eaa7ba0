import LandUse.Linear.Matrix
import LandUse.Number.Layout

namespace LandUse.LpText

def isNameChar (c : Char) : Bool := c.isAlpha || c.isDigit || c == '_'

def nameText (name : String) : String := String.ofList (name.toList.map fun c => if isNameChar c then c else '_')

def number (x : Float) : Except Fault String :=
  match Number.plain? x with
  | some s => .ok s
  | none => .error .violation

def term (m : Matrix Float) (k : Int) (c : Float) : Except Fault String := do
  let digits ← number c
  if !m.hasColumn k then throw .violation
  let name := ((m.columns[k.toNat]?).map (·.name)).getD ""
  return (if 0 ≤ c then "+" else "") ++ digits ++ " " ++ nameText name

def terms (m : Matrix Float) (coeffs : Coeffs Float) : Except Fault String := do
  return " ".intercalate (← coeffs.mapM fun (k, c) => term m k c)

def row (m : Matrix Float) (r : MatrixRow Float) : Except Fault String := do
  let lhs ← terms m r.coeffs
  return nameText r.name ++ ": " ++ (if lhs.isEmpty then "0" else lhs) ++ " " ++ r.relation.symbol ++ " " ++
    (← number r.rhs) ++ ";\n"

def isInfinite (x : Float) (negative : Bool) : Bool := x == if negative then -Number.infinity else Number.infinity

def bounds (c : MatrixColumn) : Except Fault String := do
  if c.kind == .binary || (c.lower == 0 && isInfinite c.upper false) then return ""
  let lower ← if isInfinite c.lower true then pure "-1e30" else number c.lower
  let name := nameText c.name
  if isInfinite c.upper false then return name ++ " >= " ++ lower ++ ";\n"
  return lower ++ " <= " ++ name ++ " <= " ++ (← number c.upper) ++ ";\n"

def declaration (word : String) (kind : VariableKind) (m : Matrix Float) : String :=
  match (m.columns.filter (·.kind == kind)).map fun c => nameText c.name with
  | [] => ""
  | names => "\n" ++ word ++ " " ++ ",".intercalate names ++ ";\n"

end LandUse.LpText

namespace LandUse

def Matrix.text (m : Matrix Float) : Except Fault String := do
  let objective ← LpText.terms m m.objective
  let rows ← m.rows.mapM (LpText.row m)
  let bounds := String.join (← m.columns.mapM LpText.bounds)
  return "/* Objective function */\n" ++ m.sense.name ++ ": " ++ objective ++ ";\n" ++
    (if rows.isEmpty then "" else "\n/* Constraints */\n") ++ String.join rows ++
    (if bounds.isEmpty then "" else "\n" ++ bounds) ++
    LpText.declaration "int" .int m ++ LpText.declaration "bin" .binary m

end LandUse
