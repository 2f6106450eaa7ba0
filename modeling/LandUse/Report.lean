import LandUse.Linear.Matrix
import LandUse.Number.Layout
import LandUse.Text.Case
import LandUse.Text.Width

namespace LandUse

namespace Box

inductive Item where
  | number (text : String)
  | word (text : String)

def Item.text : Item → String
  | number text | word text => text

def Item.isNumber : Item → Bool
  | number _ => true
  | word _ => false

end Box

structure Box where
  title : String
  header : List String
  rows : List (List Box.Item)
  footer : Option (List String) := none

namespace Box

def lines (s : String) : List String := (s.splitOn "\n").map fun l => l.replace "\t" "    "

def width (s : String) : Nat := (lines s).foldl (fun n l => max n (Text.width l)) 0

def spaces (n : Nat) : String := String.ofList (List.replicate n ' ')

def dashes (n : Nat) : String := String.ofList (List.replicate n '-')

structure Layout where
  width : Nat
  right : Bool

def layout (b : Box) (i : Nat) (head : String) : Layout :=
  let items := b.rows.filterMap (·[i]?)
  let foot := ((b.footer.getD [])[i]?).getD ""
  let widths := width head :: width foot :: items.map fun x => width x.text
  ⟨widths.foldl max 0, items.all (·.isNumber)⟩

def layouts (b : Box) : List Layout := b.header.zipIdx.map fun (h, i) => b.layout i h

def align (l : Layout) (s : String) : String :=
  let fill := spaces (l.width - Text.width s)
  " " ++ (if l.right then fill ++ s else s ++ fill) ++ " "

def rowText (ls : List Layout) (cells : List String) : String :=
  let height := cells.foldl (fun n c => max n (lines c).length) 1
  String.join ((List.range height).map fun k =>
    "|" ++ "|".intercalate ((ls.zip cells).map fun (l, c) => align l ((lines c).getD k "")) ++ "|\n")

def rule (ls : List Layout) : String := "+" ++ "+".intercalate (ls.map fun l => dashes (l.width + 2)) ++ "+\n"

def titleText (ls : List Layout) (title : String) : String :=
  let inner := ls.foldl (fun n l => n + l.width + 3) 0 - 1
  "+" ++ dashes inner ++ "+\n| " ++ title ++ spaces (inner - 1 - title.length) ++ "|\n"

def text (b : Box) : String :=
  let ls := b.layouts
  let foot := match b.footer with
    | some cells => rule ls ++ rowText ls (cells.map Text.upper)
    | none => ""
  titleText ls b.title ++ rule ls ++ rowText ls (b.header.map Text.upper) ++ rule ls ++
    String.join (b.rows.map fun r => rowText ls (r.map Item.text)) ++ foot ++ rule ls

end Box

namespace Matrix

open Box

def kindText : VariableKind → String
  | .real => "real"
  | .int => "int"
  | .binary => "bin"

def boundItem (x : Float) : Item :=
  if x.isInf then .word (if x < 0 then "-inf" else "inf") else .number (Number.general x)

def columnItems (m : Matrix Float) (i : Nat) (c : MatrixColumn) : List Item :=
  [.number (toString i), .word c.name, .word (kindText c.kind), boundItem c.lower, boundItem c.upper,
    .number (Number.general ((m.objective.get? i).getD 0))]

def rowItems (i : Nat) (r : MatrixRow Float) : List Item :=
  [.number (toString i), .word r.name, .number (toString r.coeffs.length), .word r.relation.symbol,
    .number (Number.general r.rhs)]

def columnBox (m : Matrix Float) : Box where
  title := "Decision variables"
  header := ["#", "Name", "Kind", "Lower", "Upper", "Objective"]
  rows := m.columns.zipIdx.map fun (c, i) => m.columnItems i c
  footer := some ["", "", "", "", "", m.sense.name]

def rowBox (m : Matrix Float) : Box where
  title := "Constraints"
  header := ["#", "Name", "Non-zeros", "Relation", "RHS"]
  rows := m.rows.zipIdx.map fun (r, i) => rowItems i r

def report (m : Matrix Float) : String :=
  "problem with " ++ toString m.columns.length ++ " columns and " ++ toString m.rows.length ++ " rows\n" ++
    m.columnBox.text ++ m.rowBox.text

end Matrix

end LandUse
