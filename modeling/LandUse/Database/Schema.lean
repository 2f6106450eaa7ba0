import LandUse.Database.File
import LandUse.Table.Basic
import LandUse.Text.Basic

namespace LandUse.Database

inductive Word where
  | plain (s : String)
  | quoted (s : String)
  | mark (c : Char)

namespace Word

def text? : Word → Option String
  | plain s => some s
  | quoted s => some s
  | mark _ => none

def key : Word → String
  | plain s => String.ofList (s.toList.map Char.toUpper)
  | _ => ""

def isWordChar (c : Char) : Bool := Filter.isWordRest c || c == '$' || c == '.'

def closing? (c : Char) : Option Char :=
  if c == '"' || c == '\'' || c == Char.ofNat 96 then some c else if c == '[' then some ']' else none

def dropBlock : List Char → List Char
  | '*' :: '/' :: r => r
  | _ :: r => dropBlock r
  | [] => []

def readAll : Nat → List Char → List Word
  | 0, _ => []
  | _, [] => []
  | fuel + 1, '-' :: '-' :: r => readAll fuel (r.dropWhile (· != '\n'))
  | fuel + 1, '/' :: '*' :: r => readAll fuel (dropBlock r)
  | fuel + 1, c :: r =>
    if Affinity.isBlank c then readAll fuel r
    else match closing? c with
      | some q =>
        match SqlText.readEnclosed q r with
        | some (s, rest) => quoted (String.ofList s) :: readAll fuel rest
        | none => []
      | none =>
        if isWordChar c then
          plain (String.ofList (c :: r.takeWhile isWordChar)) :: readAll fuel (r.dropWhile isWordChar)
        else mark c :: readAll fuel r

end Word

def definitions : Nat → List Word → List Word → List (List Word)
  | _, [], part => [part.reverse]
  | 0, .mark '(' :: r, _ => definitions 1 r []
  | 0, _ :: r, part => definitions 0 r part
  | depth + 1, w :: r, part =>
    match w with
    | .mark '(' => definitions (depth + 2) r (w :: part)
    | .mark ')' => if depth = 0 then [part.reverse] else definitions depth r (w :: part)
    | .mark ',' => if depth = 0 then part.reverse :: definitions 1 r [] else definitions (depth + 1) r (w :: part)
    | _ => definitions (depth + 1) r (w :: part)

def constraintWords : List String :=
  ["CONSTRAINT", "PRIMARY", "NOT", "NULL", "UNIQUE", "CHECK", "DEFAULT", "COLLATE", "REFERENCES",
    "GENERATED", "AS"]

def tableWords : List String := ["CONSTRAINT", "PRIMARY", "UNIQUE", "CHECK", "FOREIGN"]

structure Declared where
  name : String
  type : String
  primary : Bool

def isPrimary : List Word → Bool
  | [] => false
  | [_] => false
  | v :: w :: r => (v.key == "PRIMARY" && w.key == "KEY") || isPrimary (w :: r)

def declared? : List Word → Option Declared
  | [] => none
  | w :: r =>
    if tableWords.contains w.key then none
    else
      let type := r.takeWhile fun v => v.text?.isSome && !constraintWords.contains v.key
      w.text?.map fun name => ⟨name, " ".intercalate (type.filterMap Word.text?), isPrimary r⟩

def primaryName? (definition : List Word) : Option String :=
  match definition.dropWhile fun w => w.key != "PRIMARY" with
  | _ :: _ :: .mark '(' :: w :: .mark ')' :: _ => w.text?
  | _ => none

def affinity (declaration : String) : ValueType :=
  let type := String.ofList (declaration.toList.map Char.toUpper)
  let mentions (names : List String) : Bool := names.any (Text.contains type)
  if mentions ["INT"] then .int
  else if mentions ["CHAR", "CLOB", "TEXT"] then .text
  else if mentions ["REAL", "FLOA", "DOUB"] then .double
  else .int

def columns (statement : String) : List Column × Option Nat :=
  let words := Word.readAll statement.length statement.toList
  let parts := definitions 0 words []
  let names := (parts.filter fun d => d.head?.any fun w => tableWords.contains w.key).filterMap primaryName?
  let declared := parts.filterMap declared?
  let isNumber (d : Declared) : Bool :=
    Table.asciiLower d.type == "integer" &&
      (d.primary || names.any fun n => Table.asciiLower n == Table.asciiLower d.name)
  (declared.map fun d => ⟨d.name, affinity d.type⟩, declared.findIdx? isNumber)

def restore : ValueType → Cell → Cell
  | .double, some v => some (Affinity.toReal v)
  | _, c => c

def restoreRow (columns : List Column) (number? : Option Nat) (row : File.NumberedRow) : List Cell :=
  columns.zipIdx.map fun (column, i) =>
    if number? = some i then some (.int (Int64.ofInt row.1)) else restore column.type ((row.2[i]?).getD none)

def File.table? (f : File) : File.NumberedRow → Option Table
  | (_, [some (.text "table"), some (.text name), _, some (.int root), some (.text statement)]) =>
    let (columns, number?) := columns statement
    some ⟨name, columns, (f.rows root.toInt.toNat).map (restoreRow columns number?)⟩
  | _ => none

def tables? (bs : ByteArray) : Option (List Table) :=
  if bs.size = 0 then some [] else (File.open? bs).map fun f => (f.rows 1).filterMap f.table?

end LandUse.Database
