import LandUse.Settings.Json.Basic
import LandUse.Settings.Read

/-! Nested objects are flattened to dotted paths; the part up to the first dot is the section. -/

namespace LandUse.Json

mutual

def display : Json → String
  | null => "<nil>"
  | bool b => if b then "true" else "false"
  | number x => Number.general x
  | text s => s
  | list items => "[" ++ " ".intercalate (displayItems items) ++ "]"
  | object fields => "map[" ++ " ".intercalate ((Dict.ofList (displayFields fields)).map (·.2)) ++ "]"

def displayItems : List Json → List String
  | [] => []
  | v :: vs => v.display :: displayItems vs

def displayFields : List (String × Json) → List (String × String)
  | [] => []
  | (name, v) :: fs => (name, name ++ ":" ++ v.display) :: displayFields fs

end

mutual

def flat : Json → String
  | list items => " ".intercalate (flatItems items)
  | v => v.display

def flatItems : List Json → List String
  | [] => []
  | v :: vs => v.flat :: flatItems vs

end

mutual

def leaves (path : String) : Json → List (String × String)
  | object [] => [(path, (object []).display)]
  | object (f :: fs) => leavesOfFields (path ++ ".") (f :: fs)
  | v => [(path, v.flat)]

def leavesOfFields (start : String) : List (String × Json) → List (String × String)
  | [] => []
  | (name, v) :: fs =>
    -- only the last field of a name counts
    if fs.any (·.1 == name) then leavesOfFields start fs
    else v.leaves (start ++ name) ++ leavesOfFields start fs

end

def place (sections : Sections) (leaf : String × String) : Sections :=
  let cs := leaf.1.toList
  let heading := cs.takeWhile (· != '.')
  match cs.dropWhile (· != '.') with
  | _ :: key =>
    if heading.isEmpty then sections
    else
      let name := Text.lower (String.ofList heading)
      sections.set name (((sections.get? name).getD []).set (String.ofList key) leaf.2)
  | [] => sections

def sections? (s : String) : Option Sections :=
  match read? s with
  | some (object fields) => some ((leavesOfFields "" fields).foldl place [])
  | some null => some []
  | _ => none

end LandUse.Json
