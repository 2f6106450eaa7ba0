import LandUse.Settings.Hcl.Body
import LandUse.Settings.Read

namespace LandUse.Hcl

inductive Error where
  | malformed
  | layout
  | nestedBlock (heading : String)
  | noValue (heading key : String)
  | unsupported (heading key : String)

def Error.message (file : String) : Error → String
  | malformed => "cannot parse " ++ file
  | layout => "cannot decode " ++ file
  | nestedBlock _ | noValue .. => file
  | unsupported heading key => file ++ ": " ++ heading ++ "." ++ key ++ ": unsupported value of type object"

def Error.isComplete : Error → Bool
  | unsupported .. => true
  | _ => false

mutual

def resolved : Value → Bool
  | .unresolved => false
  | .list items => allResolved items
  | .object values => allResolved values
  | _ => true

def allResolved : List Value → Bool
  | [] => true
  | v :: vs => resolved v && allResolved vs

end

mutual

def flat? : Value → Option String
  | .null => some ""
  | .bool b => some (if b then "true" else "false")
  | .number negative d => some (numberText negative d)
  | .text s => some s
  | .list items => (flatItems? items).map (" ".intercalate ·)
  | .object _ | .unresolved => none

def flatItems? : List Value → Option (List String)
  | [] => some []
  | v :: vs => do
    let s ← flat? v
    let ss ← flatItems? vs
    return s :: ss

end

def sectionNames : List String := Settings.readers.map (·.1)

def attributeText (heading key : String) (v : Value) : Except Error String :=
  if !resolved v then .error (.noValue heading key)
  else match flat? v with
    | some s => .ok s
    | none => .error (.unsupported heading key)

def sectionOf (name : String) (body : List Item) : Except Error (Dict String) :=
  if body.any fun | .block .. => true | .attribute .. => false then .error (.nestedBlock name)
  else body.foldlM (fun d item =>
    match item with
    | .attribute key v => do return d.set key (← attributeText name key v)
    | .block .. => .ok d) []

def wellFormed (items : List Item) : Bool :=
  let names := items.map fun
    | .block name _ _ => name
    | .attribute name _ => name
  items.all (fun
    | .block name labels _ => sectionNames.contains name && labels == 0
    | .attribute .. => false) && names.eraseDups.length == names.length

def sections (s : String) : Except Error Sections :=
  match readDocument s with
  | none => .error .malformed
  | some items =>
    if !wellFormed items then .error .layout
    else items.foldlM (fun d item =>
      match item with
      | .block name _ body => do return d.set name (← sectionOf name body)
      | .attribute .. => .ok d) []

end LandUse.Hcl
