import LandUse.Settings.Hcl.Expr

namespace LandUse.Hcl

def readLabels : Nat → List Char → Option (Nat × List Char)
  | 0, _ => none
  | fuel + 1, cs =>
    match inline cs with
    | '{' :: r => some (0, r)
    | '"' :: r => do
      let (_, r) ← readPieces (r.length + 1) r
      let (n, r) ← readLabels fuel r
      return (n + 1, r)
    | r => do
      let (_, r) ← readName r
      let (n, r) ← readLabels fuel r
      return (n + 1, r)

def readAttribute (cs : List Char) : Option (Value × List Char) := readExpr (2 * cs.length + 4) (inline cs)

def sets (items : List Item) (name : String) : Bool :=
  items.any fun
    | .attribute n _ => n == name
    | .block .. => false

def closeLine (cs : List Char) : Option (List Char) :=
  match inline cs with
  | [] => some []
  | r => lineEnd? r

def readShortBody (cs : List Char) : Option (List Item × List Char) := do
  let (name, r) ← readName cs
  match inline r with
  | '=' :: r =>
    let (v, r) ← readAttribute r
    match inline r with
    | '}' :: r => some ([.attribute name v], r)
    | _ => none
  | _ => none

mutual

def readItemsOf (inner : Bool) : Nat → List Char → Option (List Item × List Char)
  | 0, _ => none
  | fuel + 1, cs =>
    match lines cs with
    | [] => if inner then none else some ([], [])
    | '}' :: r => if inner then some ([], r) else none
    | r => do
      let (name, r) ← readName r
      match inline r with
      | '=' :: r =>
        let (v, r) ← readAttribute r
        let r ← closeLine r
        let (items, r) ← readItemsOf inner fuel r
        if sets items name then none else return (.attribute name v :: items, r)
      | _ =>
        let (labels, r) ← readLabels (r.length + 1) r
        let (body, r) ← readBody fuel r
        let r ← closeLine r
        let (items, r) ← readItemsOf inner fuel r
        return (.block name labels body :: items, r)

def readBody : Nat → List Char → Option (List Item × List Char)
  | 0, _ => none
  | fuel + 1, cs =>
    let cs := inline cs
    match cs, lineEnd? cs with
    | '}' :: r, none => some ([], r)
    | _, some r => readItemsOf true fuel r
    | _, none => readShortBody cs

end

def dropOrderMark (cs : List Char) : List Char :=
  match cs with
  | c :: r => if c.toNat == 0xFEFF then r else cs
  | [] => []

def readDocument (s : String) : Option (List Item) := do
  let cs := dropOrderMark s.toList
  let (items, _) ← readItemsOf false (2 * cs.length + 4) cs
  return items

end LandUse.Hcl
