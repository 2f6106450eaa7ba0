import LandUse.Settings.Hcl.Basic
import LandUse.Text.Normal

namespace LandUse.Hcl

inductive Piece where
  | chars (cs : List Char)
  | insert (v : Value)

def ofCodePoint (n : Nat) : Char := if n.isValidChar then Char.ofNat n else Char.ofNat 0xFFFD

def readCodePoint (count : Nat) (cs : List Char) : Option (Char × List Char) :=
  let ds := cs.take count
  if ds.length == count && ds.all Number.isHexDigit then
    some (ofCodePoint (Number.digitsValue 16 ds), cs.drop count)
  else none

def readEscape : List Char → Option (Char × List Char)
  | 'n' :: r => some ('\n', r)
  | 'r' :: r => some ('\r', r)
  | 't' :: r => some ('\t', r)
  | '"' :: r => some ('"', r)
  | '\\' :: r => some ('\\', r)
  | 'u' :: r => readCodePoint 4 r
  | 'U' :: r => readCodePoint 8 r
  | _ => none

def insertedText : Value → Option (List Char)
  | .bool b => some (if b then "true".toList else "false".toList)
  | .number negative d => some (plainNumberText negative d).toList
  | .text s => some s.toList
  | _ => none

def joinPieces : List Piece → Value
  | [.insert v] => v
  | ps =>
    let texts := ps.map fun
      | .chars cs => some cs
      | .insert v => insertedText v
    if texts.all Option.isSome then
      .text (Text.normalize (String.ofList (texts.filterMap id).flatten))
    else .unresolved

mutual

def readExpr : Nat → List Char → Option (Value × List Char)
  | 0, _ => none
  | fuel + 1, cs =>
    match cs with
    | '"' :: r => do
      let (pieces, r) ← readPieces fuel r
      return (joinPieces pieces, r)
    | '[' :: r => do
      let (items, r) ← readItems fuel (lines r)
      return (.list items, r)
    | '{' :: r => do
      let (values, r) ← readFields fuel (lines r)
      return (.object values, r)
    | '(' :: r => do
      let (v, r) ← readExpr fuel (lines r)
      match lines r with
      | ')' :: r => return (v, r)
      | _ => none
    | '-' :: r => do
      let (v, r) ← readExpr fuel (inline r)
      match v with
      | .number negative d => return (.number (!negative) d, r)
      | _ => return (.unresolved, r)
    | c :: _ =>
      if Number.isDigit c then some (readNumber cs)
      else do
        let (name, r) ← readName cs
        if name == "true" then return (.bool true, r)
        else if name == "false" then return (.bool false, r)
        else if name == "null" then return (.null, r)
        else return (.unresolved, ← readTraversal fuel r)
    | [] => none

def readTraversal : Nat → List Char → Option (List Char)
  | 0, _ => none
  | fuel + 1, cs =>
    match cs with
    | '.' :: r => do
      let (_, r) ← readName r
      readTraversal fuel r
    | '[' :: r => do
      let (_, r) ← readItems fuel (lines r)
      readTraversal fuel r
    | '(' :: r =>
      match lines r with
      | ')' :: r => readTraversal fuel r
      | r => do
        let r ← readArguments fuel r
        readTraversal fuel r
    | r => some r

def readArguments : Nat → List Char → Option (List Char)
  | 0, _ => none
  | fuel + 1, cs => do
    let (_, r) ← readExpr fuel cs
    match lines r with
    | ',' :: r => readArguments fuel (lines r)
    | ')' :: r => some r
    | _ => none

def readItems : Nat → List Char → Option (List Value × List Char)
  | 0, _ => none
  | fuel + 1, cs =>
    match cs with
    | ']' :: r => some ([], r)
    | _ => do
      let (v, r) ← readExpr fuel cs
      match lines r with
      | ',' :: r =>
        let (vs, r) ← readItems fuel (lines r)
        return (v :: vs, r)
      | ']' :: r => return ([v], r)
      | _ => none

def readFields : Nat → List Char → Option (List Value × List Char)
  | 0, _ => none
  | fuel + 1, cs =>
    match cs with
    | '}' :: r => some ([], r)
    | _ => do
      let r ← readKey fuel cs
      match inline r with
      | c :: r =>
        if c == '=' || c == ':' then
          let (v, r) ← readExpr fuel (inline r)
          let r := inline r
          match r, lineEnd? r with
          | _, some r =>
            let (vs, r) ← readFields fuel (lines r)
            return (v :: vs, r)
          | ',' :: r, none =>
            let (vs, r) ← readFields fuel (lines r)
            return (v :: vs, r)
          | '}' :: r, none => return ([v], r)
          | _, none => none
        else none
      | [] => none

def readKey : Nat → List Char → Option (List Char)
  | 0, _ => none
  | fuel + 1, cs =>
    match readName cs with
    | some (_, r) => some r
    | none => (readExpr fuel cs).map (·.2)

def readPieces : Nat → List Char → Option (List Piece × List Char)
  | 0, _ => none
  | fuel + 1, cs =>
    match cs with
    | [] => none
    | '"' :: r => some ([], r)
    | '\n' :: _ => none
    | '$' :: '$' :: '{' :: r => do
      let (ps, r) ← readPieces fuel r
      return (.chars ['$', '{'] :: ps, r)
    | '%' :: '%' :: '{' :: r => do
      let (ps, r) ← readPieces fuel r
      return (.chars ['%', '{'] :: ps, r)
    | '$' :: '{' :: r => do
      let (v, r) ← readExpr fuel (lines r)
      match lines r with
      | '}' :: r =>
        let (ps, r) ← readPieces fuel r
        return (.insert v :: ps, r)
      | _ => none
    | '%' :: '{' :: _ => none
    | '\\' :: r => do
      let (c, r) ← readEscape r
      let (ps, r) ← readPieces fuel r
      return (.chars [c] :: ps, r)
    | c :: r => do
      let (ps, r) ← readPieces fuel r
      return (.chars [c] :: ps, r)

end

end LandUse.Hcl
