import LandUse.Number.Layout
import LandUse.Number.Reader

namespace LandUse

inductive Json where
  | null
  | bool (b : Bool)
  | number (x : Float)
  | text (s : String)
  | list (items : List Json)
  | object (fields : List (String × Json))

namespace Json

def isBlank (c : Char) : Bool := c == ' ' || c == '\t' || c == '\r' || c == '\n'

def skip (cs : List Char) : List Char := cs.dropWhile isBlank

def readUnit : List Char → Option (Nat × List Char)
  | a :: b :: c :: d :: r =>
    if [a, b, c, d].all Number.isHexDigit then some (Number.digitsValue 16 [a, b, c, d], r) else none
  | _ => none

def readEscapedUnit (cs : List Char) : Option (Char × List Char) :=
  match readUnit cs with
  | none => none
  | some (u, r) =>
    if 0xD800 ≤ u && u < 0xE000 then
      match r with
      | '\\' :: 'u' :: r' =>
        match readUnit r' with
        | some (v, r'') =>
          if u < 0xDC00 && 0xDC00 ≤ v && v < 0xE000 then
            some (Char.ofNat (0x10000 + (u - 0xD800) * 0x400 + (v - 0xDC00)), r'')
          else some (Char.ofNat 0xFFFD, r)
        | none => none
      | _ => some (Char.ofNat 0xFFFD, r)
    else some (Char.ofNat u, r)

def simpleEscape? : Char → Option Char
  | '"' => some '"'
  | '\\' => some '\\'
  | '/' => some '/'
  | 'b' => some (Char.ofNat 8)
  | 'f' => some (Char.ofNat 12)
  | 'n' => some '\n'
  | 'r' => some '\r'
  | 't' => some '\t'
  | _ => none

def readString : Nat → List Char → Option (List Char × List Char)
  | 0, _ => none
  | _ + 1, [] => none
  | _ + 1, '"' :: r => some ([], r)
  | fuel + 1, '\\' :: 'u' :: r => do
    let (c, r) ← readEscapedUnit r
    let (s, r) ← readString fuel r
    return (c :: s, r)
  | fuel + 1, '\\' :: e :: r => do
    let c ← simpleEscape? e
    let (s, r) ← readString fuel r
    return (c :: s, r)
  | fuel + 1, c :: r =>
    if c.toNat < 0x20 || c == '\\' then none
    else do
      let (s, r) ← readString fuel r
      return (c :: s, r)

def readDigits (cs : List Char) : Option (List Char × List Char) :=
  let ds := cs.takeWhile Number.isDigit
  if ds.isEmpty then none else some (ds, cs.dropWhile Number.isDigit)

def readFraction : List Char → Option (List Char × List Char)
  | '.' :: r => do
    let (ds, r) ← readDigits r
    return ('.' :: ds, r)
  | r => some ([], r)

def readExponent : List Char → Option (List Char × List Char)
  | c :: r =>
    if c == 'e' || c == 'E' then do
      let (sign, r) := match r with
        | '+' :: r => (['+'], r)
        | '-' :: r => (['-'], r)
        | r => ([], r)
      let (ds, r) ← readDigits r
      return (c :: (sign ++ ds), r)
    else some ([], c :: r)
  | [] => some ([], [])

def readNumber (cs : List Char) : Option (Json × List Char) := do
  let (sign, r) := match cs with
    | '-' :: r => (['-'], r)
    | r => ([], r)
  let (whole, r) ← match r with
    | '0' :: r => some (['0'], r)
    | r => readDigits r
  let (frac, r) ← readFraction r
  let (exponent, r) ← readExponent r
  let x ← Number.readFloat (String.ofList (sign ++ whole ++ frac ++ exponent))
  return (.number x, r)

def word? (word : String) (value : Json) (cs : List Char) : Option (Json × List Char) :=
  if word.toList.isPrefixOf cs then some (value, cs.drop word.length) else none

mutual

def readValue : Nat → List Char → Option (Json × List Char)
  | 0, _ => none
  | _ + 1, [] => none
  | fuel + 1, c :: r =>
    if c == '{' then
      match skip r with
      | '}' :: r => some (.object [], r)
      | r => do
        let (fields, r) ← readFields fuel r
        return (.object fields, r)
    else if c == '[' then
      match skip r with
      | ']' :: r => some (.list [], r)
      | r => do
        let (items, r) ← readItems fuel r
        return (.list items, r)
    else if c == '"' then do
      let (s, r) ← readString (r.length + 1) r
      return (.text (String.ofList s), r)
    else if c == 't' then word? "true" (.bool true) (c :: r)
    else if c == 'f' then word? "false" (.bool false) (c :: r)
    else if c == 'n' then word? "null" .null (c :: r)
    else readNumber (c :: r)

def readItems : Nat → List Char → Option (List Json × List Char)
  | 0, _ => none
  | fuel + 1, cs => do
    let (item, r) ← readValue fuel cs
    match skip r with
    | ',' :: r =>
      let (items, r) ← readItems fuel (skip r)
      return (item :: items, r)
    | ']' :: r => return ([item], r)
    | _ => none

def readFields : Nat → List Char → Option (List (String × Json) × List Char)
  | 0, _ => none
  | fuel + 1, cs =>
    match cs with
    | '"' :: r => do
      let (name, r) ← readString (r.length + 1) r
      match skip r with
      | ':' :: r =>
        let (value, r) ← readValue fuel (skip r)
        match skip r with
        | ',' :: r =>
          let (fields, r) ← readFields fuel (skip r)
          return ((String.ofList name, value) :: fields, r)
        | '}' :: r => return ([(String.ofList name, value)], r)
        | _ => none
      | _ => none
    | _ => none

end

def read? (s : String) : Option Json := do
  let cs := skip s.toList
  let (value, r) ← readValue (2 * cs.length + 2) cs
  if (skip r).isEmpty then some value else none

end Json

end LandUse
