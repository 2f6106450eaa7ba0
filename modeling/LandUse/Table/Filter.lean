import LandUse.Table.Affinity
import LandUse.Table.Order

/-! Comparisons joined by `AND`; one with an empty cell does not hold. -/

namespace LandUse.SqlText

def enclose (quote : Char) (cs : List Char) : List Char :=
  quote :: (cs.flatMap fun c => if c = quote then [quote, quote] else [c]) ++ [quote]

def quoteName (name : String) : String := String.ofList (enclose '"' name.toList)

def quoteText (s : String) : String := String.ofList (enclose '\'' s.toList)

def isWritable (s : String) : Bool := s.toList.all (·.toNat != 0)

def quoteNames (names : List String) : String := ", ".intercalate (names.map quoteName)

def readEnclosed (quote : Char) : List Char → Option (List Char × List Char)
  | [] => none
  | [c] => if c = quote then some ([], []) else none
  | c :: d :: r =>
    if c = quote then
      if d = quote then (readEnclosed quote r).map fun (s, rest) => (quote :: s, rest)
      else some ([], d :: r)
    else (readEnclosed quote (d :: r)).map fun (s, rest) => (c :: s, rest)

end LandUse.SqlText

namespace LandUse

namespace Filter

inductive Relation where
  | eq | ne | lt | le | gt | ge

inductive Operand where
  | column (name : String)
  | literal (v : Value)

inductive Condition where
  | compare (lhs : Operand) (rel : Relation) (rhs : Operand)
  | both (a b : Condition)

inductive Token where
  | quoted (name : String)
  | word (s : String)
  | text (s : String)
  | number (v : Value) (opposite : Option Value)
  | relation (r : Relation)
  | minus
  | opening
  | closing

def isWordStart (c : Char) : Bool := c.isAlpha || c == '_' || 0x80 ≤ c.toNat

def isWordRest (c : Char) : Bool := isWordStart c || Number.isDigit c || c == '$'

def isDigitOrBar (c : Char) : Bool := Number.isDigit c || c == '_'

def spanNumber (cs : List Char) : List Char × List Char :=
  let whole := cs.takeWhile isDigitOrBar
  let (frac, rest) := match cs.dropWhile isDigitOrBar with
    | '.' :: r => ('.' :: r.takeWhile isDigitOrBar, r.dropWhile isDigitOrBar)
    | r => ([], r)
  match rest with
  | c :: r =>
    let sign := r.take (if r.head?.any fun d => d == '+' || d == '-' then 1 else 0)
    let ds := r.drop sign.length
    if (c == 'e' || c == 'E') && ds.head?.any Number.isDigit then
      (whole ++ frac ++ c :: sign ++ ds.takeWhile isDigitOrBar, ds.dropWhile isDigitOrBar)
    else (whole ++ frac, rest)
  | [] => (whole ++ frac, [])

def readDecimal (cs : List Char) : Option (Token × List Char) :=
  let (text, rest) := spanNumber cs
  let (n, tail) := Numeral.split (text.filter (· != '_'))
  if Number.underscoresAllowed Number.isDigit .other text && !n.digits.isEmpty && tail.isEmpty then
    some (.number (Affinity.ofNumeral n) (some (Affinity.ofNumeral { n with negative := true })), rest)
  else none

def readHexadecimal (body : List Char) : Option (Token × List Char) :=
  let isDigit (c : Char) : Bool := Number.isHexDigit c || c == '_'
  let text := body.takeWhile isDigit
  let n := Number.digitsValue 16 (text.filter (· != '_'))
  if Number.underscoresAllowed Number.isHexDigit .other text && n < Number.twoTo 64 then
    let i := Int64.ofNat n
    some (.number (.int i) ((Affinity.ofInt? (-i.toInt))), body.dropWhile isDigit)
  else none

def readNumber (cs : List Char) : Option (Token × List Char) :=
  let token? := match Number.hexBody? cs with
    | some (c :: r) => if Number.isHexDigit c then readHexadecimal (c :: r) else readDecimal cs
    | _ => readDecimal cs
  match token? with
  | some (t, rest) => if rest.head?.any isWordRest then none else some (t, rest)
  | none => none

def readToken : List Char → Option (Token × List Char)
  | '"' :: r => (SqlText.readEnclosed '"' r).map fun (s, r) => (.quoted (String.ofList s), r)
  | '\'' :: r => (SqlText.readEnclosed '\'' r).map fun (s, r) => (.text (String.ofList s), r)
  | '(' :: r => some (.opening, r)
  | ')' :: r => some (.closing, r)
  | '-' :: r => some (.minus, r)
  | '<' :: '=' :: r => some (.relation .le, r)
  | '<' :: '>' :: r => some (.relation .ne, r)
  | '<' :: r => some (.relation .lt, r)
  | '>' :: '=' :: r => some (.relation .ge, r)
  | '>' :: r => some (.relation .gt, r)
  | '!' :: '=' :: r => some (.relation .ne, r)
  | '=' :: '=' :: r => some (.relation .eq, r)
  | '=' :: r => some (.relation .eq, r)
  | c :: r =>
    if isWordStart c then some (.word (String.ofList (c :: r.takeWhile isWordRest)), r.dropWhile isWordRest)
    else if Number.isDigit c || c == '.' then readNumber (c :: r)
    else none
  | [] => none

def dropBlanks (cs : List Char) : List Char :=
  match cs with
  | c :: _ => if c.toNat == 11 then cs else cs.dropWhile Affinity.isBlank
  | [] => []

def readTokens : Nat → List Char → Option (List Token)
  | 0, _ => none
  | fuel + 1, cs =>
    match dropBlanks cs with
    | [] => some []
    | r => do
      let (t, r) ← readToken r
      let ts ← readTokens fuel r
      return t :: ts

def isAnd (s : String) : Bool := s.toList.map Char.toUpper == ['A', 'N', 'D']

def readOperand : List Token → Option (Operand × List Token)
  | .quoted name :: r => some (.column name, r)
  | .word name :: r => if isAnd name then none else some (.column name, r)
  | .text s :: r => some (.literal (.text s), r)
  | .number v _ :: r => some (.literal v, r)
  | .minus :: .number _ (some v) :: r => some (.literal v, r)
  | _ => none

mutual

def readCondition : Nat → List Token → Option (Condition × List Token)
  | 0, _ => none
  | fuel + 1, ts => do
    let (c, r) ← readTerm fuel ts
    match r with
    | .word w :: r' =>
      if isAnd w then
        let (d, r) ← readCondition fuel r'
        return (.both c d, r)
      else return (c, r)
    | _ => return (c, r)

def readTerm : Nat → List Token → Option (Condition × List Token)
  | 0, _ => none
  | fuel + 1, ts =>
    match ts with
    | .opening :: r => do
      let (c, r) ← readCondition fuel r
      match r with
      | .closing :: r => return (c, r)
      | _ => none
    | _ => do
      let (lhs, r) ← readOperand ts
      match r with
      | .relation rel :: r =>
        let (rhs, r) ← readOperand r
        return (.compare lhs rel rhs, r)
      | _ => none

end

def read? (s : String) : Option Condition := do
  let ts ← readTokens (s.length + 1) (s.toList.dropWhile Affinity.isBlank)
  let (c, rest) ← readCondition (2 * ts.length + 2) ts
  if rest.isEmpty && SqlText.isWritable s then some c else none

def Relation.holds : Relation → Ordering → Bool
  | .eq, o => o == .eq
  | .ne, o => o != .eq
  | .lt, o => o == .lt
  | .le, o => o != .gt
  | .gt, o => o == .gt
  | .ge, o => o != .lt

def adapt (type? : Option ValueType) (v : Value) : Value :=
  match type? with
  | some .int | some .double =>
    match v with
    | .text s => Affinity.toNumeric (.text s)
    | v => v
  | some _ => Affinity.toText v
  | none => v

abbrev Columns := String → Option (Nat × ValueType)

def Operand.type? (cols : Columns) : Operand → Option ValueType
  | .column name => (cols name).map (·.2)
  | .literal _ => none

def Operand.cell (cols : Columns) (other : Option ValueType) (row : List Cell) : Operand → Cell
  | .column name =>
    match cols name with
    | some (i, type) =>
      let c := (row[i]?).getD none
      match type, other with
      | .int, _ | .double, _ => c
      | _, some .int | _, some .double => c.map Affinity.toNumeric
      | _, _ => c
    | none => none
  | .literal v => some (adapt other v)

def Operand.known (cols : Columns) : Operand → Bool
  | .column name => (cols name).isSome
  | .literal _ => true

def Condition.known (cols : Columns) : Condition → Bool
  | .compare lhs _ rhs => lhs.known cols && rhs.known cols
  | .both a b => a.known cols && b.known cols

def Condition.holds (cols : Columns) (row : List Cell) : Condition → Bool
  | .compare lhs rel rhs =>
    match lhs.cell cols (rhs.type? cols) row, rhs.cell cols (lhs.type? cols) row with
    | some v, some w => rel.holds (v.order w)
    | _, _ => false
  | .both a b => a.holds cols row && b.holds cols row

end Filter

end LandUse
