import LandUse.Language
import LandUse.Number.Reader
import LandUse.Text.Quoted

/-! Every position takes the longest token that starts there; blanks separate and are skipped. -/

namespace LandUse

open Text Alphabet

inductive TokenKind where
  | ident
  | number (value : Float)
  | operator (op : Operator)
  | lparen | rparen | lbrace | rbrace | lbracket | rbracket | comma
  | eof

structure Token where
  kind : TokenKind
  lexeme : String
  pos : Nat

namespace TokenKind

def name : TokenKind → String
  | ident => "identifier"
  | number _ => "number"
  | operator _ => "operator"
  | lparen => "'('"
  | rparen => "')'"
  | lbrace => "'\x7b'"
  | rbrace => "'\x7d'"
  | lbracket => "'['"
  | rbracket => "']'"
  | comma => "','"
  | eof => "end of equation"

end TokenKind

namespace Token

def last (t : Token) : Nat := t.pos + t.lexeme.length - 1

def text (t : Token) : String :=
  match t.kind with
  | .eof => t.kind.name
  | k => k.name ++ " " ++ quote t.lexeme

end Token

inductive ScanError where
  | unidentified (excerpt : Bytes)
  | malformedNumber (lexeme : String)
  | unknownOperator (run : String)

def ScanError.message : ScanError → String
  | unidentified excerpt => "unidentified token " ++ quoteBytes excerpt
  | malformedNumber lexeme => "malformed number " ++ quote lexeme
  | unknownOperator run => "unknown operator " ++ quote run

namespace Token

def exponentLength : Bytes → Nat
  | b :: r =>
    if b == 101 || b == 69 then
      let sign := match r with
        | s :: _ => if s == 43 || s == 45 then 1 else 0
        | [] => 0
      let digits := ((r.drop sign).takeWhile isDigitByte).length
      if digits == 0 then 0 else 1 + sign + digits
    else 0
  | [] => 0

def numberLength (bs : Bytes) : Nat :=
  let whole := (bs.takeWhile isDigitByte).length
  let point := match bs.drop whole with
    | b :: r => if b == 46 then 1 + (r.takeWhile isDigitByte).length else 0
    | [] => 0
  if whole == 0 && point < 2 then 0
  else whole + point + exponentLength (bs.drop (whole + point))

/-- A point with nothing behind it in front of an exponent counts as one digit. -/
def numeralParts (cs : List Char) : List Char × List Char × Option (List Char) :=
  let whole := cs.takeWhile Number.isDigit
  let (frac, rest) := match cs.dropWhile Number.isDigit with
    | '.' :: r => (r.takeWhile Number.isDigit, r.dropWhile Number.isDigit)
    | r => ([], r)
  match rest with
  | _ :: e => (whole, (if frac.isEmpty && cs.contains '.' then ['0'] else frac), some e)
  | [] => (whole, frac, none)

def numberValue? (lexeme : String) : Option Float :=
  let fits (e : Int) : Bool := Int32.minValue.toInt ≤ e && e ≤ Int32.maxValue.toInt
  let (whole, frac, exponent) := numeralParts lexeme.toList
  let e? := match exponent with
    | none => some 0
    | some e => Number.readInt (String.ofList e)
  match e? with
  | none => none
  | some e =>
    if fits e && fits (e - frac.length) then
      some (Number.ofDecimal false (Number.digitsValue 10 (whole ++ frac)) (e - frac.length))
    else none

def operator? (bs : Bytes) : Option (Operator × Nat) :=
  match Operator.ofSymbol? (ascii (bs.take 2)), Operator.ofSymbol? (ascii (bs.take 1)) with
  | some op, _ => some (op, op.symbol.length)
  | none, some op => some (op, 1)
  | none, none => none

def bracket? : UInt8 → Option TokenKind
  | 40 => some .lparen
  | 41 => some .rparen
  | 123 => some .lbrace
  | 125 => some .rbrace
  | 91 => some .lbracket
  | 93 => some .rbracket
  | 44 => some .comma
  | _ => none

inductive Step where
  | blanks (length : Nat)
  | token (kind : TokenKind) (length : Nat)
  | error (e : ScanError)

def step (b : UInt8) (r : Bytes) : Step :=
  let bs := b :: r
  if isBlankByte b then .blanks (bs.takeWhile isBlankByte).length
  else if isLetterByte b then
    .token .ident (bs.takeWhile fun b => isLetterByte b || isDigitByte b).length
  else if isOperatorByte b then
    match operator? bs with
    | some (op, n) => .token (.operator op) n
    | none => .error (.unknownOperator (ascii (bs.takeWhile isOperatorByte)))
  else match bracket? b with
    | some k => .token k 1
    | none =>
      let n := numberLength bs
      if n == 0 then .error (.unidentified (bs.take 10))
      else
        let lexeme := ascii (bs.take n)
        match numberValue? lexeme with
        | some x => .token (.number x) n
        | none => .error (.malformedNumber lexeme)

def scanFrom : Nat → Nat → Bytes → Except (Nat × ScanError) (List Token)
  | 0, _, _ => .ok []
  | _ + 1, _, [] => .ok []
  | fuel + 1, pos, b :: r =>
    match step b r with
    | .blanks n => scanFrom fuel (pos + n) ((b :: r).drop n)
    | .token kind n => do
      let rest ← scanFrom fuel (pos + n) ((b :: r).drop n)
      return ⟨kind, ascii ((b :: r).take n), pos⟩ :: rest
    | .error e => .error (pos, e)

def scan (src : Bytes) : Except (Nat × ScanError) (List Token) := scanFrom src.length 0 src

def endAt (pos : Nat) : Token := ⟨.eof, "", pos⟩

def tokenize (src : Bytes) : Except (Nat × ScanError) (List Token) := do
  return (← scan src) ++ [endAt src.length]

end Token

end LandUse
