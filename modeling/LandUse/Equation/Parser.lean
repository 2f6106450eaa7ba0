import LandUse.Equation.Expr
import LandUse.Equation.Token
import LandUse.Scalar
import LandUse.Number.Layout
import LandUse.Text.Basic

/-! Operands are taken into operations as long as the operators that follow bind at least as strong as asked for;
`^` binds to the right, and a sign binds like `^`. -/

namespace LandUse

open Text

inductive ParseCause where
  | scan (e : ScanError)
  | empty
  | unexpected (found : Token)
  | expected (what : TokenKind) (found : Token)
  | malformedLiteral (text : String)
  | unknownKeyword (name : String)
  | unknownDimension (name : String)
  | unknownFunction (name : String)
  | argumentCount (fn : Function) (count : Nat)
  | missingSubscripts (name : String) (arity got : Nat)
  | surplusSubscript (name : String) (arity : Nat)
  | selfReference (name : String)
  | dimensionAsValue (name : String)
  | unknownIdentifier (name : String)
  | notConstant (text : String)
  | badIndex (value : Float)
  | noValue (e : ApplyError)

def ParseCause.message : ParseCause → String
  | scan e => e.message
  | empty => "empty equation"
  | unexpected found => "unexpected " ++ found.text
  | expected what found => "expected " ++ what.name ++ ", found " ++ found.text
  | malformedLiteral text => "malformed literal " ++ quote text
  | unknownKeyword name => "unknown loop keyword " ++ quote name
  | unknownDimension name => "unknown dimension " ++ quote name
  | unknownFunction name => "unknown function " ++ quote name
  | argumentCount fn count => "function " ++ fn.name ++ " called with " ++ toString count ++ " arguments"
  | missingSubscripts name arity got =>
    "variable " ++ name ++ " expects " ++ toString arity ++ " dimensions, got " ++ toString got
  | surplusSubscript name arity => "variable " ++ name ++ " expects " ++ toString arity ++ " dimensions"
  | selfReference name => "equation " ++ name ++ " references itself"
  | dimensionAsValue name => "dimension " ++ name ++ " used as a value"
  | unknownIdentifier name => "unknown identifier " ++ quote name
  | notConstant text => "dimension index " ++ text ++ " is not constant"
  | badIndex value => "dimension index must be a non-negative integer, is " ++ Number.general value
  | noValue e => e.message

structure ParseError where
  offset : Int
  cause : ParseCause

namespace Parser

structure Context where
  symbols : Symbols
  self : String
  src : Bytes

structure Depth where
  loops : Nat
  calls : Nat

def fail {α : Type} (offset : Int) (cause : ParseCause) : Except ParseError α := .error ⟨offset, cause⟩

namespace Context

def isDimension (c : Context) (name : String) : Bool := name == optionsDimension || c.symbols.isDimension name

def peek (c : Context) (ts : List Token) : Token := ts.headD (Token.endAt c.src.length)

def unexpected {α : Type} (c : Context) (ts : List Token) : Except ParseError α :=
  let t := c.peek ts
  fail t.pos (.unexpected t)

def expect (c : Context) (what : TokenKind) (ts : List Token) : Except ParseError (Token × List Token) :=
  match ts with
  | t :: r => if t.kind.name == what.name then .ok (t, r) else fail t.pos (.expected what t)
  | [] => fail (c.peek []).pos (.expected what (c.peek []))

def sourceOf (c : Context) (s : Span) : String := ascii (slice c.src s.start.toNat (s.stop + 1).toNat)

def constant (c : Context) : Expr → Except ParseError Float
  | .number _ _ x => .ok x
  | .group _ arg => c.constant arg
  | .negate span _ arg => do
    let x ← c.constant arg
    match Opcode.apply .neg [x] with
    | .ok v => .ok v
    | .error e => fail span.start (.noValue e)
  | .binary span op _ lhs rhs => do
    let x ← c.constant lhs
    let y ← c.constant rhs
    match op.opcode.apply [x, y] with
    | .ok v => .ok v
    | .error e => fail span.start (.noValue e)
  | e => fail e.span.start (.notConstant (trim (c.sourceOf e.span)))

def constantIndex (c : Context) (e : Expr) : Except ParseError Nat := do
  let v ← c.constant e
  if v < 0 || !(Number.isIntegral v || v.isInf) then fail e.span.start (.badIndex v)
  else return (Number.truncate v).toNat

def namedSubscript (c : Context) (t : Token) (span : Span) : Except ParseError Subscript :=
  if c.isDimension t.lexeme then .ok (.dim span t.lexeme)
  else match c.symbols.optionIndex? t.lexeme with
    | some i => .ok (.option span t.lexeme i)
    | none => fail t.pos (.unknownDimension t.lexeme)

end Context

def keptExpr : Expr → Option Expr
  | .number .. => none
  | e => some e

def binaryExpr (op : Operator) (t : Token) (lhs rhs : Expr) : Expr :=
  .binary ⟨lhs.span.start, rhs.span.stop⟩ op ⟨t.pos, t.last⟩ lhs rhs

def rightPrecedence (op : Operator) : Nat :=
  if op.rightAssociative then op.precedence else op.precedence + 1

mutual

def expression (c : Context) : Nat → Depth → Nat → List Token → Except ParseError (Expr × List Token)
  | 0, _, _, ts => c.unexpected ts
  | fuel + 1, d, least, ts => do
    let (lhs, ts) ← signed c fuel d ts
    climb c fuel d least lhs ts

def climb (c : Context) : Nat → Depth → Nat → Expr → List Token → Except ParseError (Expr × List Token)
  | 0, _, _, _, ts => c.unexpected ts
  | fuel + 1, d, least, lhs, ts =>
    match ts with
    | ⟨.operator op, lexeme, pos⟩ :: r =>
      if op.precedence < least then .ok (lhs, ts)
      else do
        let (rhs, r) ← expression c fuel d (rightPrecedence op) r
        climb c fuel d least (binaryExpr op ⟨.operator op, lexeme, pos⟩ lhs rhs) r
    | _ => .ok (lhs, ts)

def signed (c : Context) : Nat → Depth → List Token → Except ParseError (Expr × List Token)
  | 0, _, ts => c.unexpected ts
  | fuel + 1, d, ts =>
    match ts with
    | ⟨.operator .minus, lexeme, pos⟩ :: r => do
      let (arg, r) ← expression c fuel d Operator.signPrecedence r
      return (.negate ⟨pos, arg.span.stop⟩ ⟨pos, Token.last ⟨.operator .minus, lexeme, pos⟩⟩ arg, r)
    | ⟨.operator .plus, _, _⟩ :: r => expression c fuel d Operator.signPrecedence r
    | _ => primary c fuel d ts

def primary (c : Context) : Nat → Depth → List Token → Except ParseError (Expr × List Token)
  | 0, _, ts => c.unexpected ts
  | fuel + 1, d, ts =>
    match ts with
    | ⟨.number x, lexeme, pos⟩ :: r =>
      let t : Token := ⟨.number x, lexeme, pos⟩
      let n := c.peek r
      let adjacent := match n.kind with
        | .number _ | .ident => n.pos == t.last + 1
        | _ => false
      if adjacent then fail pos (.malformedLiteral (lexeme ++ n.lexeme))
      else .ok (.number ⟨pos, t.last⟩ lexeme x, r)
    | ⟨.lparen, _, pos⟩ :: r => do
      let (inner, r) ← expression c fuel d 0 r
      let (close, r) ← c.expect .rparen r
      return (.group ⟨pos, close.pos⟩ inner, r)
    | ⟨.ident, name, pos⟩ :: ⟨.lbrace, _, _⟩ :: r => loop c fuel d ⟨.ident, name, pos⟩ r
    | ⟨.ident, name, pos⟩ :: ⟨.lparen, _, start⟩ :: r => call c fuel d ⟨.ident, name, pos⟩ start r
    | ⟨.ident, name, pos⟩ :: r => reference c fuel d ⟨.ident, name, pos⟩ r
    | _ => c.unexpected ts

def loop (c : Context) : Nat → Depth → Token → List Token → Except ParseError (Expr × List Token)
  | 0, _, _, ts => c.unexpected ts
  | fuel + 1, d, kw, ts =>
    match Keyword.ofName? kw.lexeme with
    | none => fail kw.pos (.unknownKeyword kw.lexeme)
    | some keyword => do
      let (dim, ts) ← c.expect .ident ts
      if !c.isDimension dim.lexeme then fail dim.pos (.unknownDimension dim.lexeme)
      else
        let (_, ts) ← c.expect .rbrace ts
        let (lp, ts) ← c.expect .lparen ts
        let (body, ts) ← expression c fuel { d with loops := d.loops + 1 } 0 ts
        let (rp, ts) ← c.expect .rparen ts
        return (.loop ⟨kw.pos, rp.pos⟩ keyword dim.lexeme ⟨dim.pos, dim.last⟩ d.loops
          ⟨lp.pos + 1, rp.pos - 1⟩ body, ts)

def call (c : Context) : Nat → Depth → Token → Nat → List Token → Except ParseError (Expr × List Token)
  | 0, _, _, _, ts => c.unexpected ts
  | fuel + 1, d, name, start, ts =>
    match Function.ofName? name.lexeme with
    | none => fail name.pos (.unknownFunction name.lexeme)
    | some fn => do
      let ((args, seps), ts) ← match ts with
        | ⟨.rparen, _, _⟩ :: _ => Except.ok (([], []), ts)
        | _ => arguments c fuel { d with calls := d.calls + 1 } ts
      let (rp, ts) ← c.expect .rparen ts
      if !fn.accepts args.length then fail name.pos (.argumentCount fn args.length)
      else
        return (.call ⟨name.pos, rp.pos⟩ fn d.calls ⟨start + 1, rp.pos - 1⟩ seps args, ts)

def arguments (c : Context) : Nat → Depth → List Token → Except ParseError ((List Expr × List Int) × List Token)
  | 0, _, ts => c.unexpected ts
  | fuel + 1, d, ts => do
    let (arg, ts) ← expression c fuel d 0 ts
    match ts with
    | ⟨.comma, _, pos⟩ :: r =>
      let ((args, seps), r) ← arguments c fuel d r
      return ((arg :: args, (pos : Int) :: seps), r)
    | _ => return (([arg], []), ts)

def reference (c : Context) : Nat → Depth → Token → List Token → Except ParseError (Expr × List Token)
  | 0, _, _, ts => c.unexpected ts
  | fuel + 1, d, id, ts =>
    let name := id.lexeme
    match c.symbols.variableArity? name with
    | some arity => do
      let ((subs, stop), ts) ← exactSubscripts c fuel d id arity 0 id.last ts
      match ts with
      | ⟨.lbracket, _, pos⟩ :: _ => fail pos (.surplusSubscript name arity)
      | _ => return (.param ⟨id.pos, stop⟩ name true subs, ts)
    | none =>
      if c.symbols.isParameter name then do
        let ((subs, stop), ts) ← subscripts c fuel d id.last ts
        return (.param ⟨id.pos, stop⟩ name false subs, ts)
      else if c.symbols.isEquation name then
        if name == c.self then fail id.pos (.selfReference name)
        else .ok (.equation ⟨id.pos, id.last⟩ name, ts)
      else if c.isDimension name then fail id.pos (.dimensionAsValue name)
      else fail id.pos (.unknownIdentifier name)

def exactSubscripts (c : Context) :
    Nat → Depth → Token → Nat → Nat → Int → List Token → Except ParseError ((List Subscript × Int) × List Token)
  | 0, _, _, _, _, _, ts => c.unexpected ts
  | fuel + 1, d, id, arity, got, stop, ts =>
    if arity ≤ got then .ok (([], stop), ts)
    else match ts with
      | ⟨.lbracket, _, pos⟩ :: r => do
        let ((sub, close), r) ← subscript c fuel d pos r
        let ((subs, stop), r) ← exactSubscripts c fuel d id arity (got + 1) close r
        return ((sub :: subs, stop), r)
      | _ => fail id.pos (.missingSubscripts id.lexeme arity got)

def subscripts (c : Context) : Nat → Depth → Int → List Token → Except ParseError ((List Subscript × Int) × List Token)
  | 0, _, _, ts => c.unexpected ts
  | fuel + 1, d, stop, ts =>
    match ts with
    | ⟨.lbracket, _, pos⟩ :: r => do
      let ((sub, close), r) ← subscript c fuel d pos r
      let ((subs, stop), r) ← subscripts c fuel d close r
      return ((sub :: subs, stop), r)
    | _ => .ok (([], stop), ts)

def subscript (c : Context) : Nat → Depth → Nat → List Token → Except ParseError ((Subscript × Int) × List Token)
  | 0, _, _, ts => c.unexpected ts
  | fuel + 1, d, start, ts =>
    match ts with
    | ⟨.ident, name, pos⟩ :: ⟨.rbracket, _, close⟩ :: r => do
      let sub ← c.namedSubscript ⟨.ident, name, pos⟩ ⟨start + 1, close - 1⟩
      return ((sub, (close : Int)), r)
    | _ => do
      let (e, ts) ← expression c fuel d 0 ts
      let i ← c.constantIndex e
      let (close, ts) ← c.expect .rbracket ts
      return ((.index ⟨start + 1, close.pos - 1⟩ i (keptExpr e), (close.pos : Int)), ts)

end

def fuelFor (ts : List Token) : Nat := 6 * (ts.length + 2)

def equation (c : Context) (ts : List Token) : Except ParseError Expr := do
  let (e, rest) ← expression c (fuelFor ts) ⟨0, 0⟩ 0 ts
  if rest.isEmpty then return e else c.unexpected rest

end Parser

def parseBytes (symbols : Symbols) (self : String) (src : Text.Bytes) : Except ParseError Expr :=
  match Token.scan src with
  | .error (pos, e) => .error ⟨pos, .scan e⟩
  | .ok [] => .error ⟨0, .empty⟩
  | .ok ts => Parser.equation ⟨symbols, self, src⟩ ts

def parse (symbols : Symbols) (self : String) (src : String) : Except ParseError Expr :=
  parseBytes symbols self (Text.bytes src)

end LandUse
