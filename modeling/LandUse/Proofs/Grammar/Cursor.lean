import LandUse.Equation.Parser

/-! The parser as a machine with a cursor and a stack of scopes, where a mistake with either is a stop of its own. -/

namespace LandUse.Cursor

open LandUse.Parser

inductive Scope where
  | loop | call | subscript | group
deriving DecidableEq

structure State where
  pos : Nat
  scopes : List Scope

inductive Stop where
  | refused (e : ParseError)
  | outOfRange
  | unbalanced
  | endless

abbrev Reader := EStateM Stop State

def refuse {α : Type} (offset : Int) (cause : ParseCause) : Reader α := throw (.refused ⟨offset, cause⟩)

def accept {α : Type} : Except ParseError α → Reader α
  | .ok a => pure a
  | .error e => throw (.refused e)

section

variable (c : Context) (ts : List Token)

def tokenAt (i : Nat) : Reader Token :=
  match (ts ++ [Token.endAt c.src.length])[i]? with
  | some t => pure t
  | none => throw .outOfRange

def peek : Reader Token := do
  let s ← get
  tokenAt c ts s.pos

def peekBehind : Reader Token := do
  let s ← get
  tokenAt c ts (min (s.pos + 1) ts.length)

def next : Reader Token := do
  let t ← peek c ts
  match t.kind with
  | .eof => return t
  | _ =>
    modify fun s => { s with pos := s.pos + 1 }
    return t

def expect (what : TokenKind) : Reader Token := do
  let t ← next c ts
  if t.kind.name == what.name then return t else refuse t.pos (.expected what t)

end

def openScope (k : Scope) : Reader Unit := modify fun s => { s with scopes := k :: s.scopes }

def closeScope (k : Scope) : Reader Unit := do
  let s ← get
  match s.scopes with
  | top :: rest => if top = k then set { s with scopes := rest } else throw .unbalanced
  | [] => throw .unbalanced

def level (k : Scope) : Reader Nat := do
  let s ← get
  return s.scopes.count k

def sourceOf (c : Context) (s : Span) : Reader String :=
  if 0 ≤ s.start ∧ s.start ≤ s.stop + 1 ∧ s.stop + 1 ≤ c.src.length then return c.sourceOf s
  else throw .outOfRange

def constant (c : Context) : Expr → Reader Float
  | .number _ _ x => return x
  | .group _ arg => constant c arg
  | .negate span _ arg => do
    let x ← constant c arg
    match Opcode.apply .neg [x] with
    | .ok v => return v
    | .error e => refuse span.start (.noValue e)
  | .binary span op _ lhs rhs => do
    let x ← constant c lhs
    let y ← constant c rhs
    match op.opcode.apply [x, y] with
    | .ok v => return v
    | .error e => refuse span.start (.noValue e)
  | e => do
    let text ← sourceOf c e.span
    refuse e.span.start (.notConstant (Text.trim text))

def constantIndex (c : Context) (e : Expr) : Reader Nat := do
  let v ← constant c e
  if v < 0 || !(Number.isIntegral v || v.isInf) then refuse e.span.start (.badIndex v)
  else return (Number.truncate v).toNat

def adjacent (t n : Token) : Bool :=
  match n.kind with
  | .number _ | .ident => n.pos == t.last + 1
  | _ => false

section

variable (c : Context) (ts : List Token)

def unlessClosed (arguments : Reader (List Expr × List Int)) : Reader (List Expr × List Int) := do
  let t ← peek c ts
  match t.kind with
  | .rparen => return ([], [])
  | _ => arguments

mutual

def expression : Nat → Nat → Reader Expr
  | 0, _ => throw .endless
  | fuel + 1, least => do
    let lhs ← signed fuel
    climb fuel least lhs

def climb : Nat → Nat → Expr → Reader Expr
  | 0, _, _ => throw .endless
  | fuel + 1, least, lhs => do
    let t ← peek c ts
    match t.kind with
    | .operator op =>
      if op.precedence < least then return lhs
      else
        let _ ← next c ts
        let rhs ← expression fuel (rightPrecedence op)
        climb fuel least (binaryExpr op t lhs rhs)
    | _ => return lhs

def signed : Nat → Reader Expr
  | 0 => throw .endless
  | fuel + 1 => do
    let t ← peek c ts
    match t.kind with
    | .operator .minus =>
      let _ ← next c ts
      let arg ← expression fuel Operator.signPrecedence
      return .negate ⟨t.pos, arg.span.stop⟩ ⟨t.pos, t.last⟩ arg
    | .operator .plus =>
      let _ ← next c ts
      expression fuel Operator.signPrecedence
    | _ => primary fuel

def primary : Nat → Reader Expr
  | 0 => throw .endless
  | fuel + 1 => do
    let t ← next c ts
    match t.kind with
    | .number x =>
      let n ← peek c ts
      if adjacent t n then refuse t.pos (.malformedLiteral (t.lexeme ++ n.lexeme))
      else return .number ⟨t.pos, t.last⟩ t.lexeme x
    | .lparen =>
      openScope .group
      let inner ← expression fuel 0
      let right ← expect c ts .rparen
      closeScope .group
      return .group ⟨t.pos, right.pos⟩ inner
    | .ident =>
      let n ← peek c ts
      match n.kind with
      | .lbrace => loop fuel t
      | .lparen => call fuel t
      | _ => reference fuel t
    | _ => refuse t.pos (.unexpected t)

def loop : Nat → Token → Reader Expr
  | 0, _ => throw .endless
  | fuel + 1, name =>
    match Keyword.ofName? name.lexeme with
    | none => refuse name.pos (.unknownKeyword name.lexeme)
    | some keyword => do
      let _ ← next c ts
      let dim ← expect c ts .ident
      if !c.isDimension dim.lexeme then refuse dim.pos (.unknownDimension dim.lexeme)
      else
        let _ ← expect c ts .rbrace
        let left ← expect c ts .lparen
        let around ← level .loop
        openScope .loop
        let body ← expression fuel 0
        let right ← expect c ts .rparen
        closeScope .loop
        return .loop ⟨name.pos, right.pos⟩ keyword dim.lexeme ⟨dim.pos, dim.last⟩ around
          ⟨left.pos + 1, right.pos - 1⟩ body

def call : Nat → Token → Reader Expr
  | 0, _ => throw .endless
  | fuel + 1, name =>
    match Function.ofName? name.lexeme with
    | none => refuse name.pos (.unknownFunction name.lexeme)
    | some fn => do
      let left ← next c ts
      let around ← level .call
      openScope .call
      let (args, seps) ← unlessClosed c ts (arguments fuel)
      let right ← expect c ts .rparen
      closeScope .call
      if !fn.accepts args.length then refuse name.pos (.argumentCount fn args.length)
      else
        return .call ⟨name.pos, right.pos⟩ fn around ⟨left.pos + 1, right.pos - 1⟩ seps args

def arguments : Nat → Reader (List Expr × List Int)
  | 0 => throw .endless
  | fuel + 1 => do
    let arg ← expression fuel 0
    let t ← peek c ts
    match t.kind with
    | .comma =>
      let comma ← next c ts
      let (args, seps) ← arguments fuel
      return (arg :: args, (comma.pos : Int) :: seps)
    | _ => return ([arg], [])

def reference : Nat → Token → Reader Expr
  | 0, _ => throw .endless
  | fuel + 1, id =>
    match c.symbols.variableArity? id.lexeme with
    | some arity => do
      let (subs, stop) ← exactSubscripts fuel id arity 0 id.last
      let t ← peek c ts
      match t.kind with
      | .lbracket => refuse t.pos (.surplusSubscript id.lexeme arity)
      | _ => return .param ⟨id.pos, stop⟩ id.lexeme true subs
    | none =>
      if c.symbols.isParameter id.lexeme then do
        let (subs, stop) ← subscripts fuel id.last
        return .param ⟨id.pos, stop⟩ id.lexeme false subs
      else if c.symbols.isEquation id.lexeme then
        if id.lexeme == c.self then refuse id.pos (.selfReference id.lexeme)
        else return .equation ⟨id.pos, id.last⟩ id.lexeme
      else if c.isDimension id.lexeme then refuse id.pos (.dimensionAsValue id.lexeme)
      else refuse id.pos (.unknownIdentifier id.lexeme)

def exactSubscripts : Nat → Token → Nat → Nat → Int → Reader (List Subscript × Int)
  | 0, _, _, _, _ => throw .endless
  | fuel + 1, id, arity, got, stop =>
    if arity ≤ got then return ([], stop)
    else do
      let t ← peek c ts
      match t.kind with
      | .lbracket =>
        let (sub, close) ← subscript fuel
        let (subs, stop) ← exactSubscripts fuel id arity (got + 1) close
        return (sub :: subs, stop)
      | _ => refuse id.pos (.missingSubscripts id.lexeme arity got)

def subscripts : Nat → Int → Reader (List Subscript × Int)
  | 0, _ => throw .endless
  | fuel + 1, stop => do
    let t ← peek c ts
    match t.kind with
    | .lbracket =>
      let (sub, close) ← subscript fuel
      let (subs, stop) ← subscripts fuel close
      return (sub :: subs, stop)
    | _ => return ([], stop)

def subscript : Nat → Reader (Subscript × Int)
  | 0 => throw .endless
  | fuel + 1 => do
    let left ← next c ts
    openScope .subscript
    let t ← peek c ts
    let n ← peekBehind c ts
    match t.kind, n.kind with
    | .ident, .rbracket =>
      let _ ← next c ts
      let sub ← accept (c.namedSubscript t ⟨left.pos + 1, n.pos - 1⟩)
      let right ← expect c ts .rbracket
      closeScope .subscript
      return (sub, (right.pos : Int))
    | _, _ =>
      let e ← expression fuel 0
      let i ← constantIndex c e
      let right ← expect c ts .rbracket
      closeScope .subscript
      return (.index ⟨left.pos + 1, right.pos - 1⟩ i (keptExpr e), (right.pos : Int))

end

def equation : Reader Expr := do
  let t ← peek c ts
  match t.kind with
  | .eof => refuse 0 .empty
  | _ =>
    let e ← expression c ts (fuelFor ts) 0
    let t ← peek c ts
    match t.kind with
    | .eof => return e
    | _ => refuse t.pos (.unexpected t)

end

def start : State := ⟨0, []⟩

def parse (c : Context) : EStateM.Result Stop State Expr :=
  match Token.scan c.src with
  | .error (pos, e) => .error (.refused ⟨pos, .scan e⟩) start
  | .ok ts => equation c ts start

end LandUse.Cursor
