import LandUse.Equation.Elements
import LandUse.Number.Layout

/-! Prefix code: every operation stands in front of its operands, and calls are written like loops. -/

namespace LandUse

inductive CodeToken where
  | number (value : Float)
  | operation (op : Opcode)
  | list (op : Opcode) (count : Nat)
  | param (name : String) (isVariable : Bool) (subs : List Subscript)
  | loop (keyword : Keyword) (dim : String) (level : Nat) (body : Span)
  | equation (name : String)

def referenceText (name : String) (subs : List Subscript) : String := name ++ Subscript.bracketed subs

def CodeToken.text : CodeToken → String
  | number value => "n" ++ Number.general value
  | operation op => "o" ++ toString op.code
  | list op count => "o" ++ toString op.code ++ "/" ++ toString count
  | param name _ subs => referenceText name subs
  | loop keyword dim _ _ => keyword.name ++ "\x7b" ++ dim ++ "\x7d"
  | equation name => "=" ++ name

def Header.tokens : Header → List CodeToken
  | bare => []
  | fixed op => [.operation op]
  | list op count => [.list op count]

def Function.head (fn : Function) (count : Nat) : List CodeToken :=
  match fn.keyword? with
  | some k => (k.header count).tokens
  | none => [.operation fn.opcode]

mutual

def Expr.code (start : Nat) : Expr → List CodeToken
  | .number _ _ value => [.number value]
  | .param _ name isVariable subs => [.param name isVariable subs]
  | .equation _ name => [.equation name]
  | .negate _ _ arg => .operation .neg :: arg.code (start + 1)
  | .binary _ op _ lhs rhs =>
    let left := lhs.code (start + 1)
    .operation op.opcode :: (left ++ rhs.code (start + 1 + left.length))
  | .group _ arg => arg.code start
  | .call _ fn _ _ _ args =>
    let head := fn.head args.length
    head ++ argumentCode (start + head.length) args
  | .loop _ keyword dim _ level _ arg =>
    let body := arg.code (start + 1)
    .loop keyword dim level ⟨start + 1, start + body.length⟩ :: body

def argumentCode (start : Nat) : List Expr → List CodeToken
  | [] => []
  | e :: es =>
    let first := e.code start
    first ++ argumentCode (start + first.length) es

end

mutual

def Expr.codeSize : Expr → Nat
  | .number .. | .param .. | .equation .. => 1
  | .negate _ _ arg => 1 + arg.codeSize
  | .binary _ _ _ lhs rhs => 1 + lhs.codeSize + rhs.codeSize
  | .group _ arg => arg.codeSize
  | .call _ fn _ _ _ args => (fn.head args.length).length + argumentsSize args
  | .loop _ _ _ _ _ _ arg => 1 + arg.codeSize

def argumentsSize : List Expr → Nat
  | [] => 0
  | e :: es => e.codeSize + argumentsSize es

end

def consecutiveSpans (start : Nat) : List Nat → List Span
  | [] => []
  | n :: ns => ⟨start, (start : Int) + n - 1⟩ :: consecutiveSpans (start + n) ns

mutual

/-- A call that is written without any operation has no token of its own and gets no mark. -/
def Expr.codeElements (start : Nat) : Expr → List (Element × Bool)
  | .number _ lexeme value => [(.number lexeme value ⟨start, start⟩, true)]
  | .param _ name isVariable subs => [(.param name subs isVariable ⟨start, start⟩, true)]
  | .equation _ name => [(.equation name ⟨start, start⟩, true)]
  | .negate _ _ arg =>
    let stop : Int := start + arg.codeSize
    (.operator "-" .neg true ⟨start, stop⟩ ⟨start + 1, stop⟩, true) :: arg.codeElements (start + 1)
  | .binary _ op _ lhs rhs =>
    let stop : Int := start + lhs.codeSize + rhs.codeSize
    (.operator op.symbol op.opcode false ⟨start, stop⟩ ⟨0, 0⟩, true) ::
      (lhs.codeElements (start + 1) ++ rhs.codeElements (start + 1 + lhs.codeSize))
  | .group _ arg => arg.codeElements start
  | .call _ fn level _ _ args =>
    let head := (fn.head args.length).length
    let stop : Int := start + head + argumentsSize args - 1
    (.call fn level ⟨start, stop⟩ ⟨start + head, stop⟩ []
      (consecutiveSpans (start + head) (args.map Expr.codeSize)), head != 0) ::
      argumentCodeElements (start + head) args
  | .loop _ keyword dim _ level _ arg =>
    let stop : Int := start + arg.codeSize
    (.loop keyword dim level ⟨start, stop⟩ ⟨start + 1, stop⟩, true) :: arg.codeElements (start + 1)

def argumentCodeElements (start : Nat) : List Expr → List (Element × Bool)
  | [] => []
  | e :: es => e.codeElements start ++ argumentCodeElements (start + e.codeSize) es

end

structure Code where
  name : String
  tokens : List CodeToken
  elements : Elements

namespace Code

def ofExpr (name : String) (e : Expr) : Code := ⟨name, e.code 0, .ofList name false (e.codeElements 0)⟩

def text (c : Code) : String := " ".intercalate (c.tokens.map CodeToken.text)

def span (c : Code) : Span := ⟨0, (c.tokens.length : Int) - 1⟩

end Code

end LandUse
