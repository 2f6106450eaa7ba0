import LandUse.Language
import LandUse.Text.Case

namespace LandUse

/-- A range of positions, both ends included: bytes of a source, or tokens of prefix code. -/
structure Span where
  start : Int
  stop : Int
deriving DecidableEq

namespace Span

def length (s : Span) : Int := if s.stop < s.start then 0 else s.stop - s.start + 1

def contains (s t : Span) : Bool := s.start ≤ t.start && t.stop ≤ s.stop

def overlaps (s t : Span) : Bool :=
  !(s.stop < t.start || t.stop < s.start) && !s.contains t && !t.contains s

def text (s : Span) : String := "[" ++ toString s.start ++ "," ++ toString s.stop ++ "]"

end Span

structure Symbols where
  isEquation : String → Bool
  isParameter : String → Bool
  variableArity? : String → Option Nat
  isDimension : String → Bool
  optionIndex? : String → Option Nat

def foldIndex? (names : List String) (name : String) : Option Nat :=
  names.findIdx? (Text.equalFold · name)

def optionsDimension : String := "OPTIONS"

mutual

inductive Expr where
  | number (span : Span) (lexeme : String) (value : Float)
  | param (span : Span) (name : String) (isVariable : Bool) (subs : List Subscript)
  | equation (span : Span) (name : String)
  | negate (span : Span) (opSpan : Span) (arg : Expr)
  | binary (span : Span) (op : Operator) (opSpan : Span) (lhs rhs : Expr)
  | group (span : Span) (arg : Expr)
  | call (span : Span) (fn : Function) (level : Nat) (body : Span) (seps : List Int) (args : List Expr)
  | loop (span : Span) (keyword : Keyword) (dim : String) (dimSpan : Span) (level : Nat) (body : Span)
      (arg : Expr)

inductive Subscript where
  | dim (span : Span) (name : String)
  | option (span : Span) (name : String) (index : Nat)
  | index (span : Span) (value : Nat) (expr : Option Expr)

end

namespace Subscript

def span : Subscript → Span
  | dim s _ | option s .. | index s .. => s

def text : Subscript → String
  | dim _ name | option _ name _ => name
  | index _ value _ => toString value

def bracketed (subs : List Subscript) : String := String.join (subs.map fun s => "[" ++ s.text ++ "]")

end Subscript

namespace Expr

def span : Expr → Span
  | number s .. | param s .. | equation s .. | negate s .. | binary s .. | group s .. | call s .. | loop s .. => s

mutual

def text : Expr → String
  | number _ lexeme _ => lexeme
  | param _ name _ subs => name ++ Subscript.bracketed subs
  | equation _ name => name
  | negate _ _ arg => "(-" ++ arg.text ++ ")"
  | binary _ op _ lhs rhs => "(" ++ lhs.text ++ " " ++ op.symbol ++ " " ++ rhs.text ++ ")"
  | group _ arg => arg.text
  | call _ fn _ _ _ args => fn.name ++ "(" ++ ", ".intercalate (textList args) ++ ")"
  | loop _ keyword dim _ _ _ arg => keyword.name ++ "\x7b" ++ dim ++ "\x7d(" ++ arg.text ++ ")"

def textList : List Expr → List String
  | [] => []
  | e :: es => e.text :: textList es

end

end Expr

end LandUse
