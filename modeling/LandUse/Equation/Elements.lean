import LandUse.Equation.Expr

/-! The elements of an equation with their ranges, and a book of the positions at which they are found. -/

namespace LandUse

inductive Element where
  | param (name : String) (subs : List Subscript) (isVariable : Bool) (span : Span)
  | number (lexeme : String) (value : Float) (span : Span)
  | operator (symbol : String) (opcode : Opcode) (unary : Bool) (span operand : Span)
  | loop (keyword : Keyword) (dim : String) (level : Nat) (span body : Span)
  | call (fn : Function) (level : Nat) (span body : Span) (seps : List Int) (args : List Span)
  | equation (name : String) (span : Span)

inductive ElementKind where
  | param | number | operator | loop | call | equation
deriving DecidableEq

namespace Element

def kind : Element → ElementKind
  | param .. => .param
  | number .. => .number
  | operator .. => .operator
  | loop .. => .loop
  | call .. => .call
  | equation .. => .equation

def span : Element → Span
  | param _ _ _ s | number _ _ s | operator _ _ _ s _ | loop _ _ _ s _ | call _ _ s _ _ _ | equation _ s => s

def isSign : Element → Bool
  | operator _ _ unary _ _ => unary
  | _ => false

end Element

def ElementKind.name : ElementKind → String
  | param => "Param"
  | number => "Number"
  | operator => "Operator"
  | loop => "Loop"
  | call => "Func"
  | equation => "Equation"

/-- A mark `(pos, i)` records the `i`-th element at its last position or at its first one. -/
structure Elements where
  equation : String
  endAddressed : Bool
  list : List Element
  marks : List (Int × Nat)

namespace Elements

def address (endAddressed : Bool) (e : Element) : Int :=
  if endAddressed then e.span.stop else e.span.start

def ofList (equation : String) (endAddressed : Bool) (es : List (Element × Bool)) : Elements where
  equation := equation
  endAddressed := endAddressed
  list := es.map (·.1)
  marks := es.zipIdx.filterMap fun ((e, marked), i) => if marked then some (address endAddressed e, i) else none

def indicesAt (a : Elements) (pos : Int) : List Nat :=
  a.marks.filterMap fun (p, i) => if p == pos then some i else none

def elementsAt (a : Elements) (pos : Int) : List Element := (a.indicesAt pos).filterMap (a.list[·]?)

def positions (a : Elements) : List Int := ((a.marks.map (·.1)).mergeSort (· ≤ ·)).eraseReps

def ordinal (a : Elements) (i : Nat) : Nat :=
  match a.list[i]? with
  | some e => (a.list.take i).countP (·.kind = e.kind)
  | none => 0

def spans (a : Elements) : List Span := a.marks.filterMap fun (_, i) => (a.list[i]?).map (·.span)

def noOverlaps : List Span → Bool
  | [] => true
  | s :: ss => ss.all (!s.overlaps ·) && noOverlaps ss

def consistent (a : Elements) : Bool :=
  (a.marks.all fun (pos, i) =>
    match a.list[i]? with
    | some e => pos == address a.endAddressed e
    | none => false) && noOverlaps a.spans

def endingAt (a : Elements) (pos : Int) : List Element :=
  if a.endAddressed then a.elementsAt pos
  else
    let es := a.marks.filterMap fun (_, i) => a.list[i]?
    (es.filter (·.span.stop == pos)).mergeSort (·.span.start ≤ ·.span.start)

end Elements

def argSpans (start stop : Int) : List Int → List Span
  | [] => [⟨start, stop⟩]
  | sep :: seps => ⟨start, sep - 1⟩ :: argSpans (sep + 1) stop seps

mutual

def Expr.elements : Expr → List Element
  | .number span lexeme value => [.number lexeme value span]
  | .param span name isVariable subs => .param name subs isVariable span :: subscriptElements subs
  | .equation span name => [.equation name span]
  | .negate span _ arg => .operator "-" .neg true span arg.span :: arg.elements
  | .binary _ op opSpan lhs rhs =>
    .operator op.symbol op.opcode false opSpan ⟨0, 0⟩ :: (lhs.elements ++ rhs.elements)
  | .group _ arg => arg.elements
  | .call span fn level body seps args =>
    .call fn level span body seps (argSpans body.start body.stop seps) :: argumentElements args
  | .loop span keyword dim _ level body arg => .loop keyword dim level span body :: arg.elements

def argumentElements : List Expr → List Element
  | [] => []
  | e :: es => e.elements ++ argumentElements es

def subscriptElements : List Subscript → List Element
  | [] => []
  | s :: ss => s.elements ++ subscriptElements ss

def Subscript.elements : Subscript → List Element
  | .dim .. | .option .. => []
  | .index _ _ e => keptElements e

def keptElements : Option Expr → List Element
  | none => []
  | some e => e.elements

end

def Elements.ofExpr (equation : String) (endAddressed : Bool) (e : Expr) : Elements :=
  .ofList equation endAddressed (e.elements.map (·, true))

end LandUse
