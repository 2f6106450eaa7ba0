import LandUse.Nl.Document
import LandUse.Number.Layout

/-! A header of counts, then the segments `C`, `O`, `x`, `r`, `b`, `k`, `J` and `G`. -/

namespace LandUse.Nl

def number (x : Float) : String := (Number.plain? x).getD (Number.general x)

def instrText : Instr Float → String
  | .op op => "o" ++ toString op.code ++ "\n"
  | .list op count => "o" ++ toString op.code ++ "\n" ++ toString count ++ "\n"
  | .num x => "n" ++ number x ++ "\n"
  | .var k => "v" ++ toString k ++ "\n"

def headingText : Heading → String
  | .constraint k => "C" ++ toString k ++ "\n"
  | .objective k sense => "O" ++ toString k ++ (if sense = .maximize then " 1" else " 0") ++ "\n"

def bodyText (b : Body Float) : String := headingText b.heading ++ String.join (b.code.map instrText)

def rangeText (op : Comparison) (rhs : Float) : String :=
  if op = .none then "3\n" else toString op.rangeCode ++ " " ++ number rhs ++ "\n"

def boundsText (lower upper : Float) : String :=
  let low := lower != -Number.infinity
  let high := upper != Number.infinity
  if low && high && lower == upper then "4 " ++ number lower ++ "\n"
  else if low && high then "0 " ++ number lower ++ " " ++ number upper ++ "\n"
  else if high then "1 " ++ number upper ++ "\n"
  else if low then "2 " ++ number lower ++ "\n"
  else "3\n"

def blockText (letter : String) (b : Block) : String :=
  letter ++ toString b.index ++ " " ++ toString b.offsets.length ++ "\n" ++
    String.join (b.offsets.map fun k => toString k ++ " 0\n")

def header (s : Stats) : String :=
  let v := toString s.unknowns
  let c := toString s.constraints
  let o := toString s.objectives
  "g3 1 1 0\t# problem mosra\n" ++
  " " ++ v ++ " " ++ c ++ " " ++ o ++ " 0 " ++ toString s.equalities ++
    " 0\t# vars, constraints, objectives, ranges, eqns, lcons\n" ++
  " " ++ c ++ " " ++ o ++ "\t# nonlinear constraints, objectives\n" ++
  " 0 0\t# network constraints: nonlinear, linear\n" ++
  " " ++ v ++ " " ++ v ++ " " ++ v ++ "\t# nonlinear vars in constraints, objectives, both\n" ++
  " 0 0 0 1\t# linear network variables; functions; arith, flags\n" ++
  " 0 0 " ++ toString s.discrete ++ " 0 0\t# discrete variables: binary, integer, nonlinear (b,c,o)\n" ++
  " " ++ toString s.jacobianNonzeros ++ " " ++ toString s.gradientNonzeros ++
    "\t# nonzeros in Jacobian, gradients\n" ++
  " 0 0\t# max name lengths: constraints, variables\n" ++
  " 0 0 0 0 0\t# common exprs: b,c,o,c1,o1\n"

namespace Document

def initialText (d : Document Float) : String :=
  if d.initial.isEmpty then ""
  else "x" ++ toString d.initial.length ++ "\n" ++
    String.join (d.initial.map fun (k, x) => toString k ++ " " ++ number x ++ "\n")

def rangesText (d : Document Float) : String :=
  if d.bodies.any (·.isConstraint) then "r\n" ++ String.join (d.ranges.map fun (op, rhs) => rangeText op rhs) else ""

def allBoundsText (d : Document Float) : String :=
  if d.bounds.isEmpty then "" else "b\n" ++ String.join (d.bounds.map fun (l, u) => boundsText l u)

def countsText (d : Document Float) : String :=
  if d.bodies.any (·.isConstraint) && 1 < d.bounds.length then
    "k" ++ toString (d.bounds.length - 1) ++ "\n" ++
      String.join ((d.columnCounts (d.bounds.length - 1)).map fun n => toString n ++ "\n")
  else ""

def text (d : Document Float) : String :=
  header d.stats ++
    String.join ((d.bodies.filter (·.isConstraint)).map bodyText) ++
    String.join ((d.bodies.filter (!·.isConstraint)).map bodyText) ++
    d.initialText ++ d.rangesText ++ d.allBoundsText ++ d.countsText ++
    String.join (d.jacobian.map (blockText "J")) ++ String.join (d.gradient.map (blockText "G"))

end Document

end LandUse.Nl
