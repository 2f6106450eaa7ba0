import LandUse.Expansion.Make
import LandUse.Linear.Fold
import LandUse.Linear.Matrix

/-! Segments as rows. The first objective sets the sense, and those of the other sense are negated. -/

namespace LandUse

def foldInstrs {α : Type} [Scalar α] : List (Instr α) → Except FoldError (FormStack α)
  | [] => .ok []
  | i :: rest => do
    let stack ← foldInstrs rest
    match i with
    | .num c => return LinearForm.ofConstant c :: stack
    | .var k => return LinearForm.ofVariable k :: stack
    | .list op n => apply stack op n
    | .op op =>
      match op.arity with
      | .fixed n => apply stack op n
      | .list => .error .missing
where
  apply (stack : FormStack α) (op : Opcode) (n : Nat) : Except FoldError (FormStack α) :=
    match FormStack.apply stack op n with
    | (.ok _, stack) => .ok stack
    | (.error e, _) => .error e

structure RowSink (α : Type) where
  matrix : Matrix α
  objectives : Nat := 0
  segments : List SegmentInfo := []

namespace RowSink

open Scalar

variable {α : Type} [Scalar α]

def form (label : String) (code : List (Instr α)) : Except Fault (LinearForm α) :=
  match foldInstrs code with
  | .error .missing => .error .violation
  | .error e => .error (.failure (.dimension label e.message))
  | .ok [p] => .ok p
  | .ok stack => .error (.failure (.parse label (-1) ("segment leaves " ++ toString stack.length ++ " values")))

def add (s : RowSink α) (segment : Segment α) (code : List (Instr α)) : Except Fault (RowSink α) := do
  let p ← form segment.label code
  let coeffs := p.nonzero
  let offsets := coeffs.map (·.1)
  match segment.kind with
  | .constraint op rhs =>
    let relation ← orFault op.rowRelation
    let (row, matrix) ← orFault (s.matrix.addRow segment.label coeffs relation (rhs - p.constant))
    return { s with matrix := matrix, segments := s.segments ++ [⟨false, segment.label, row, offsets⟩] }
  | .objective sense weight =>
    let weight := if isZero weight then one else weight
    let matrix := if s.objectives == 0 then s.matrix.setSense sense else s.matrix
    let weight := if sense == matrix.sense then weight else -weight
    return { matrix := matrix.addObjective (coeffs.map fun (k, c) => (k, c * weight))
             objectives := s.objectives + 1
             segments := s.segments ++ [⟨true, segment.label, s.objectives, offsets⟩] }

def sink : Sink α (RowSink α) where
  receive s segment code complete :=
    if complete then
      match s.add segment (code.map (·.instr)) with
      | .ok s => (.ok (), s)
      | .error e => (.error e, s)
    else (.ok (), s)

end RowSink

end LandUse
