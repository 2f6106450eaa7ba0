import LandUse.Catalog
import LandUse.Scalar

/-! Instructions: equations in prefix order, with numbers and decision variables in place of names. -/

namespace LandUse

inductive Instr (α : Type) where
  | op (op : Opcode)
  | list (op : Opcode) (count : Nat)
  | num (value : α)
  | var (offset : Int)

def Header.instrs {α : Type} : Header → List (Instr α)
  | bare => []
  | fixed op => [.op op]
  | list op count => [.list op count]

namespace Instr

variable {α : Type}

def insert (k : Int) : List Int → List Int
  | [] => [k]
  | i :: is =>
    if k == i then i :: is
    else if k < i then k :: i :: is
    else i :: insert k is

def offsets : List (Instr α) → List Int
  | [] => []
  | .var k :: rest => insert k (offsets rest)
  | _ :: rest => offsets rest

end Instr

inductive SegmentKind (α : Type) where
  | constraint (op : Comparison) (rhs : α)
  | objective (sense : Sense) (weight : α)

structure Segment (α : Type) where
  label : String
  kind : SegmentKind α
  group : List Binding := []

namespace Segment

def substitute (value : List Char) : List Char → Option (List Char)
  | [] => none
  | '%' :: 's' :: rest => some (value ++ rest)
  | c :: rest => (substitute value rest).map (c :: ·)

/-- The values of a group stand where `%s` is in the label, else behind it. -/
def labelFor (label : String) (values : List String) : String :=
  if values.isEmpty then label
  else
    let v := "_".intercalate values
    match substitute v.toList label.toList with
    | some cs => String.ofList cs
    | none => label ++ "_" ++ v

end Segment

structure SegmentInfo where
  isObjective : Bool
  label : String
  index : Nat
  offsets : List Int

end LandUse
