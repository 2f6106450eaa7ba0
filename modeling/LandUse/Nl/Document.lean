import LandUse.Expansion.Make
import LandUse.Linear.Form

namespace LandUse.Nl

inductive Heading where
  | constraint (index : Int)
  | objective (index : Int) (sense : Sense)

structure Body (α : Type) where
  heading : Heading
  code : List (Instr α)

def Body.isConstraint {α : Type} (b : Body α) : Bool :=
  match b.heading with
  | .constraint _ => true
  | .objective .. => false

structure Block where
  index : Int
  offsets : List Int

structure Document (α : Type) where
  bodies : List (Body α) := []
  ranges : List (Comparison × α) := []
  bounds : List (Float × Float) := []
  initial : Coeffs Float := []
  discrete : Int := 0
  jacobian : List Block := []
  gradient : List Block := []

structure Stats where
  unknowns : Int
  constraints : Int
  objectives : Int
  equalities : Int
  discrete : Int
  jacobianNonzeros : Int
  gradientNonzeros : Int

namespace Document

variable {α : Type}

def entryCount (blocks : List Block) : Nat := blocks.foldl (fun n b => n + b.offsets.length) 0

def stats (d : Document α) : Stats where
  unknowns := d.bounds.length
  constraints := (d.bodies.filter (·.isConstraint)).length
  objectives := (d.bodies.filter (!·.isConstraint)).length
  equalities := (d.ranges.filter (·.1 == .eq)).length
  discrete := d.discrete
  jacobianNonzeros := entryCount d.jacobian
  gradientNonzeros := entryCount d.gradient

def start (d : Document α) (heading : Heading) : Document α := { d with bodies := d.bodies ++ [⟨heading, []⟩] }

def append? (d : Document α) (i : Instr α) : Option (Document α) :=
  match d.bodies.getLast? with
  | some b => some { d with bodies := d.bodies.dropLast ++ [{ b with code := b.code ++ [i] }] }
  | none => none

def sortOffsets (offsets : List Int) : List Int := offsets.mergeSort (· ≤ ·)

def addJacobian (d : Document α) (index : Int) (offsets : List Int) : Document α :=
  { d with jacobian := d.jacobian ++ [⟨index, sortOffsets offsets⟩] }

def addGradient (d : Document α) (index : Int) (offsets : List Int) : Document α :=
  { d with gradient := d.gradient ++ [⟨index, sortOffsets offsets⟩] }

def addRange (d : Document α) (op : Comparison) (rhs : α) : Document α := { d with ranges := d.ranges ++ [(op, rhs)] }

def addBounds (d : Document α) (lower upper : Float) : Document α := { d with bounds := d.bounds ++ [(lower, upper)] }

def setDiscrete (d : Document α) (n : Int) : Document α := { d with discrete := n }

def setInitial (d : Document α) (offset : Int) (x : Float) : Document α := { d with initial := d.initial.set offset x }

def columnCounts (d : Document α) (columns : Nat) : List Nat :=
  (List.range columns).map fun v =>
    d.jacobian.foldl (fun n b => n + b.offsets.countP fun k => 0 ≤ k && k ≤ (v : Int)) 0

end Document

end LandUse.Nl
