import LandUse.Catalog

/-! Where an expansion stands: its equation, the bindings, the rows in scope and the counters of loops. -/

namespace LandUse

structure Frame where
  equation : String := ""
  bindings : List Binding := []
  rows : List Row := []

structure Scope where
  frame : Frame := {}
  counters : List ((String × String) × Nat) := []

namespace Frame

def binding? (f : Frame) (dim : String) : Option Cell :=
  (f.bindings.reverse.find? (·.dim == dim)).map (·.value)

def bind (f : Frame) (dim : String) (value : Cell) : Frame :=
  { f with bindings := f.bindings ++ [⟨dim, value⟩] }

end Frame

namespace Scope

def counter? (s : Scope) (equation dim : String) : Option Nat := s.counters.lookup (equation, dim)

def drop (s : Scope) (equation dim : String) : Scope :=
  { s with counters := s.counters.filter (·.1 != (equation, dim)) }

def setCounter (s : Scope) (equation dim : String) (n : Nat) : Scope :=
  { s with counters := ((equation, dim), n) :: (s.drop equation dim).counters }

def enter (s : Scope) (equation dim : String) : Scope := s.setCounter equation dim 1

def advance (s : Scope) (equation dim : String) : Nat × Scope :=
  let n := ((s.counter? equation dim).getD 0) + 1
  (n, s.setCounter equation dim n)

def giveBack (s : Scope) (equation dim : String) : Option Nat → Scope
  | some n => s.setCounter equation dim n
  | none => s.drop equation dim

def restore (s : Scope) (f : Frame) : Scope := { s with frame := f }

end Scope

end LandUse
