import LandUse.Scalar
import LandUse.Table.Basic

/-! Integers are added as such as long as there is nothing else; other sums carry along what was rounded off. -/

namespace LandUse

structure CarriedSum (α : Type) where
  sum : α
  carry : α

namespace CarriedSum

open Scalar

variable {α : Type} [Scalar α]

def add (s : CarriedSum α) (x : α) : CarriedSum α :=
  let t := s.sum + x
  if less (abs x) (abs s.sum) then ⟨t, s.carry + ((s.sum - t) + x)⟩ else ⟨t, s.carry + ((x - t) + s.sum)⟩

/-- Integers of up to 52 bits are large parts, longer ones have small parts of 14 bits. -/
def splitInt (n : Int) : Int × Int :=
  if n.natAbs < 4503599627370496 then (n, 0) else (n - Int.tmod n 16384, Int.tmod n 16384)

def ofInt (n : Int) : CarriedSum α := ⟨Scalar.ofInt (splitInt n).1, Scalar.ofInt (splitInt n).2⟩

def addInt (s : CarriedSum α) (n : Int) : CarriedSum α :=
  if n.natAbs < 4503599627370496 then s.add (Scalar.ofInt n)
  else (s.add (Scalar.ofInt (splitInt n).1)).add (Scalar.ofInt (splitInt n).2)

def value (s : CarriedSum α) : α := if finite s.carry then s.sum + s.carry else s.sum

end CarriedSum

inductive RunningSum (α : Type) where
  | whole (sum : Int)
  | overflowed (sum : CarriedSum α)
  | mixed (sum : CarriedSum α)

namespace RunningSum

open Scalar

variable {α : Type} [Scalar α]

def add : RunningSum α → Value → RunningSum α
  | whole sum, .int i =>
    let t := sum + i.toInt
    if Int64.minValue.toInt ≤ t && t ≤ Int64.maxValue.toInt then whole t
    else overflowed ((CarriedSum.ofInt sum).addInt i.toInt)
  | whole sum, v => mixed ((CarriedSum.ofInt sum).add (ofFloat v.number))
  | overflowed s, .int i => overflowed (s.addInt i.toInt)
  | mixed s, .int i => mixed (s.addInt i.toInt)
  | overflowed s, v | mixed s, v => mixed (s.add (ofFloat v.number))

def value? : RunningSum α → Option α
  | whole sum => some (ofInt sum)
  | overflowed _ => none
  | mixed s => some (if isNaN s.value then zero else s.value)

end RunningSum

namespace Value

def summand : Value → Value
  | text s => (Affinity.numeral? s).getD (.double (Affinity.leadingNumber s))
  | v => v

end Value

namespace Table

def sum? {α : Type} [Scalar α] (t : Table) (column condition : String) (keep : List Cell → Bool) : Option α := do
  let (i, _) ← t.filterColumns column
  let rows ← t.selected? condition
  let values := ((rows.filter keep).filterMap fun r => (r[i]?).join).map Value.summand
  (values.foldl RunningSum.add (.whole 0)).value?

end Table

end LandUse
