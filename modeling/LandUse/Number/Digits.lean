import LandUse.Number.Parts

/-! Digits `d` with exponent `x` stand for `d₁.d₂… * 10 ^ x`. -/

namespace LandUse.Number

structure Digits where
  digits : List Nat
  exponent : Int

def shiftFraction (num den : Nat) (k : Int) : Nat × Nat :=
  if 0 ≤ k then (num * tenTo k.toNat, den) else (num, den * tenTo (-k).toNat)

def log10Fraction (num den : Nat) : Int :=
  let k := log2Fraction num den
  let guess := Int.fdiv (k * 1233) 4096 - 1
  let fits (x : Int) : Bool :=
    let (n, d) := shiftFraction num den (-x)
    d ≤ n
  if fits (guess + 2) then guess + 2 else if fits (guess + 1) then guess + 1 else guess

def digitList (n : Nat) : List Nat := (Nat.toDigits 10 n).map fun c => c.toNat - 48

def stripZeros (ds : List Nat) : List Nat := (ds.reverse.dropWhile (· == 0)).reverse

def ofScaled (n : Nat) (k : Int) : Digits :=
  let ds := digitList n
  ⟨stripZeros ds, ds.length - 1 - k⟩

def fraction (m : Nat) (q : Int) : Nat × Nat := scaleFraction m 1 q

/-- The fractions from `lower / den` to `upper / den`, around `value / den`. -/
structure Interval where
  lower : Nat
  value : Nat
  upper : Nat
  den : Nat
  closed : Bool

namespace Interval

/-- What is rounded to `m * 2 ^ q`; a midpoint itself goes to the even mantissa. -/
def around (m : Nat) (q : Int) (close : Bool) : Interval :=
  let (value, den) := scaleFraction (4 * m) 4 q
  let unit := (scaleFraction 1 4 q).1
  ⟨value - (if close then 1 else 2) * unit, value, value + 2 * unit, den, m % 2 == 0⟩

def ofParts (m : Nat) (q : Int) : Interval := around m q (m == twoTo 52 && -1074 < q)

def contains (v : Interval) (n : Nat) (k : Int) : Bool :=
  let (a, d) := shiftFraction n 1 (-k)
  if v.closed then v.lower * d ≤ a * v.den && a * v.den ≤ v.upper * d
  else v.lower * d < a * v.den && a * v.den < v.upper * d

def endsAt (v : Interval) (n : Nat) (k : Int) : Bool :=
  let (a, d) := shiftFraction n 1 (-k)
  a * v.den == v.upper * d

def onGrid (v : Interval) (x : Int) (count : Nat) : Option Digits :=
  let k : Int := count - 1 - x
  let (n, d) := shiftFraction v.value v.den k
  let below := n / d
  let near := roundDiv n d
  let far := if near == below then below + 1 else below
  if v.contains near k then some (ofScaled near k)
  else if v.contains far k then some (ofScaled far k)
  else none

/-- Walks along the digits of the value until it is in the interval when cut off, or rounded up. -/
def walk (v : Interval) (x : Int) : Nat → Nat → Bool → Option Digits
  | 0, _, _ => none
  | fuel + 1, count, up =>
    let k : Int := count - 1 - x
    let (n, d) := shiftFraction v.value v.den k
    let below := n / d
    match v.contains below k, up && v.contains (below + 1) k with
    | true, true => some (ofScaled (roundDiv n d) k)
    | true, false => some (ofScaled below k)
    | false, true => some (ofScaled (below + 1) k)
    | false, false => walk v x fuel (count + 1) (up && !v.endsAt (below + 1) k)

def walked (v : Interval) (limit : Nat) : Digits :=
  (walk v (log10Fraction v.value v.den) (limit + 1) 0 true).getD ⟨[0], 0⟩

end Interval

def shortest (m : Nat) (q : Int) : Digits :=
  let v := Interval.ofParts m q
  let x := log10Fraction v.value v.den
  match (List.range 17).findSome? fun i => v.onGrid x (i + 1) with
  | some ds => ds
  | none => ⟨[0], 0⟩

def distinguishing (m : Nat) (q : Int) : Digits := (Interval.ofParts m q).walked 18

def rounded (m : Nat) (q : Int) (count : Nat) : Digits :=
  let (num, den) := fraction m q
  let x := log10Fraction num den
  let k : Int := count - 1 - x
  let (n, d) := shiftFraction num den k
  let ds := digitList (roundDiv n d)
  if count < ds.length then ⟨ds.take count, x + 1⟩ else ⟨ds, x⟩

end LandUse.Number
