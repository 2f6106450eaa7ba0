/-! The parts of a 64-bit floating point number, and the number nearest to a fraction. -/

namespace LandUse.Number

abbrev twoTo (n : Nat) : Nat := Nat.pow 2 n

abbrev tenTo (n : Nat) : Nat := Nat.pow 10 n

/-- `finite negative m q` is `± m * 2 ^ q`. -/
inductive Parts where
  | nan
  | infinite (negative : Bool)
  | finite (negative : Bool) (m : Nat) (q : Int)

def parts (x : Float) : Parts :=
  let b := x.toBits.toNat
  let negative := b / twoTo 63 == 1
  let e : Nat := b / twoTo 52 % 2048
  let f := b % twoTo 52
  if e == 2047 then
    if f == 0 then .infinite negative else .nan
  else if e == 0 then .finite negative f (-1074)
  else .finite negative (f + twoTo 52) ((e : Int) - 1075)

def roundDiv (num den : Nat) : Nat :=
  let q := num / den
  let r := num % den
  if 2 * r < den then q
  else if den < 2 * r then q + 1
  else if q % 2 == 0 then q else q + 1

def scaleFraction (num den : Nat) (e : Int) : Nat × Nat :=
  if 0 ≤ e then (num * twoTo e.toNat, den) else (num, den * twoTo (-e).toNat)

def log2Fraction (num den : Nat) : Int :=
  let k : Int := (num.log2 : Int) - den.log2
  let (n, d) := scaleFraction num den (-k)
  if n < d then k - 1 else k

def infiniteBits : Nat := 2047 * twoTo 52

/-- The bits of the number nearest to `num / den`, a half going to the even mantissa. -/
def nearestBits (num den : Nat) : Nat :=
  if num == 0 then 0
  else
    let q := max (log2Fraction num den - 52) (-1074)
    let (n, d) := scaleFraction num den (-q)
    min (roundDiv n d + (q + 1074).toNat * twoTo 52) infiniteBits

def nearest (negative : Bool) (num den : Nat) : Float :=
  Float.ofBits (UInt64.ofNat (nearestBits num den + if negative then twoTo 63 else 0))

def ofParts (negative : Bool) (m : Nat) (q : Int) : Float :=
  let (n, d) := scaleFraction m 1 q
  nearest negative n d

def ofDecimal (negative : Bool) (m : Nat) (e : Int) : Float :=
  let top := e + (Nat.toDigits 10 m).length
  if m == 0 || top < -400 then nearest negative 0 1
  else if 400 < top then Float.ofBits (UInt64.ofNat (infiniteBits + if negative then twoTo 63 else 0))
  else if 0 ≤ e then nearest negative (m * tenTo e.toNat) 1
  else nearest negative m (tenTo (-e).toNat)

def truncate (x : Float) : Int :=
  match parts x with
  | .finite negative m q =>
    let n : Nat := if 0 ≤ q then m * twoTo q.toNat else m / twoTo (-q).toNat
    if negative then -(n : Int) else n
  | _ => 0

def isIntegral (x : Float) : Bool :=
  match parts x with
  | .finite _ m q => 0 ≤ q || m % twoTo (-q).toNat == 0
  | _ => false

def isNegative (x : Float) : Bool :=
  match parts x with
  | .nan => false
  | .infinite negative => negative
  | .finite negative _ _ => negative

def infinity : Float := Float.ofBits (UInt64.ofNat infiniteBits)

def nan : Float := 0.0 / 0.0

end LandUse.Number
