import LandUse.Number.Parts

/-! Numbers of about twice the usual precision, as sums of a floating point number and a far smaller one. -/

namespace LandUse.Number

structure Pair where
  high : Float
  low : Float

namespace Pair

def firstHalf (x : Float) : Float := Float.ofBits (x.toBits &&& 0xfffffffffc000000)

def times (p q : Pair) : Pair :=
  let a := firstHalf p.high
  let b := p.high - a
  let c := firstHalf q.high
  let d := q.high - c
  let outer := a * c
  let inner := a * d + b * c
  let product := outer + inner
  let off := p.high * q.low + p.low * q.high + (outer - product + inner + b * d)
  let high := product + off
  ⟨high, product - high + off⟩

def ofNat (n : Nat) : Pair :=
  let high := nearest false n 1
  let m := (truncate high).toNat
  ⟨high, if 18446744073709549568.0 < high then 0
    else if m ≤ n then nearest false (n - m) 1 else nearest true (m - n) 1⟩

def hundredUp : Pair := ⟨1e100, -1.5902891109759918046e83⟩

def tenUp : Pair := ⟨1e10, 0⟩

def oneUp : Pair := ⟨10, 0⟩

def hundredDown : Pair := ⟨1e-100, -1.99918998026028836196e-117⟩

def tenDown : Pair := ⟨1e-10, -3.6432197315497741579e-27⟩

def oneDown : Pair := ⟨0.1, -5.5511151231257827021e-18⟩

def timesPower (p q : Pair) (n : Nat) : Pair := Nat.repeat (·.times q) n p

def timesTenTo (p : Pair) (e : Int) : Pair :=
  let n := e.natAbs
  if 0 ≤ e then ((p.timesPower hundredUp (n / 100)).timesPower tenUp (n % 100 / 10)).timesPower oneUp (n % 10)
  else ((p.timesPower hundredDown (n / 100)).timesPower tenDown (n % 100 / 10)).timesPower oneDown (n % 10)

def timesWhile (q : Pair) (more : Float → Bool) : Nat → Pair → Pair × Nat
  | 0, p => (p, 0)
  | fuel + 1, p =>
    if more p.high then
      let (r, n) := timesWhile q more fuel (p.times q)
      (r, n + 1)
    else (p, 0)

def scaled (x : Float) : Pair × Int :=
  if 9.223372036854774784e18 < x then
    let (p, a) := timesWhile hundredDown (9.223372036854774784e118 < ·) 4 ⟨x, 0⟩
    let (p, b) := timesWhile tenDown (9.223372036854774784e28 < ·) 12 p
    let (p, c) := timesWhile oneDown (9.223372036854774784e18 < ·) 12 p
    (p, 100 * a + 10 * b + c)
  else
    let (p, a) := timesWhile hundredUp (· < 9.223372036854774784e-83) 4 ⟨x, 0⟩
    let (p, b) := timesWhile tenUp (· < 9.223372036854774784e7) 12 p
    let (p, c) := timesWhile oneUp (· < 9.22337203685477478e17) 12 p
    (p, -(100 * a + 10 * b + c : Int))

def whole (p : Pair) : Int := truncate p.high + truncate p.low

end Pair

end LandUse.Number
