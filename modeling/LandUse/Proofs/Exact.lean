import LandUse.Scalar
import Mathlib.Algebra.Order.Field.Basic
import Mathlib.Algebra.Order.Field.Rat
import Mathlib.Tactic.NormNum

/-! Exact arithmetic: the numbers of an ordered field, without rounding. -/

namespace LandUse

class Functions (K : Type) [One K] where
  remainder : K → K → K
  power : K → K → K
  atan2 : K → K → K
  floor : K → K
  ceil : K → K
  sqrt : K → K
  exp : K → K
  log : K → K
  log10 : K → K
  sin : K → K
  cos : K → K
  tan : K → K
  tanh : K → K
  power_one : ∀ x, power x 1 = x

namespace Exact

/-- The number that a floating point number stands for; what is not finite counts as zero. -/
def rational (x : Float) : ℚ :=
  match Number.parts x with
  | .finite negative m q =>
    let (n, d) := Number.scaleFraction m 1 q
    if negative then -(n / d : ℚ) else n / d
  | .infinite _ | .nan => 0

variable {K : Type} [Field K] [LinearOrder K] [Functions K]

instance : Scalar K where
  add := Add.add
  sub := Sub.sub
  mul := Mul.mul
  div := Div.div
  neg := Neg.neg
  ofFloat x := (rational x : K)
  ofInt n := n
  same x y := decide (x = y)
  less x y := decide (x < y)
  negligible x := decide (x = 0)
  finite _ := true
  isNaN _ := false
  abs x := |x|
  remainder := Functions.remainder
  power := Functions.power
  atan2 := Functions.atan2
  floor := Functions.floor
  ceil := Functions.ceil
  sqrt := Functions.sqrt
  exp := Functions.exp
  log := Functions.log
  log10 := Functions.log10
  sin := Functions.sin
  cos := Functions.cos
  tan := Functions.tan
  tanh := Functions.tanh

lemma rational_zero : rational 0 = 0 := by decide +kernel

lemma rational_one : rational 1 = 1 := by decide +kernel

@[simp] lemma zero_eq : (Scalar.zero : K) = 0 := by
  show ((rational 0 : ℚ) : K) = 0
  rw [rational_zero, Rat.cast_zero]

@[simp] lemma one_eq : (Scalar.one : K) = 1 := by
  show ((rational 1 : ℚ) : K) = 1
  rw [rational_one, Rat.cast_one]

@[simp] lemma same_iff {x y : K} : Scalar.same x y = true ↔ x = y := decide_eq_true_iff

@[simp] lemma negligible_iff {x : K} : Scalar.negligible x = true ↔ x = 0 := decide_eq_true_iff

@[simp] lemma isZero_iff {x : K} : Scalar.isZero x = true ↔ x = 0 := by rw [Scalar.isZero, same_iff, zero_eq]

lemma sum_eq (xs : List K) : Scalar.sum xs = xs.sum := by
  rw [Scalar.sum, zero_eq, List.sum_eq_foldl]

end Exact

instance : Functions ℚ where
  remainder x y := x - y * (x / y).num.tdiv (x / y).den
  power x y := if y.den = 1 then x ^ y.num else 0
  atan2 _ _ := 0
  floor x := x.floor
  ceil x := x.ceil
  sqrt _ := 0
  exp _ := 0
  log _ := 0
  log10 _ := 0
  sin _ := 0
  cos _ := 0
  tan _ := 0
  tanh _ := 0
  power_one x := by simp

end LandUse
