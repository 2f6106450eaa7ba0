import LandUse.Number.Parts

namespace LandUse.Number

def remainder (x y : Float) : Float :=
  match parts x, parts y with
  | .finite nx mx qx, .finite _ my qy =>
    if my == 0 then nan
    else
      let q := min qx qy
      ofParts nx ((mx * twoTo (qx - q).toNat) % (my * twoTo (qy - q).toNat)) q
  | .finite .., .infinite _ => x
  | _, _ => nan

def floor (x : Float) : Float :=
  if isIntegral x || !x.isFinite then x
  else Float.ofInt (if isNegative x then truncate x - 1 else truncate x)

def ceil (x : Float) : Float := -(floor (-x))

def roundAway (x : Float) : Float :=
  let size := floor x.abs
  let nearest := if x.abs - size < 0.5 then size else size + 1
  if isIntegral x || !x.isFinite then x else if isNegative x then -nearest else nearest

def maximum (x y : Float) : Float :=
  if x == infinity || y == infinity then infinity
  else if x.isNaN || y.isNaN then nan
  else if x == 0 && y == 0 then (if isNegative x then y else x)
  else if y < x then x else y

def minimum (x y : Float) : Float := -(maximum (-x) (-y))

def splitExponent (x : Float) : Float × Int :=
  match parts x with
  | .finite negative m q =>
    if m == 0 then (x, 0)
    else
      let bits : Int := m.log2 + 1
      (ofParts negative m (-bits), q + bits)
  | _ => (x, 0)

def scale (x : Float) (e : Int) : Float :=
  match parts x with
  | .finite negative m q =>
    if m == 0 then x
    else if 3000 < q + e then (if negative then -infinity else infinity)
    else if q + e < -3000 then ofParts negative 0 0
    else ofParts negative m (q + e)
  | _ => x

def log2 (x : Float) : Float :=
  let (f, e) := splitExponent x
  if f == 0.5 then Float.ofInt (e - 1) else f.log * 1.4426950408889634 + Float.ofInt e

def log10 (x : Float) : Float := log2 x * 0.3010299956639812

def isOddInteger (x : Float) : Bool := isIntegral x && (truncate x) % 2 != 0

/-- Multiplies `a * 2 ^ ae` by `(x * 2 ^ xe) ^ n`, squaring the base once per binary digit of `n`. -/
def powerLoop : Nat → Nat → Float → Int → Float → Int → Float × Int
  | 0, _, a, ae, _, _ => (a, ae)
  | fuel + 1, n, a, ae, x, xe =>
    if n == 0 then (a, ae)
    else if xe < -4096 || 4096 < xe then (a, ae + xe)
    else
      let (a, ae) := if n % 2 == 1 then (a * x, ae + xe) else (a, ae)
      let x2 := x * x
      let (x2, xe2) := if x2 < 0.5 then (x2 + x2, 2 * xe - 1) else (x2, 2 * xe)
      powerLoop fuel (n / 2) a ae x2 xe2

def finitePower (x y : Float) : Float :=
  let whole := (truncate y).natAbs
  let frac := y.abs - Float.ofNat whole
  if frac != 0 && x < 0 then nan
  else if twoTo 63 ≤ whole then
    if x == -1 then 1 else if (x.abs < 1) == (0 < y) then 0 else infinity
  else
    let (whole, frac) := if 0.5 < frac then (whole + 1, frac - 1) else (whole, frac)
    let a := if frac == 0 then 1 else Float.exp (frac * Float.log x)
    let (x1, xe) := splitExponent x
    let (a, ae) := powerLoop 65 whole a 0 x1 xe
    if y < 0 then scale (1 / a) (-ae) else scale a ae

def power (x y : Float) : Float :=
  if y == 0 || x == 1 then 1
  else if y == 1 then x
  else if x.isNaN || y.isNaN then nan
  else if x == 0 then
    if y < 0 then (if isNegative x && isOddInteger y then -infinity else infinity)
    else if isNegative x && isOddInteger y then x else 0
  else if y.isInf then
    if x == -1 then 1 else if (x.abs < 1) == (0 < y) then 0 else infinity
  else if x.isInf then
    let size : Float := if y < 0 then 0 else infinity
    if isNegative x && isOddInteger y then -size else size
  else if y == 0.5 then x.sqrt
  else if y == -0.5 then 1 / x.sqrt
  else finitePower x y

end LandUse.Number
