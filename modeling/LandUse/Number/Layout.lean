import LandUse.Number.Digits

/-! `general` is what tables, keys and messages show, `plain?` what model files hold. -/

namespace LandUse.Number

def digitText (ds : List Nat) : String := String.ofList (ds.map fun d => Char.ofNat (d + 48))

def zeros (n : Nat) : String := String.ofList (List.replicate n '0')

def positional (d : Digits) : String :=
  if d.exponent < 0 then "0." ++ zeros (-d.exponent - 1).toNat ++ digitText d.digits
  else
    let whole := d.exponent.toNat + 1
    if d.digits.length ≤ whole then digitText d.digits ++ zeros (whole - d.digits.length)
    else digitText (d.digits.take whole) ++ "." ++ digitText (d.digits.drop whole)

def exponentText (x : Int) : String :=
  let n := x.natAbs
  (if x < 0 then "e-" else "e+") ++ (if n < 10 then "0" else "") ++ toString n

def scientific (d : Digits) : String :=
  match d.digits with
  | [] => "0" ++ exponentText d.exponent
  | [a] => digitText [a] ++ exponentText d.exponent
  | a :: r => digitText [a] ++ "." ++ digitText r ++ exponentText d.exponent

def signText (negative : Bool) : String := if negative then "-" else ""

/-- The fewest digits that read back, positional for exponents from -4 to 5. -/
def general (x : Float) : String :=
  match parts x with
  | .nan => "NaN"
  | .infinite negative => if negative then "-Inf" else "+Inf"
  | .finite negative m q =>
    if m == 0 then signText negative ++ "0"
    else
      let d := shortest m q
      signText negative ++ if -4 ≤ d.exponent && d.exponent ≤ 5 then positional d else scientific d

def plain? (x : Float) : Option String :=
  match parts x with
  | .finite negative m q =>
    some (if m == 0 then "0" else signText negative ++ positional (distinguishing m q))
  | _ => none

def significant (count : Nat) (x : Float) : String :=
  match parts x with
  | .nan => "NaN"
  | .infinite negative => if negative then "-Inf" else "+Inf"
  | .finite negative m q =>
    signText negative ++ scientific (if m == 0 then ⟨List.replicate count 0, 0⟩ else rounded m q count)

end LandUse.Number
