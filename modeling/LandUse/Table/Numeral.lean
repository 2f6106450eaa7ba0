import LandUse.Number.Layout
import LandUse.Number.Pair
import LandUse.Number.Reader

/-! Numbers go through pairs of floating point numbers, whose last digits may differ from the nearest ones. -/

namespace LandUse

structure Numeral where
  negative : Bool
  whole : List Char
  fraction : Option (List Char)
  exponent : Option Int

namespace Numeral

def exponentSize (ds : List Char) : Int :=
  ds.foldl (fun e c => if e < 10000 then 10 * e + (Number.hexValue c : Int) else 10000) 0

def splitExponent (cs : List Char) : Option Int × List Char :=
  match cs with
  | c :: r =>
    let (negative, ds) := Number.splitSign r
    let digits := ds.takeWhile Number.isDigit
    if (c == 'e' || c == 'E') && !digits.isEmpty then
      (some (if negative then -exponentSize digits else exponentSize digits), ds.dropWhile Number.isDigit)
    else (none, cs)
  | [] => (none, [])

def split (cs : List Char) : Numeral × List Char :=
  let (negative, cs) := Number.splitSign cs
  let whole := cs.takeWhile Number.isDigit
  let (fraction, rest) := match cs.dropWhile Number.isDigit with
    | '.' :: r => (some (r.takeWhile Number.isDigit), r.dropWhile Number.isDigit)
    | r => (none, r)
  let (exponent, rest) := splitExponent rest
  (⟨negative, whole, fraction, exponent⟩, rest)

def digits (n : Numeral) : List Char := n.whole ++ n.fraction.getD []

def integer? (n : Numeral) : Option Int :=
  match n.fraction, n.exponent with
  | none, none =>
    let m := Number.digitsValue 10 n.whole
    some (if n.negative then -(m : Int) else m)
  | _, _ => none

def collect : Nat → List Char → Nat × List Char
  | m, [] => (m, [])
  | m, c :: cs => if m < 1844674407370955160 then collect (10 * m + Number.hexValue c) cs else (m, c :: cs)

def grow : Nat → Nat → Int → Nat × Int
  | 0, m, e => (m, e)
  | fuel + 1, m, e => if 0 < e && m < 1844674407370954956 then grow fuel (10 * m) (e - 1) else (m, e)

def shrink : Nat → Nat → Int → Nat × Int
  | 0, m, e => (m, e)
  | fuel + 1, m, e => if e < 0 && m % 10 == 0 then shrink fuel (m / 10) (e + 1) else (m, e)

def value (n : Numeral) : Float :=
  let (m, left) := collect 0 n.digits
  let size : Float :=
    if m == 0 then 0
    else
      let e : Int := n.exponent.getD 0 + left.length - (n.fraction.getD []).length
      let (m, e) := grow 20 m e
      let (m, e) := shrink 20 m e
      let p := (Number.Pair.ofNat m).timesTenTo e
      let x := p.high + p.low
      if x.isNaN then Number.infinity else x
  if n.negative then -size else size

def leadingDigits (x : Float) : Number.Digits :=
  let (p, e) := Number.Pair.scaled x
  let v := p.whole.toNat
  let ds := Number.digitList v
  let cut := Number.tenTo (ds.length - 15)
  let r := Number.digitList ((2 * v + cut) / (2 * cut))
  ⟨Number.stripZeros r, e + (ds.length - 15 : Nat) + r.length - 1⟩

def text (x : Float) : String :=
  match Number.parts x with
  | .nan => ""
  | .infinite negative => if negative then "-Inf" else "Inf"
  | .finite negative m _ =>
    if m == 0 then "0.0"
    else
      let d := leadingDigits x.abs
      Number.signText negative ++
        if -4 ≤ d.exponent && d.exponent ≤ 14 then
          let t := Number.positional d
          if t.toList.contains '.' then t else t ++ ".0"
        else
          match d.digits with
          | [a] => Number.digitText [a] ++ ".0" ++ Number.exponentText d.exponent
          | _ => Number.scientific d

end Numeral

end LandUse
