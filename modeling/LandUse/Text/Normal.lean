import LandUse.Text.Normal.Classes
import LandUse.Text.Normal.Parts

/-! Characters are divided into their parts, marks are sorted by class, and what can be composed is composed again. -/

namespace LandUse.Text

def syllableParts? (n : Nat) : Option (Nat × Nat) :=
  if n < 0xAC00 || 0xD7A3 < n then none
  else
    let i := n - 0xAC00
    if i % 28 == 0 then some (0x1100 + i / 588, 0x1161 + i % 588 / 28) else some (n - i % 28, 0x11A7 + i % 28)

def syllable? (a b : Nat) : Option Nat :=
  if 0x1100 ≤ a && a < 0x1113 && 0x1161 ≤ b && b < 0x1176 then
    some (0xAC00 + (a - 0x1100) * 588 + (b - 0x1161) * 28)
  else if 0xAC00 ≤ a && a ≤ 0xD7A3 && (a - 0xAC00) % 28 == 0 && 0x11A7 < b && b < 0x11C3 then
    some (a + (b - 0x11A7))
  else none

def partsOf (n : Nat) : Option (List Nat) :=
  match syllableParts? n, (composites ++ divided).find? (·.whole == n), aliases.find? (·.code == n) with
  | some (a, b), _, _ => some [a, b]
  | none, some c, _ => some [c.first, c.second]
  | none, none, some a => some [a.meaning]
  | none, none, none => none

def divide : Nat → Nat → List Char
  | 0, n => [Char.ofNat n]
  | fuel + 1, n =>
    if n < 0xC0 then [Char.ofNat n]
    else match partsOf n with
      | some parts => parts.flatMap (divide fuel)
      | none => [Char.ofNat n]

def allParts (c : Char) : List Char := divide 8 c.toNat

def composed? (a b : Char) : Option Char :=
  if b.toNat < 0x300 then none
  else match syllable? a.toNat b.toNat, composites.find? fun c => c.first == a.toNat && c.second == b.toNat with
    | some n, _ => some (Char.ofNat n)
    | none, some c => some (Char.ofNat c.whole)
    | none, none => none

def sortMarks : Nat → List Char → List Char
  | 0, cs => cs
  | _, [] => []
  | fuel + 1, c :: cs =>
    if combiningClass c == 0 then c :: sortMarks fuel cs
    else
      let isMark (d : Char) : Bool := combiningClass d != 0
      ((c :: cs).takeWhile isMark).mergeSort (fun a b => combiningClass a ≤ combiningClass b) ++
        sortMarks fuel ((c :: cs).dropWhile isMark)

/-- The last character that is no mark, the marks behind it and what is done, each the last one first. -/
structure Composing where
  done : List Char
  base : Option Char
  marks : List Char

namespace Composing

def flush (s : Composing) : List Char := s.marks ++ s.base.toList ++ s.done

def reaches (s : Composing) (c : Char) : Bool :=
  match s.marks with
  | [] => true
  | m :: _ => combiningClass m < combiningClass c

def push (s : Composing) (c : Char) : Composing :=
  match if s.reaches c then s.base.bind (composed? · c) else none with
  | some b => { s with base := some b }
  | none => if combiningClass c == 0 then ⟨s.flush, some c, []⟩ else { s with marks := c :: s.marks }

end Composing

def compose (cs : List Char) : List Char := (cs.foldl Composing.push ⟨[], none, []⟩).flush.reverse

def limitMarks : Nat → List Char → List Char
  | _, [] => []
  | count, c :: cs =>
    let isMark (d : Char) : Bool := combiningClass d != 0
    let ds := allParts c
    let leading := (ds.takeWhile isMark).length
    if leading == 0 then c :: limitMarks (ds.reverse.takeWhile isMark).length cs
    else if 30 < count + leading then Char.ofNat 0x34F :: c :: limitMarks leading cs
    else c :: limitMarks (count + leading) cs

def normalize (s : String) : String :=
  let cs := s.toList
  if cs.all (·.toNat < 0x300) then s
  else
    let parts := (limitMarks 0 cs).flatMap allParts
    String.ofList (compose (sortMarks parts.length parts))

end LandUse.Text
