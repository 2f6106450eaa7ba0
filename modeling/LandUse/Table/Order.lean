import LandUse.Value

/-! Empty cells, then numbers by value, then texts by their bytes. -/

namespace LandUse

namespace Value

def compareInt (i : Int) (x : Float) : Ordering :=
  match Number.parts x with
  | .nan => .gt
  | .infinite negative => if negative then .gt else .lt
  | .finite negative m q =>
    let n : Int := if negative then -(m : Int) else m
    if 0 ≤ q then compare i (n * Number.twoTo q.toNat) else compare (i * Number.twoTo (-q).toNat) n

def order : Value → Value → Ordering
  | text s, text t => compare s t
  | text _, _ => .gt
  | _, text _ => .lt
  | int i, int j => compare i.toInt j.toInt
  | int i, double x => compareInt i.toInt x
  | double x, int i => (compareInt i.toInt x).swap
  | double x, double y => if x < y then .lt else if y < x then .gt else .eq

end Value

namespace Cell

def order : Cell → Cell → Ordering
  | none, none => .eq
  | none, some _ => .lt
  | some _, none => .gt
  | some v, some w => v.order w

def orderRows : List Cell → List Cell → Ordering
  | [], [] => .eq
  | [], _ :: _ => .lt
  | _ :: _, [] => .gt
  | a :: as, b :: bs => (a.order b).then (orderRows as bs)

end Cell

end LandUse
