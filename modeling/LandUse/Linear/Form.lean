import LandUse.Scalar

/-! Linear forms. Terms are dropped where a product makes them negligible, but stay where a sum cancels them. -/

namespace LandUse

abbrev Coeffs (α : Type) := List (Int × α)

namespace Coeffs

variable {α : Type}

def get? (cs : Coeffs α) (k : Int) : Option α := cs.lookup k

def modify (cs : Coeffs α) (k : Int) (f : Option α → α) : Coeffs α :=
  match cs with
  | [] => [(k, f none)]
  | (i, c) :: rest =>
    if k == i then (i, f (some c)) :: rest
    else if k < i then (k, f none) :: (i, c) :: rest
    else (i, c) :: Coeffs.modify rest k f

def set (cs : Coeffs α) (k : Int) (c : α) : Coeffs α := cs.modify k fun _ => c

def ofList (entries : List (Int × α)) : Coeffs α := entries.foldl (fun cs (k, c) => cs.set k c) []

end Coeffs

structure LinearForm (α : Type) where
  constant : α
  coeffs : Coeffs α

namespace LinearForm

open Scalar

variable {α : Type} [Scalar α]

def clean (c : α) : α := if negligible c then zero else c

def ofConstant (c : α) : LinearForm α := ⟨clean c, []⟩

def ofVariable (offset : Int) : LinearForm α :=
  if offset == -1 then ⟨one, []⟩ else ⟨zero, [(offset, one)]⟩

def constant? (p : LinearForm α) : Option α := if p.coeffs.isEmpty then some p.constant else none

def combine (op : α → α → α) (p q : LinearForm α) : LinearForm α where
  constant := if negligible q.constant then p.constant else op p.constant q.constant
  coeffs := q.coeffs.foldl (fun cs (k, c) =>
    if negligible c then cs else cs.modify k fun b => op (b.getD zero) c) p.coeffs

def add (p q : LinearForm α) : LinearForm α := combine (· + ·) p q

def sub (p q : LinearForm α) : LinearForm α := combine (· - ·) p q

def scale (p : LinearForm α) (c : α) : LinearForm α where
  constant := clean (p.constant * c)
  coeffs := (p.coeffs.map fun (k, a) => (k, a * c)).filter fun (_, a) => !negligible a

def nonzero (p : LinearForm α) : Coeffs α := p.coeffs.filter fun (_, c) => !isZero c

end LinearForm

end LandUse
