import LandUse.Comparison
import LandUse.Failure
import LandUse.Linear.Form
import LandUse.Settings.Basic

/-! Linear programs as sparse matrices: only coefficients other than zero are stored. -/

namespace LandUse

inductive RowRelation where
  | le | ge | eq
  | unknown
deriving DecidableEq

namespace RowRelation

def symbol : RowRelation → String
  | le => "<="
  | ge => ">="
  | eq => "="
  | unknown => "?"

def ofNumber : Int → RowRelation
  | 1 => le
  | 2 => ge
  | 3 => eq
  | _ => unknown

end RowRelation

def Comparison.rowRelation : Comparison → Except Failure RowRelation
  | le => .ok .le
  | ge => .ok .ge
  | eq => .ok .eq
  | none => .error (.dimension "" ("comparison " ++ Text.quote Comparison.none.symbol ++ " cannot be a row relation"))

structure MatrixColumn where
  name : String
  kind : VariableKind
  lower : Float
  upper : Float

structure MatrixRow (α : Type) where
  name : String
  coeffs : Coeffs α
  relation : RowRelation
  rhs : α

structure Matrix (α : Type) where
  columns : List MatrixColumn := []
  rows : List (MatrixRow α) := []
  objective : Coeffs α := []
  sense : Sense := .minimize

namespace Matrix

open Scalar

variable {α : Type} [Scalar α]

def column? (m : Matrix α) (name : String) : Option Nat := m.columns.findIdx? (·.name == name)

def addColumn (m : Matrix α) (name : String) (kind : VariableKind) : Except Failure (Nat × Matrix α) :=
  match m.column? name with
  | some _ => .error (.lookup "" (-1) ("duplicate column " ++ name))
  | none =>
    let upper := if kind = .binary then 1 else Number.infinity
    .ok (m.columns.length, { m with columns := m.columns ++ [⟨name, kind, 0, upper⟩] })

def hasColumn (m : Matrix α) (k : Int) : Bool := 0 ≤ k && k < m.columns.length

def bound (m : Matrix α) (i : Nat) (lower upper : Float) : Matrix α :=
  { m with columns := m.columns.modify i fun c => { c with lower := lower, upper := upper } }

def setBounds (m : Matrix α) (col : Int) (lower upper : Float) : Except Fault (Matrix α) :=
  if m.hasColumn col then .ok (m.bound col.toNat lower upper) else .error .violation

def dropZeros (cs : Coeffs α) : Coeffs α := cs.filter fun (_, c) => !isZero c

def addRow (m : Matrix α) (name : String) (coeffs : Coeffs α) (relation : RowRelation) (rhs : α) :
    Except Failure (Nat × Matrix α) :=
  match coeffs.find? fun (k, _) => !m.hasColumn k with
  | some (k, _) => .error (.lookup "" (-1) ("row " ++ name ++ " refers to unknown column " ++ toString k))
  | none => .ok (m.rows.length, { m with rows := m.rows ++ [⟨name, dropZeros coeffs, relation, rhs⟩] })

def nonZeros (m : Matrix α) (row : Int) : Except Fault Nat :=
  if 0 ≤ row then
    match m.rows[row.toNat]? with
    | some r => .ok r.coeffs.length
    | none => .error .violation
  else .error .violation

def setSense (m : Matrix α) (sense : Sense) : Matrix α := { m with sense := sense }

def setObjective (m : Matrix α) (coeffs : Coeffs α) (sense : Sense) : Matrix α :=
  { m with objective := dropZeros coeffs, sense := sense }

def addObjective (m : Matrix α) (coeffs : Coeffs α) : Matrix α :=
  { m with objective := coeffs.foldl (fun obj (k, c) =>
      let sum := (obj.get? k).getD zero + c
      if isZero sum then obj.filter fun (i, _) => i != k else obj.set k sum) m.objective }

def dot (m : Matrix α) (coeffs : Coeffs α) (x : List α) : Except Fault α :=
  if coeffs.all (fun (k, _) => m.hasColumn k) && x.length == m.columns.length then
    .ok (Scalar.sum (x.zipIdx.map fun (v, i) => (coeffs.get? i).getD zero * v))
  else .error .violation

def activity (m : Matrix α) (row : Int) (x : List α) : Except Fault α :=
  if 0 ≤ row then
    match m.rows[row.toNat]? with
    | some r => m.dot r.coeffs x
    | none => .error .violation
  else .error .violation

def objectiveValue (m : Matrix α) (x : List α) : Except Fault α := m.dot m.objective x

end Matrix

namespace MatrixColumn

def fraction (x : Float) : Float := (x - Number.roundAway x).abs

def admits (c : MatrixColumn) (x tolerance : Float) : Bool :=
  !(x < c.lower - tolerance || x > c.upper + tolerance) &&
    (c.kind == .real || !(fraction x > tolerance))

end MatrixColumn

namespace MatrixRow

def admits (r : MatrixRow Float) (a tolerance : Float) : Bool :=
  match r.relation with
  | .le => !(a > r.rhs + tolerance)
  | .ge => !(a < r.rhs - tolerance)
  | .eq => !((a - r.rhs).abs > tolerance)
  | .unknown => true

end MatrixRow

def Matrix.feasible (m : Matrix Float) (x : List Float) (tolerance : Float) : Bool :=
  x.length == m.columns.length &&
    (m.columns.zip x).all (fun (c, v) => c.admits v tolerance) &&
    m.rows.all fun r =>
      match m.dot r.coeffs x with
      | .ok a => r.admits a tolerance
      | .error _ => false

end LandUse
