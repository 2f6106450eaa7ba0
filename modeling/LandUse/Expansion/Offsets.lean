import LandUse.Catalog

/-! A variable has an instance for every tuple of values; instances are numbered without gaps, continuous ones first. -/

namespace LandUse

structure VariableInstance where
  name : String
  tuple : List Value
  kind : VariableKind

namespace VariableInstance

def keyOf (name : String) (tuple : List Cell) : String :=
  name ++ String.singleton (Char.ofNat 0) ++ Cell.tupleKey tuple

def key (v : VariableInstance) : String := keyOf v.name (v.tuple.map some)

def valueText (dim? : Option String) (v : Cell) : String :=
  let plain := (v.map Value.toText).getD ""
  if dim? == some optionsDimension then
    match v.toInt with
    | .ok n => toString (n + 1).toInt
    | .error _ => plain
  else plain

def tupleText : List String → List Cell → String
  | _, [] => ""
  | [], v :: vs => "_" ++ valueText none v ++ tupleText [] vs
  | d :: dims, v :: vs => "_" ++ valueText (some d) v ++ tupleText dims vs

def nameOf (name : String) (dims : List String) (tuple : List Cell) : String := name ++ tupleText dims tuple

end VariableInstance

structure Offsets where
  declared : List Variable := []
  entries : List VariableInstance := []
  keys : List String := []

namespace Offsets

def declaration? (o : Offsets) (name : String) : Option Variable := o.declared.find? (·.name == name)

def declare (o : Offsets) (v : Variable) : Except Failure Offsets :=
  match o.declaration? v.name with
  | some _ => .error (.lookup "" (-1) ("variable " ++ v.name ++ " declared twice"))
  | none => .ok { o with declared := o.declared ++ [v] }

def tuples : List (List Value) → List (List Value)
  | [] => [[]]
  | vs :: rest => vs.flatMap fun v => (tuples rest).map (v :: ·)

def enumerate (c : Catalog) (o : Offsets) (v : Variable) : Catalog.Query Offsets := do
  let values ← v.dimensions.mapM c.values
  let entries := (tuples values).map fun t => (⟨v.name, t, v.kind⟩ : VariableInstance)
  return { o with entries := o.entries ++ entries, keys := o.keys ++ entries.map (·.key) }

def enumerateEach (c : Catalog) (o : Offsets) (memo : Catalog.Memo) : List Variable →
    Except Failure Unit × Offsets × Catalog.Memo
  | [] => (.ok (), o, memo)
  | v :: vs =>
    match (enumerate c o v).run memo with
    | (.ok o, memo) => enumerateEach c o memo vs
    | (.error e, memo) => (.error e, o, memo)

def ordered (o : Offsets) : List Variable :=
  o.declared.filter (·.kind == .real) ++ o.declared.filter (·.kind != .real)

def build (c : Catalog) (o : Offsets) (memo : Catalog.Memo) : Except Failure Unit × Offsets × Catalog.Memo :=
  enumerateEach c { o with entries := [], keys := [] } memo o.ordered

def dimensionsOf (o : Offsets) (name : String) : List String :=
  ((o.declaration? name).map (·.dimensions)).getD []

def lastIndex (key : String) (keys : List String) : Option Nat :=
  (keys.reverse.findIdx? (· == key)).map fun i => keys.length - 1 - i

def offset (o : Offsets) (name : String) (tuple : List Cell) : Except Failure Nat :=
  match lastIndex (VariableInstance.keyOf name tuple) o.keys with
  | some i => .ok i
  | none => .error (.lookup "" (-1)
      ("no decision variable " ++ VariableInstance.nameOf name (o.dimensionsOf name) tuple))

def nameOf (o : Offsets) (v : VariableInstance) : String :=
  VariableInstance.nameOf v.name (o.dimensionsOf v.name) (v.tuple.map some)

def names (o : Offsets) : List String := o.entries.map o.nameOf

end Offsets

end LandUse
