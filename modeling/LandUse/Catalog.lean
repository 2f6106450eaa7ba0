import LandUse.Equation.Expr
import LandUse.Settings.Basic
import LandUse.Table.Basic
import LandUse.Text.Basic
import LandUse.Text.Bytes

/-! Dimensions, their values and their lengths, looked up in a memo before a query is run. -/

namespace LandUse

structure Dimension where
  name : String
  column? : Option String

structure Binding where
  dim : String
  value : Cell

def Binding.text (b : Binding) : String := b.dim ++ "=" ++ b.value.toText

def selection (config : Config) (t : Table) (filter : String) : String :=
  let hole := if config.holeField.isEmpty then "nm_hole" else config.holeField
  let filter := Text.trim filter
  " AND ".intercalate
    ((if t.hasColumn hole then [SqlText.quoteName hole ++ " = 0"] else []) ++
      (if filter.isEmpty then [] else ["(" ++ filter ++ ")"]))

def fnv1a (s : String) : UInt64 :=
  (Text.bytes s).foldl (fun h b => (h ^^^ b.toUInt64) * 0x100000001B3) 0xCBF29CE484222325

/-- Numbers by their key, in buckets by the hash of the key. -/
abbrev Buckets := List (UInt64 × List (String × Nat))

namespace Buckets

def bucket (bs : Buckets) (h : UInt64) : List (String × Nat) := (bs.lookup h).getD []

def push (bs : Buckets) (h : UInt64) (entry : String × Nat) : Buckets :=
  match bs with
  | [] => [(h, [entry])]
  | (h', entries) :: rest =>
    if h' == h then (h', entries ++ [entry]) :: rest else (h', entries) :: Buckets.push rest h entry

end Buckets

structure Catalog where
  table : Table
  columns : Dict String
  options : List String
  condition : String
  hash : String → UInt64 := fnv1a

namespace Catalog

structure Memo where
  lengths : Dict Nat := []
  values : Dict (List Value) := []
  levels : List String := []
  counts : Buckets := []

abbrev Query := ExceptT Failure (StateM Memo)

def make (t : Table) (columns : Dict String) (options : List String) (condition : String) :
    Except Failure Catalog := do
  columns.forM fun (name, column) => do
    if name == optionsDimension then
      throw (.dimension "" ("dimension " ++ optionsDimension ++ " is predefined"))
    if !t.hasColumn column then
      throw (.dimension "" ("dimension " ++ name ++ ": table " ++ t.name ++ " has no column " ++ column))
  return { table := t, columns := columns, options := options, condition := condition }

def resolve (c : Catalog) (name : String) : Except Failure Dimension :=
  if name == optionsDimension then .ok ⟨name, none⟩
  else match c.columns.get? name with
    | some column => .ok ⟨name, some column⟩
    | none => .error (.dimension "" ("undefined dimension " ++ name))

def length (c : Catalog) (name : String) : Query Nat := do
  match (← c.resolve name).column? with
  | none => return c.options.length
  | some column =>
    match (← get).lengths.get? name with
    | some n => return n
    | none =>
      let n ← c.table.countDistinct column c.condition
      modify fun m => { m with lengths := m.lengths.set name n }
      return n

def optionValues (c : Catalog) : List Value := (List.range c.options.length).map fun i => .int (Int64.ofNat i)

def values (c : Catalog) (name : String) : Query (List Value) := do
  match (← c.resolve name).column? with
  | none => return c.optionValues
  | some column =>
    match (← get).values.get? name with
    | some vs => return vs
    | none =>
      let vs ← c.table.distinctValues column c.condition
      modify fun m => { m with values := m.values.set name vs }
      return vs

def tupleKey (dim : String) (bound : List Binding) : String :=
  String.join (dim :: bound.map fun b =>
    String.singleton (Char.ofNat 0) ++ b.dim ++ "=" ++ b.value.key)

def levelName (dim : String) (bound : List Binding) : String :=
  String.join (dim :: bound.map fun b => "|" ++ b.dim)

def columnOf (c : Catalog) (name : String) : String := (c.columns.get? name).getD ""

def store (c : Catalog) (counts : Buckets) (entry : String × Nat) : Buckets := counts.push (c.hash entry.1) entry

/-- Keys in a bucket are compared, and the first one counts. -/
def count? (c : Catalog) (counts : Buckets) (key : String) : Option Nat := (counts.bucket (c.hash key)).lookup key

def loadLevel (c : Catalog) (dim column : String) (bound : List Binding) : Query Unit := do
  let level := levelName dim bound
  if !(← get).levels.contains level then
    let groups ← c.table.groupCounts (bound.map fun b => c.columnOf b.dim) column c.condition
    let counts := groups.map fun (tuple, n) =>
      (tupleKey dim ((bound.zip tuple).map fun (b, v) => ⟨b.dim, some v⟩), n)
    modify fun m => { m with levels := level :: m.levels, counts := counts.foldl c.store m.counts }

def cascade (c : Catalog) (dim column : String) (outer : List Binding) : List Binding → Query Nat
  | [] => return 0
  | b :: inner => do
    let bound := outer ++ [b]
    c.loadLevel dim column bound
    match c.count? (← get).counts (tupleKey dim bound) with
    | none | some 0 => return 0
    | some n => if inner.isEmpty then return n else c.cascade dim column bound inner

def restricting (c : Catalog) (dim : String) : List Binding → Except Failure (Option (List Binding))
  | [] => .ok (some [])
  | b :: bs => do
    let d ← c.resolve b.dim
    if b.dim == dim then return none
    let rest ← c.restricting dim bs
    return if d.column?.isSome then rest.map (b :: ·) else rest

/-- Bindings of options do not restrict rows; a dimension that is bound itself has one value. -/
def conditionalLength (c : Catalog) (dim : String) (outer : List Binding) : Query Nat := do
  match (← c.resolve dim).column? with
  | none => return c.options.length
  | some column =>
    match ← c.restricting dim outer with
    | none => return 1
    | some [] => c.length dim
    | some bound => c.cascade dim column [] bound

end Catalog

end LandUse
