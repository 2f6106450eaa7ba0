import LandUse.Failure
import LandUse.Table.Affinity
import LandUse.Table.Filter

namespace LandUse

structure Column where
  name : String
  type : ValueType

structure Table where
  name : String
  columns : List Column
  rows : List (List Cell)

abbrev Row := List Value

namespace Table

def asciiLower (s : String) : String := String.ofList (s.toList.map Char.toLower)

/-- Names that start with `sqlite_` are reserved, and none can be written with a zero character. -/
def isCreatable (name : String) (columns : List Column) : Bool :=
  let names := columns.map fun c => asciiLower c.name
  !columns.isEmpty && names.eraseDups.length == names.length &&
    !("sqlite_".toList.isPrefixOf (asciiLower name).toList) &&
    (name :: names).all SqlText.isWritable

def create (name : String) (columns : List Column) (rows : List (List Cell)) : Except Failure Table := do
  if !isCreatable name columns then
    throw (.access ("cannot create table " ++ name) none)
  let stored ← rows.zipIdx.mapM fun (row, i) =>
    if row.length == columns.length then
      Except.ok ((columns.zip row).map fun (c, cell) => c.type.store cell)
    else .error (.access ("table " ++ name ++ ": row " ++ toString i ++ " has " ++
      toString row.length ++ " values") none)
  return ⟨name, columns, stored⟩

def columnNames (t : Table) : List String := t.columns.map (·.name)

def columnIndex? (t : Table) (name : String) : Option Nat := t.columnNames.findIdx? (· == name)

def hasColumn (t : Table) (name : String) : Bool := (t.columnIndex? name).isSome

def numberNames : List String := ["rowid", "oid", "_rowid_"]

def filterColumns (t : Table) : Filter.Columns := fun name =>
  match t.columns.findIdx? fun c => asciiLower c.name == asciiLower name with
  | some i => (t.columns[i]?).map fun c => (i, c.type)
  | none => if numberNames.contains (asciiLower name) then some (t.columns.length, .int) else none

def numberedRows (t : Table) : List (List Cell) :=
  t.rows.zipIdx.map fun (row, i) => row ++ [some (.int (Int64.ofNat (i + 1)))]

def selected? (t : Table) (condition : String) : Option (List (List Cell)) :=
  if condition.isEmpty then some t.numberedRows
  else match Filter.read? condition with
    | none => none
    | some c =>
      if c.known t.filterColumns then some (t.numberedRows.filter (c.holds t.filterColumns)) else none

def whereClause (condition : String) : String := if condition.isEmpty then "" else " WHERE " ++ condition

def cellOf (t : Table) (column : String) (row : List Cell) : Cell :=
  match t.columnIndex? column with
  | some i => (row[i]?).getD none
  | none => none

def cellsOf (t : Table) (columns : List String) (row : List Cell) : List Cell := columns.map (t.cellOf · row)

def readCell : Cell → Value
  | some v => v
  | none => .text ""

def readRow (cells : List Cell) : Row := cells.map readCell

def insertSorted {β : Type} (le : β → β → Bool) (b : β) : List β → List β
  | [] => [b]
  | c :: cs => if le b c then b :: c :: cs else c :: insertSorted le b cs

/-- Sorts by insertion: what is equal stays in order. -/
def sorted {β : Type} (le : β → β → Bool) (bs : List β) : List β := bs.foldr (insertSorted le) []

def sortBy (t : Table) (columns : List String) (rows : List (List Cell)) : List (List Cell) :=
  sorted (fun a b => Cell.orderRows (t.cellsOf columns a) (t.cellsOf columns b) != .gt) rows

def select (t : Table) (columns : List String) (condition : String) (orderBy : List String) :
    Except Failure (List Row) :=
  match (columns ++ orderBy).find? fun c => !t.hasColumn c with
  | some c => .error (.lookup "" (-1) ("table " ++ t.name ++ " has no column " ++ c))
  | none =>
    let query := "SELECT " ++ SqlText.quoteNames columns ++ " FROM " ++ SqlText.quoteName t.name ++
      whereClause condition ++
      (if orderBy.isEmpty then "" else " ORDER BY " ++ SqlText.quoteNames orderBy) ++ ";"
    match if columns.isEmpty then none else t.selected? condition with
    | none => .error (.access ("cannot prepare " ++ query) none)
    | some rows => .ok ((t.sortBy orderBy rows).map fun r => readRow (t.cellsOf columns r))

def aggregate (t : Table) (query condition : String) : Except Failure (List (List Cell)) :=
  match t.selected? condition with
  | some rows => .ok rows
  | none => .error (.access ("query failed: " ++ query) none)

def dropRepeatsOf (a : List Cell) : List (List Cell) → List (List Cell)
  | [] => []
  | b :: r => if Cell.orderRows a b == .eq then dropRepeatsOf a r else b :: dropRepeatsOf b r

def dropRepeats : List (List Cell) → List (List Cell)
  | [] => []
  | a :: r => a :: dropRepeatsOf a r

def distinctTuples (tuples : List (List Cell)) : List (List Cell) :=
  dropRepeats (sorted (fun a b => Cell.orderRows a b != .gt) tuples)

def countDistinctCells (cells : List Cell) : Nat :=
  (distinctTuples ((cells.filter Option.isSome).map ([·]))).length

def countDistinct (t : Table) (column condition : String) : Except Failure Nat := do
  let query := "SELECT COUNT(DISTINCT " ++ SqlText.quoteName column ++ ") FROM " ++
    SqlText.quoteName t.name ++ whereClause condition ++ ";"
  let rows ← t.aggregate query condition
  return countDistinctCells (rows.map (t.cellOf column))

def distinctValues (t : Table) (column condition : String) : Except Failure (List Value) := do
  let name := SqlText.quoteName column
  let query := "SELECT DISTINCT " ++ name ++ " FROM " ++ SqlText.quoteName t.name ++
    whereClause condition ++ " ORDER BY " ++ name ++ ";"
  let rows ← t.aggregate query condition
  return (distinctTuples (rows.map fun r => [t.cellOf column r])).flatMap readRow

def groupCounts (t : Table) (groupBy : List String) (column condition : String) :
    Except Failure (List (Row × Nat)) := do
  let names := SqlText.quoteNames groupBy
  let query := "SELECT " ++ names ++ ", COUNT(DISTINCT " ++ SqlText.quoteName column ++ ") FROM " ++
    SqlText.quoteName t.name ++ whereClause condition ++ " GROUP BY " ++ names ++ ";"
  let rows ← t.aggregate query condition
  let tuples := distinctTuples (rows.map (t.cellsOf groupBy))
  return tuples.map fun tuple =>
    let members := rows.filter fun r => Cell.orderRows (t.cellsOf groupBy r) tuple == .eq
    (readRow tuple, countDistinctCells (members.map (t.cellOf column)))

end Table

structure TableReader where
  table : Table
  pending : List Row := []

namespace TableReader

def prepare (r : TableReader) (columns : List String) (condition : String) (orderBy : List String) :
    Except Failure Unit × TableReader :=
  match r.table.select columns condition orderBy with
  | .ok rows => (.ok (), { r with pending := rows })
  | .error e => (.error e, { r with pending := [] })

def next (r : TableReader) : Option Row × TableReader :=
  match r.pending with
  | [] => (none, r)
  | row :: rows => (some row, { r with pending := rows })

end TableReader

end LandUse
