import LandUse.Catalog
import LandUse.Table.Sum
import LandUse.Text.Basic

/-! A bound on an area may be a percentage of that of all units, or of those whose zone mentions the option. -/

namespace LandUse

def AreaUnit.ofText (s : String) : AreaUnit := (AreaUnit.ofName? (Text.lower s)).getD .mapUnits

def Cell.mentions (part : String) : Cell → Bool
  | none => false
  | some v =>
    match Affinity.toText v with
    | .text s => Text.contains s part
    | _ => false

namespace Area

variable {α : Type} [Scalar α]

def queryText (s : Settings) (t : Table) (condition : String) : String :=
  "SELECT SUM(" ++ SqlText.quoteName s.areaField ++ ") FROM " ++ SqlText.quoteName t.name ++
    Table.whereClause condition

def require (query : String) : Option α → Except Failure α
  | some a => .ok a
  | none => .error (.access ("query failed: " ++ query) none)

def total (config : Config) (s : Settings) (t : Table) : Except Failure α :=
  let condition := selection config t ""
  require (queryText s t condition) (t.sum? s.areaField condition fun _ => true)

def ofZone (config : Config) (s : Settings) (t : Table) (option zone : String) : Except Failure α :=
  let mention := "instr(" ++ SqlText.quoteName zone ++ ", " ++ SqlText.quoteText option ++ ") > 0"
  let sum? := do
    let (i, _) ← t.filterColumns zone
    t.sum? s.areaField (selection config t "") fun row => Cell.mentions option ((row[i]?).join)
  require (queryText s t (selection config t mention)) sum?

def base (config : Config) (s : Settings) (t : Table) (unit : AreaUnit) (option zone : String) :
    Except Failure (Option α) :=
  match unit with
  | .mapUnits => .ok none
  | .percentOfTotal | .percentOfSelected => (total config s t).map some
  | .percentOfZone => (if zone.isEmpty then total config s t else ofZone config s t option zone).map some

def convert (config : Config) (s : Settings) (t : Table) (value : Float) (unit : AreaUnit) (option zone : String) :
    Except Failure α := do
  let v := match ← base config s t unit option zone with
    | none => Scalar.ofFloat value
    | some area => area * Scalar.ofFloat value / Scalar.ofFloat 100
  return if s.kind = .int then Scalar.floor v else v

end Area

end LandUse
