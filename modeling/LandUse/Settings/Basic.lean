import LandUse.Comparison
import LandUse.Dict
import LandUse.Equation.Expr
import LandUse.Number.Parts

/-! Land-use options, criteria with one field per option, objectives and constraints, and models as equations. -/

namespace LandUse

inductive VariableKind where
  | real | int | binary
deriving DecidableEq

def VariableKind.name : VariableKind → String
  | real => "DV_REAL"
  | int => "DV_INTEGER"
  | binary => "DV_BINARY"

inductive AreaUnit where
  | mapUnits | percentOfTotal | percentOfSelected | percentOfZone
deriving DecidableEq

namespace AreaUnit

def name : AreaUnit → String
  | mapUnits => "map_units"
  | percentOfTotal => "percent_of_total"
  | percentOfSelected => "percent_of_selected"
  | percentOfZone => "percent_of_zone"

def all : List AreaUnit := [mapUnits, percentOfTotal, percentOfSelected, percentOfZone]

def ofName? (s : String) : Option AreaUnit := all.find? (·.name == s)

end AreaUnit

structure Objective where
  label : String
  criterion : String
  sense : Sense
  weight : Float

structure ArealConstraint where
  label : String
  option : String
  zone : String
  op : Comparison
  value : Float
  unit : AreaUnit

structure CriterionConstraint where
  label : String
  criterion : String
  option : String
  zone : String
  fields : List String
  op : Comparison
  rhs : Float

def CriterionConstraint.isTotal (c : CriterionConstraint) : Bool := Text.equalFold c.option "total"

structure ObjectiveConstraint where
  label : String
  criterion : String
  op : Comparison
  value : Float

/-- A literal, the value of a column, or of one column per option. With `contains` it is one where the text of the
option's column contains the option's string, else zero. -/
structure Parameter where
  name : String
  columns : List String
  literal : Option Float
  scale : Float
  contains : List String

structure Variable where
  name : String
  dimensions : List String
  lower : Float
  upper : Float
  hasBounds : Bool
  kind : VariableKind

structure Constraint where
  name : String
  equation : String
  op : Comparison
  rhs : Float

structure EquationObjective where
  name : String
  equation : String
  sense : Sense
  weight : Float

structure Settings where
  kind : VariableKind := .real
  criterionLayer : String := ""
  landUseField : String := ""
  areaField : String := ""
  idField : String := "nm_id"
  unitDimension : String := ""
  options : List String := []
  criteria : Dict (List String) := []
  evalFields : Dict (List String) := []
  interactive : Bool := false
  objectives : List Objective := []
  arealConstraints : List ArealConstraint := []
  criteriaConstraints : List CriterionConstraint := []
  objectiveConstraints : List ObjectiveConstraint := []
  equations : Dict String := []
  dimensions : Dict String := []
  parameters : Dict Parameter := []
  decisions : List Variable := []
  constraints : List Constraint := []
  equationObjectives : List EquationObjective := []

namespace Settings

def optionIndex? (s : Settings) (name : String) : Option Nat := foldIndex? s.options name

def findVariable (s : Settings) (name : String) : Option Variable := s.decisions.find? (·.name == name)

def symbols (s : Settings) : Symbols where
  isEquation := s.equations.contains
  isParameter := s.parameters.contains
  variableArity? name := (s.findVariable name).map (·.dimensions.length)
  isDimension := s.dimensions.contains
  optionIndex? := s.optionIndex?

def hasClassicModel (s : Settings) : Bool := !s.objectives.isEmpty

end Settings

structure Config where
  unitDimension : String := "SDU"
  holeField : String := "nm_hole"
  arealVariable : String := "X"
  binaryVariable : String := "b"

end LandUse
