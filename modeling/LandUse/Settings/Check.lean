import LandUse.Equation.Expr
import LandUse.Settings.Basic
import LandUse.Text.Quoted

namespace LandUse

inductive CheckCause where
  | column (place name : String)
  | noOptions
  | criterionFields (name : String) (got expected : Nat)
  | evaluationFields (name : String) (got expected : Nat)
  | noAreaField
  | objectiveCriterion (label criterion : String)
  | constraintCriterion (label criterion : String)
  | arealOption (label option : String)
  | totalFields (label : String) (expected : Nat)
  | criterionOption (label option : String)
  | singleField (label : String)
  | parameterColumns (name : String) (got expected : Nat)
  | noDimensions (name : String)
  | variableDimension (name dim : String)
  | bounds (name : String)
  | constraintEquation (name equation : String)
  | objectiveEquation (name equation : String)

def CheckCause.message : CheckCause → String
  | column place name => place ++ ": column " ++ Text.quote name ++ " does not exist"
  | noOptions => "no land-use options specified"
  | criterionFields name got expected =>
    "criterion " ++ name ++ " has " ++ toString got ++ " fields for " ++ toString expected ++ " options"
  | evaluationFields name got expected =>
    "evaluation of " ++ name ++ " has " ++ toString got ++ " fields for " ++ toString expected ++ " options"
  | noAreaField => "no AREA_FIELD specified"
  | objectiveCriterion label criterion => "objective " ++ label ++ ": unknown criterion " ++ criterion
  | constraintCriterion label criterion => "objective constraint " ++ label ++ ": unknown criterion " ++ criterion
  | arealOption label option => "areal constraint " ++ label ++ ": unknown option " ++ option
  | totalFields label expected => "criteria constraint " ++ label ++ " needs " ++ toString expected ++ " fields"
  | criterionOption label option => "criteria constraint " ++ label ++ ": unknown option " ++ option
  | singleField label => "criteria constraint " ++ label ++ " needs a single field"
  | parameterColumns name got expected =>
    "parameter " ++ name ++ " has " ++ toString got ++ " columns, expected 1 or " ++ toString expected
  | noDimensions name => "variable " ++ name ++ " has no dimensions"
  | variableDimension name dim => "variable " ++ name ++ ": unknown dimension " ++ dim
  | bounds name => "variable " ++ name ++ ": lower bound exceeds upper bound"
  | constraintEquation name equation => "constraint " ++ name ++ ": unknown equation " ++ equation
  | objectiveEquation name equation => "objective " ++ name ++ ": unknown equation " ++ equation

namespace Settings

def require (ok : Bool) (cause : CheckCause) : Except CheckCause Unit := if ok then .ok () else .error cause

variable (exists? : String → Bool)

def checkColumn (place name : String) : Except CheckCause Unit := require (exists? name) (.column place name)

def checkCriteria (s : Settings) : Except CheckCause Unit :=
  s.criteria.forM fun (name, fields) => do
    require (fields.length == s.options.length) (.criterionFields name fields.length s.options.length)
    fields.forM (checkColumn exists? ("criterion " ++ name))

def checkEvaluations (s : Settings) : Except CheckCause Unit :=
  s.evalFields.forM fun (name, fields) =>
    require (fields.length == s.options.length) (.evaluationFields name fields.length s.options.length)

def checkArea (s : Settings) : Except CheckCause Unit :=
  if s.hasClassicModel || !s.arealConstraints.isEmpty then do
    require (!s.areaField.isEmpty) .noAreaField
    checkColumn exists? "AREA_FIELD" s.areaField
  else .ok ()

def checkObjectives (s : Settings) : Except CheckCause Unit := do
  s.objectives.forM fun o => require (s.criteria.contains o.criterion) (.objectiveCriterion o.label o.criterion)
  s.objectiveConstraints.forM fun c =>
    require (s.criteria.contains c.criterion) (.constraintCriterion c.label c.criterion)

def checkZone (place zone : String) : Except CheckCause Unit :=
  if zone.isEmpty then .ok () else checkColumn exists? place zone

def checkArealConstraints (s : Settings) : Except CheckCause Unit :=
  s.arealConstraints.forM fun c => do
    require (s.optionIndex? c.option).isSome (.arealOption c.label c.option)
    checkZone exists? ("areal constraint " ++ c.label) c.zone

def checkCriteriaConstraints (s : Settings) : Except CheckCause Unit :=
  s.criteriaConstraints.forM fun c => do
    if c.isTotal then require (c.fields.length == s.options.length) (.totalFields c.label s.options.length)
    else
      require (s.optionIndex? c.option).isSome (.criterionOption c.label c.option)
      require (c.fields.length == 1) (.singleField c.label)
    c.fields.forM (checkColumn exists? ("criteria constraint " ++ c.label))
    checkZone exists? ("criteria constraint " ++ c.label) c.zone

def checkDimensions (s : Settings) : Except CheckCause Unit :=
  s.dimensions.forM fun (name, column) => checkColumn exists? ("dimension " ++ name) column

def checkParameters (s : Settings) : Except CheckCause Unit :=
  s.parameters.forM fun (name, p) => do
    let n := p.columns.length
    require (p.literal.isSome || n == 1 || n == s.options.length) (.parameterColumns name n s.options.length)
    p.columns.forM (checkColumn exists? ("parameter " ++ name))

def checkVariables (s : Settings) : Except CheckCause Unit :=
  s.decisions.forM fun v => do
    require (!v.dimensions.isEmpty) (.noDimensions v.name)
    v.dimensions.forM fun d =>
      require (s.dimensions.contains d || d == optionsDimension) (.variableDimension v.name d)
    require (!(v.upper < v.lower)) (.bounds v.name)

def checkEquations (s : Settings) : Except CheckCause Unit := do
  s.constraints.forM fun c => require (s.equations.contains c.equation) (.constraintEquation c.name c.equation)
  s.equationObjectives.forM fun o => require (s.equations.contains o.equation) (.objectiveEquation o.name o.equation)

def check (s : Settings) : Except CheckCause Unit := do
  require (!s.options.isEmpty) .noOptions
  checkCriteria exists? s
  checkEvaluations s
  checkArea exists? s
  checkObjectives s
  checkArealConstraints exists? s
  checkCriteriaConstraints exists? s
  checkDimensions exists? s
  checkParameters exists? s
  checkVariables s
  checkEquations s

end Settings

end LandUse
