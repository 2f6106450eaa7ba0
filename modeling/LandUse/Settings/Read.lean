import LandUse.Failure
import LandUse.Number.Reader
import LandUse.Settings.Basic
import LandUse.Text.Basic
import LandUse.Text.Quoted

/-! Sections are read in a fixed order, and the keys of a section in the order of their names. -/

namespace LandUse

open Text

abbrev Sections := Dict (Dict String)

inductive ReadCause where
  | optionCount (value : String)
  | criterion (key : String)
  | evaluation (key : String)
  | objective (key : String)
  | areal (key : String)
  | criterionConstraint (key : String)
  | objectiveConstraint (key : String)
  | word (place message : String)
  | weight (place text : String)
  | value (place text : String)
  | unit (key text : String)
  | emptyEquation (name : String)
  | dimension (name text : String)
  | parameter (name : String)
  | unknownScaling (name : String)
  | scaling (name text : String)
  | afterBounds (name text : String)
  | bounds (name : String)
  | constraint (name : String)
  | equationObjective (name : String)
  | optionMismatch (expected got : Nat)

def ReadCause.message : ReadCause → String
  | optionCount text => "NUM_OPTIONS: invalid number " ++ quote text
  | criterion key => key ++ ": criterion needs a name and fields"
  | evaluation key => key ++ ": evaluation needs a criterion and fields"
  | objective key => key ++ ": expected '<min|max> <criterion> [weight]'"
  | areal key => key ++ ": expected '<option[:zone]> <op> <value> <unit>'"
  | criterionConstraint key => key ++ ": expected '<criterion> <option|total> <fields...> <op> <rhs>'"
  | objectiveConstraint key => key ++ ": expected '<criterion> <op> <value>'"
  | word place message => place ++ ": " ++ message
  | weight place text => place ++ ": invalid weight " ++ quote text
  | value place text => place ++ ": invalid value " ++ quote text
  | unit key text => key ++ ": unknown area unit " ++ quote text
  | emptyEquation name => "equation " ++ name ++ " is empty"
  | dimension name text => "dimension " ++ name ++ ": expected a single column, got " ++ quote text
  | parameter name => "parameter " ++ name ++ " has no columns"
  | unknownScaling name => "scaling for unknown parameter " ++ name
  | scaling name text => "scaling of " ++ name ++ ": invalid factor " ++ quote text
  | afterBounds name text => "variable " ++ name ++ ": unexpected " ++ quote text ++ " after bounds"
  | bounds name => "variable " ++ name ++ ": expected lower and upper bound"
  | constraint name => "constraint " ++ name ++ ": expected '<equation> <op> <rhs>'"
  | equationObjective name => "objective " ++ name ++ ": expected '<min|max> <equation> [weight]'"
  | optionMismatch expected got =>
    "NUM_OPTIONS is " ++ toString expected ++ ", but " ++ toString got ++ " options are listed"

namespace Settings

structure Draft where
  settings : Settings
  optionCount : Option Nat

abbrev Reader := Draft → String → String → Except ReadCause Draft

def Draft.update (d : Draft) (f : Settings → Settings) : Draft := { d with settings := f d.settings }

def comparison (place text : String) : Except ReadCause Comparison :=
  match Comparison.ofSymbol? text with
  | some op => .ok op
  | none => .error (.word place (Comparison.invalidMessage text))

def senseOf (place text : String) : Except ReadCause Sense :=
  match Sense.ofName? text with
  | some s => .ok s
  | none => .error (.word place (Sense.invalidMessage text))

def numberOf (cause : ReadCause) (text : String) : Except ReadCause Float :=
  match Number.readFloat text with
  | some x => .ok x
  | none => .error cause

def mentionedKind (word : String) : VariableKind :=
  let w := (upper word).toList
  if occursIn ("BINARY".toList) w then .binary else if occursIn ("INT".toList) w then .int else .real

def problemField (s : Settings) (key value : String) : Settings :=
  if key == "DVTYPE" then { s with kind := mentionedKind value }
  else if key == "CRITERION_LAYER" then { s with criterionLayer := value }
  else if key == "LAND_USE_FIELD" then { s with landUseField := value }
  else if key == "AREA_FIELD" then { s with areaField := value }
  else if key == "ID_FIELD" then { s with idField := value }
  else s

def readProblem : Reader := fun d key value => .ok (d.update (problemField · (upper key) value))

def readCriteria : Reader := fun d key value =>
  let k := upper key
  if k == "NUM_OPTIONS" then
    match Number.readInt64 value with
    | some n => if 0 < n.toInt then .ok { d with optionCount := some n.toInt.toNat } else .error (.optionCount value)
    | none => .error (.optionCount value)
  else if k == "OPTIONS" then .ok (d.update fun s => { s with options := fields value })
  else if startsWith k "CRI_" then
    match fields value with
    | name :: f :: fs => .ok (d.update fun s => { s with criteria := s.criteria.set name (f :: fs) })
    | _ => .error (.criterion key)
  else if startsWith k "EVAL_" then
    match fields value with
    | name :: f :: fs => .ok (d.update fun s => { s with evalFields := s.evalFields.set name (f :: fs) })
    | _ => .error (.evaluation key)
  else .ok d

def weightOf (place : String) : List String → Except ReadCause Float
  | w :: _ => numberOf (.weight place w) w
  | [] => .ok 1

def readObjectives : Reader := fun d key value => do
  let k := upper key
  if k == "AGGR_METHOD" then
    return d.update fun s => { s with interactive := !equalFold value "WSUM" }
  else if startsWith k "OBJ_" then
    match fields value with
    | sense :: criterion :: rest =>
      let sense ← senseOf key sense
      let weight ← weightOf key rest
      return d.update fun s => { s with objectives := s.objectives ++ [⟨key, criterion, sense, weight⟩] }
    | _ => .error (.objective key)
  else return d

def optionZone (spec : String) : String × String :=
  let cs := spec.toList
  (String.ofList (cs.takeWhile (· != ':')), String.ofList ((cs.dropWhile (· != ':')).drop 1))

def readArealConstraint : Reader := fun d key value =>
  if !startsWith (upper key) "AREAL_CONS_" then .ok d
  else match fields value with
    | [spec, op, v, unit] => do
      let op ← comparison key op
      let v ← numberOf (.value key v) v
      match AreaUnit.ofName? (lower unit) with
      | none => .error (.unit key unit)
      | some u =>
        let (option, zone) := optionZone spec
        return d.update fun s => { s with arealConstraints := s.arealConstraints ++
          [⟨key ++ "_" ++ spec, option, zone, op, v, u⟩] }
    | _ => .error (.areal key)

def readCriterionConstraint : Reader := fun d key value =>
  if !startsWith (upper key) "CRI_CONS_" then .ok d
  else match fields value with
    | criterion :: spec :: rest =>
      match rest.reverse with
      | rhs :: op :: f :: fs => do
        let op ← comparison key op
        let rhs ← numberOf (.value key rhs) rhs
        let (option, zone) := optionZone spec
        return d.update fun s => { s with criteriaConstraints := s.criteriaConstraints ++
          [⟨criterion ++ "_" ++ spec ++ "_" ++ op.label, criterion, option, zone, (f :: fs).reverse, op, rhs⟩] }
      | _ => .error (.criterionConstraint key)
    | _ => .error (.criterionConstraint key)

def readObjectiveConstraint : Reader := fun d key value =>
  if !startsWith (upper key) "OBJ_CONS_" then .ok d
  else match fields value with
    | [criterion, op, v] => do
      let op ← comparison key op
      let v ← numberOf (.value key v) v
      return d.update fun s => { s with objectiveConstraints := s.objectiveConstraints ++
        [⟨key ++ "_" ++ criterion, criterion, op, v⟩] }
    | _ => .error (.objectiveConstraint key)

def readEquation : Reader := fun d key value =>
  if value.isEmpty then .error (.emptyEquation key)
  else .ok (d.update fun s => { s with equations := s.equations.set key value })

def readDimension : Reader := fun d key value =>
  if (fields value).length == 1 then .ok (d.update fun s => { s with dimensions := s.dimensions.set key value })
  else .error (.dimension key value)

def parameterOf (name : String) (words : List String) : Parameter :=
  let literal := match words with
    | [w] => Number.readFloat w
    | _ => none
  ⟨name, if literal.isSome then [] else words, literal, 1, []⟩

def readParameter : Reader := fun d key value =>
  match fields value with
  | [] => .error (.parameter key)
  | words => .ok (d.update fun s => { s with parameters := s.parameters.set key (parameterOf key words) })

def readScaling : Reader := fun d key value =>
  match d.settings.parameters.get? key with
  | none => .error (.unknownScaling key)
  | some p => do
    let f ← numberOf (.scaling key value) value
    return d.update fun s => { s with parameters := s.parameters.set key { p with scale := f } }

def kindOf? (word : String) : Option VariableKind :=
  let w := upper word
  if w == "REAL" then some .real
  else if w == "INT" || w == "INTEGER" then some .int
  else if w == "BINARY" then some .binary
  else none

def boundOf? (word : String) : Option Float :=
  let w := lower word
  if w == "inf" || w == "+inf" || w == "infinity" then some Number.infinity
  else if w == "-inf" || w == "-infinity" then some (-Number.infinity)
  else Number.readFloat word

structure VariableDraft where
  kind : VariableKind
  dimensions : List String
  bounds : List Float

def readVariableWords (name : String) : VariableDraft → List String → Except ReadCause VariableDraft
  | v, [] => .ok v
  | v, w :: ws =>
    match kindOf? w with
    | some k => readVariableWords name { v with kind := k } ws
    | none =>
      match boundOf? w with
      | some b => readVariableWords name { v with bounds := b :: v.bounds } ws
      | none =>
        if v.bounds.isEmpty then readVariableWords name { v with dimensions := w :: v.dimensions } ws
        else .error (.afterBounds name w)

/-- A variable without bounds is not negative; a binary one is zero or one, whatever its bounds say. -/
def readVariable : Reader := fun d key value => do
  let v ← readVariableWords key ⟨.real, [], []⟩ (fields value)
  let (lower, upper, bounded) ← match v.bounds with
    | [] => Except.ok (0.0, Number.infinity, false)
    | [u, l] => .ok (l, u, true)
    | _ => .error (ReadCause.bounds key)
  let (lower, upper, bounded) := if v.kind = .binary then (0.0, 1.0, true) else (lower, upper, bounded)
  return d.update fun s => { s with decisions := s.decisions ++
    [⟨key, v.dimensions.reverse, lower, upper, bounded, v.kind⟩] }

def readConstraint : Reader := fun d key value =>
  match fields value with
  | [equation, op, rhs] => do
    let op ← comparison ("constraint " ++ key) op
    let rhs ← numberOf (.value ("constraint " ++ key) rhs) rhs
    return d.update fun s => { s with constraints := s.constraints ++ [⟨key, equation, op, rhs⟩] }
  | _ => .error (.constraint key)

def readEquationObjective : Reader := fun d key value =>
  match fields value with
  | sense :: equation :: rest =>
    if 1 < rest.length then .error (.equationObjective key)
    else do
      let sense ← senseOf ("objective " ++ key) sense
      let weight ← weightOf ("objective " ++ key) rest
      return d.update fun s => { s with equationObjectives := s.equationObjectives ++
        [⟨key, equation, sense, weight⟩] }
  | _ => .error (.equationObjective key)

def readers : List (String × Reader) :=
  [("problem", readProblem), ("criteria", readCriteria), ("objectives", readObjectives),
    ("areal_constraints", readArealConstraint), ("criteria_constraints", readCriterionConstraint),
    ("objective_constraints", readObjectiveConstraint), ("equations", readEquation),
    ("dimensions", readDimension), ("parameters", readParameter), ("scaling", readScaling),
    ("variables", readVariable), ("constraints", readConstraint), ("eqn_objectives", readEquationObjective)]

def readSection (read : Reader) (entries : Dict String) (d : Draft) : Except ReadCause Draft :=
  entries.foldlM (fun d (key, value) => read d key (trim value)) d

def withUnitDimension (config : Config) (s : Settings) : Settings :=
  let dim := config.unitDimension
  { s with
    unitDimension := dim
    dimensions := if dim.isEmpty || s.dimensions.contains dim then s.dimensions else s.dimensions.set dim s.idField }

def read (config : Config) (sections : Sections) : Except ReadCause Settings := do
  let d ← readers.foldlM (fun d (name, reader) => readSection reader ((sections.get? name).getD []) d) ⟨{}, none⟩
  let s := withUnitDimension config d.settings
  match d.optionCount with
  | some n => if n == s.options.length then return s else .error (.optionMismatch n s.options.length)
  | none => return s

end Settings

end LandUse
