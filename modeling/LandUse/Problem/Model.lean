import LandUse.Expansion.Instr
import LandUse.Number.Layout

/-! The land-use model. The areas of a unit under all options have the sum `area * b`, where `b` is binary: a unit is
used completely or not at all. -/

namespace LandUse

structure Job (α : Type) where
  equation : String
  segment : Segment α

structure Model (α : Type) where
  settings : Settings
  jobs : List (Job α) := []

abbrev AreaConverter (α : Type) := Float → AreaUnit → (option zone : String) → Except Failure α

namespace Model

variable {α : Type} [Scalar α]

def areaParameter : String := "AREA"

def identifier (name : String) : String :=
  String.ofList (name.toList.map fun c => if c.isAlpha || c.isDigit || c == '_' then c else '_')

def criterionParameter (criterion : String) : String := "__cri_" ++ identifier criterion

def constantText (x : Float) : String :=
  let digits := Number.general x.abs
  if x < 0 then "(0 - " ++ digits ++ ")" else digits

def isClassic (s : Settings) : Bool :=
  s.hasClassicModel || !s.arealConstraints.isEmpty || !s.criteriaConstraints.isEmpty ||
    !s.objectiveConstraints.isEmpty

def setParameter (m : Model α) (p : Parameter) : Model α :=
  { m with settings := { m.settings with parameters := m.settings.parameters.set p.name p } }

def setEquation (m : Model α) (name text : String) : Model α :=
  { m with settings := { m.settings with equations := m.settings.equations.set name text } }

def addJob (m : Model α) (equation : String) (segment : Segment α) : Model α :=
  { m with jobs := m.jobs ++ [⟨equation, segment⟩] }

def addConstraint (m : Model α) (equation label : String) (op : Comparison) (rhs : α) : Model α :=
  m.addJob equation { label := label, kind := .constraint op rhs }

def columnParameter (name : String) (columns : List String) : Parameter := ⟨name, columns, none, 1, []⟩

def decisions (config : Config) (s : Settings) : List Variable :=
  let upper := if s.kind = .binary then 1 else Number.infinity
  [⟨config.arealVariable, [s.unitDimension, optionsDimension], 0, upper, true, s.kind⟩,
    ⟨config.binaryVariable, [s.unitDimension], 0, 1, true, .binary⟩]

/-- Of criteria with the same parameter the last one counts. -/
def declare (config : Config) (criteria : Dict (List String)) (m : Model α) : Except Failure (Model α) := do
  let s := m.settings
  if s.unitDimension.isEmpty then
    throw (.settings "no dimension for spatial units configured")
  match [config.arealVariable, config.binaryVariable].find? fun n => (s.findVariable n).isSome with
  | some name => throw (.settings ("variable " ++ name ++ " is reserved for the land-use model"))
  | none =>
    let m := { m with settings := { s with decisions := s.decisions ++ decisions config s } }
    let m := m.setParameter (columnParameter areaParameter [s.areaField])
    return criteria.foldl (fun m (criterion, fields) =>
      m.setParameter (columnParameter (criterionParameter criterion) fields)) m

def arealVariable (config : Config) (s : Settings) (option : String) : String :=
  config.arealVariable ++ "[" ++ s.unitDimension ++ "][" ++ option ++ "]"

def loopText (dim body : String) : String := "sum\x7b" ++ dim ++ "\x7d(" ++ body ++ ")"

/-- Integer variables take whole values, binary ones whole values times whole areas. -/
def criterionSum (config : Config) (s : Settings) (criterion : String) : String :=
  let c := criterionParameter criterion ++ "[OPTIONS]"
  let c := match s.kind with
    | .real => c
    | .int => "floor(" ++ c ++ ")"
    | .binary => "floor(" ++ c ++ ") * floor(" ++ areaParameter ++ ")"
  loopText s.unitDimension (loopText optionsDimension (c ++ " * " ++ arealVariable config s optionsDimension))

structure ObjectiveTerm where
  equation : String
  sense : Sense
  weight : Float

def criterionTerms (s : Settings) : List ObjectiveTerm :=
  s.objectives.zipIdx.map fun (o, i) =>
    ⟨"__obj_" ++ toString i, o.sense, if !s.interactive && o.weight != 0 then o.weight else 1⟩

def equationTerms (s : Settings) : List ObjectiveTerm :=
  s.equationObjectives.map fun o => ⟨o.equation, o.sense, if o.weight == 0 then 1 else o.weight⟩

def termText (sense : Sense) (t : ObjectiveTerm) : String :=
  let w := if t.sense == sense then t.weight else -t.weight
  if w == 1 then t.equation else constantText w ++ " * " ++ t.equation

def addObjective (config : Config) (m : Model α) : Except Failure (Model α) := do
  let m := m.settings.objectives.zipIdx.foldl (fun m (o, i) =>
    m.setEquation ("__obj_" ++ toString i) (criterionSum config m.settings o.criterion)) m
  let s := m.settings
  match s.equationObjectives.find? fun o => !s.equations.contains o.equation with
  | some o => throw (.settings ("objective " ++ o.name ++ ": unknown equation " ++ o.equation))
  | none =>
    match criterionTerms s ++ equationTerms s with
    | [] => return m
    | first :: rest =>
      let text := " + ".intercalate ((first :: rest).map (termText first.sense))
      return (m.setEquation "__objective" text).addJob "__objective"
        { label := "objective", kind := .objective first.sense Scalar.one }

def addObjectiveConstraint (config : Config) (m : Model α) (i : Nat) (c : ObjectiveConstraint) : Model α :=
  let name := "__objcons_" ++ toString i
  (m.setEquation name (criterionSum config m.settings c.criterion)).addConstraint name c.label c.op
    (Scalar.ofFloat c.value)

def addIndicator (m : Model α) (name field : String) : Model α :=
  let options := m.settings.options
  m.setParameter ⟨name, options.map fun _ => field, none, 1, options⟩

def optionText (s : Settings) (option : String) : String := toString ((s.optionIndex? option).getD 0)

def addArealConstraint (config : Config) (convert : AreaConverter α) (m : Model α) (i : Nat) (c : ArealConstraint) :
    Except Failure (Model α) := do
  let s := m.settings
  let option := optionText s c.option
  let factor := if s.kind = .binary then areaParameter else "1"
  let indicator := "__zone_areal_" ++ toString i
  let (m, factor, label) :=
    if c.zone.isEmpty then (m, factor, c.label)
    else (m.addIndicator indicator c.zone, factor ++ " * " ++ indicator ++ "[" ++ option ++ "]", c.label ++ "_in")
  let rhs ← convert c.value c.unit c.option c.zone
  let name := "__areal_" ++ toString i
  let text := loopText s.unitDimension (factor ++ " * " ++ arealVariable config s option)
  return (m.setEquation name text).addConstraint name label c.op rhs

def addCriterionConstraint (config : Config) (m : Model α) (i : Nat) (c : CriterionConstraint) : Model α :=
  let s := m.settings
  let fields := "__crifields_" ++ toString i
  let m := m.setParameter (columnParameter fields c.fields)
  let option := if c.isTotal then optionsDimension else optionText s c.option
  let factor := if c.isTotal then fields ++ "[OPTIONS]" else fields
  let factor := if s.kind = .binary then areaParameter ++ " * " ++ factor else factor
  let indicator := "__zone_cricons_" ++ toString i
  let (m, factor) :=
    if c.zone.isEmpty then (m, factor)
    else (m.addIndicator indicator c.zone, factor ++ " * " ++ indicator ++ "[" ++ option ++ "]")
  let product := factor ++ " * " ++ arealVariable config s option
  let name := "__cricons_" ++ toString i
  let text := loopText s.unitDimension (if c.isTotal then loopText optionsDimension product else product)
  (m.setEquation name text).addConstraint name c.label c.op (Scalar.ofFloat c.rhs)

def addFeatures (config : Config) (m : Model α) : Model α :=
  let s := m.settings
  let area := if s.kind = .int then "floor(" ++ areaParameter ++ ")" else areaParameter
  let x := arealVariable config s optionsDimension
  let x := if s.kind = .binary then area ++ " * " ++ x else x
  let text := loopText optionsDimension x ++ " - " ++ area ++ " * " ++ config.binaryVariable ++
    "[" ++ s.unitDimension ++ "]"
  let m := m.setEquation "__feature" text
  (m.addConstraint "__feature" "Feature_%sa" .ge Scalar.zero).addConstraint "__feature" "Feature_%sb" .le Scalar.zero

def make (config : Config) (convert : AreaConverter α) (s : Settings) (criteria : Dict (List String) := s.criteria) :
    Except Failure (Model α) := do
  let classic := isClassic s
  let m : Model α := ⟨s, []⟩
  let m ← if classic then m.declare config criteria else pure m
  let m ← m.addObjective config
  let m := if s.interactive then
      s.objectiveConstraints.zipIdx.foldl (fun m (c, i) => m.addObjectiveConstraint config i c) m
    else m
  let m ← s.arealConstraints.zipIdx.foldlM (fun m (c, i) => m.addArealConstraint config convert i c) m
  let m := s.criteriaConstraints.zipIdx.foldl (fun m (c, i) => m.addCriterionConstraint config i c) m
  let m := if classic then m.addFeatures config else m
  return s.constraints.foldl (fun m c => m.addConstraint c.equation c.name c.op (Scalar.ofFloat c.rhs)) m

end Model

end LandUse
