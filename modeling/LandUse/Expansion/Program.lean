import LandUse.Expansion.Instr
import LandUse.Expansion.Offsets
import LandUse.Expansion.Scope
import LandUse.Index
import LandUse.Text.Basic

namespace LandUse

structure Program where
  settings : Settings
  trees : Dict Expr
  codes : Dict Code
  index : Index
  catalog : Catalog
  offsets : Offsets

structure Iteration where
  value : Value
  rows : List Row

namespace Program

def subscript (frame : Frame) (name : String) : Subscript → Except Failure (Cell × Bool)
  | .dim _ dim =>
    match frame.binding? dim with
    | some v => .ok (v, dim == optionsDimension)
    | none => .error (.dimension frame.equation (name ++ "[" ++ dim ++ "]: dimension " ++ dim ++ " is not bound"))
  | .option _ _ index | .index _ index _ => .ok (some (.int (Int64.ofNat index)), true)

def optionNumber (v : Cell) : Int :=
  match v.toInt with
  | .ok n => n.toInt
  | .error _ => 0

def selectedOption (subs : List (Cell × Bool)) : Option Int :=
  (subs.reverse.find? (·.2)).map fun (v, _) => optionNumber v

def optionOf (frame : Frame) (name : String) (subs : List (Cell × Bool)) : Except Failure Int :=
  match selectedOption subs with
  | some n => .ok n
  | none =>
    match frame.binding? optionsDimension with
    | some v => .ok (optionNumber v)
    | none => .error (.dimension frame.equation ("parameter " ++ name ++ " needs an option"))

def parameterColumn (frame : Frame) (p : Parameter) (name : String) (subs : List (Cell × Bool)) :
    Except Failure (String × Nat) :=
  if 1 < p.columns.length || !p.contains.isEmpty then do
    let option ← optionOf frame name subs
    match p.columns[option.toNat]? with
    | some column => return (column, option.toNat)
    | none => throw (.lookup frame.equation (-1)
        ("parameter " ++ name ++ " has no column for option " ++ toString option))
  else return (p.columns.headD "", 0)

def readParameter (frame : Frame) (columns : List String) (name column : String) : Except Failure Value :=
  match frame.rows with
  | [] => .error (.lookup frame.equation (-1) ("no row to read parameter " ++ name ++ " from"))
  | row :: _ =>
    match (columns.findIdx? (· == column)).bind (row[·]?) with
    | some v => .ok v
    | none => .error (.lookup frame.equation (-1)
        ("column " ++ column ++ " of parameter " ++ name ++ " has not been read"))

def scaleOf {α : Type} [Scalar α] (p : Parameter) : α := Scalar.ofFloat (if p.scale == 0 then 1 else p.scale)

def parameter {α : Type} [Scalar α] (s : Settings) (frame : Frame) (columns : List String) (name : String)
    (subs : List Subscript) : Except Fault α := do
  match s.parameters.get? name with
  | none => throw (.failure (.lookup frame.equation (-1) ("unknown parameter " ++ name)))
  | some p =>
    let scale := scaleOf p
    match p.literal with
    | some x => return Scalar.ofFloat x * scale
    | none =>
      if p.columns.isEmpty then throw .violation
      let values ← orFault (subs.mapM (subscript frame name))
      let (column, option) ← orFault (parameterColumn frame p name values)
      let v ← orFault (readParameter frame columns name column)
      if p.contains.isEmpty then
        match v.toFloat with
        | .ok x => return Scalar.ofFloat x * scale
        | .error e => throw (.failure (.lookup frame.equation (-1) ("parameter " ++ name ++ ": " ++ e.message)))
      else
        match p.contains[option]? with
        | some part => return if Text.contains v.toText part then scale else Scalar.zero
        | none => throw (.failure (.lookup frame.equation (-1)
            ("indicator " ++ name ++ " has no value for option " ++ toString option)))

def reference {α : Type} [Scalar α] (p : Program) (frame : Frame) (columns : List String) (name : String)
    (isVariable : Bool) (subs : List Subscript) : Except Fault (Instr α) := do
  if isVariable then
    let values ← orFault (subs.mapM (subscript frame name))
    let k ← orFault (p.offsets.offset name (values.map (·.1)))
    return .var k
  else return .num (← parameter p.settings frame columns name subs)

def addRow (v : Value) (row : Row) : List Iteration → List Iteration
  | [] => [⟨v, [row]⟩]
  | it :: its =>
    if it.value.key == v.key then { it with rows := it.rows ++ [row] } :: its else it :: addRow v row its

def groupBy (column : Nat) (rows : List Row) : List Iteration :=
  rows.foldl (fun its row =>
    match row[column]? with
    | some v => addRow v row its
    | none => its) []

end Program

end LandUse
