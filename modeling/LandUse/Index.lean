import LandUse.Equation.Library
import LandUse.Settings.Basic

/-! What equations refer to, also through other equations; equations that reach themselves are refused. -/

namespace LandUse

structure IndexEntry where
  name : String
  parameters : List String
  decisions : List String
  dimensions : List String
  equations : List String
  columns : List String
  free : List String
  loops : List String

abbrev Index := Dict IndexEntry

namespace Index

def addName (name : String) : List String → List String
  | [] => [name]
  | n :: ns =>
    if name == n then n :: ns
    else if name < n then name :: n :: ns
    else n :: addName name ns

def append (name : String) (names : List String) : List String :=
  if names.contains name then names else names ++ [name]

structure References where
  parameters : List String := []
  decisions : List String := []
  dimensions : List String := []
  equations : List String := []
  columns : List String := []
  free : List String := []
  loops : List String := []

abbrev Collect := StateT References (Except Failure)

variable (s : Settings)

def addColumn (equation dim : String) : Collect Unit :=
  match s.dimensions.get? dim with
  | none => throw (.dimension equation ("undefined dimension " ++ dim))
  | some column => modify fun r => { r with columns := addName column r.columns }

def addSubscript (equation name : String) (bound : List String) : Subscript → Collect Unit
  | .dim _ dim => do
    modify fun r => { r with dimensions := addName dim r.dimensions }
    if !bound.contains dim then
      if dim == optionsDimension then
        throw (.dimension equation (name ++ "[" ++ dim ++ "] is not inside a loop over " ++ dim))
      addColumn s equation dim
      modify fun r => { r with free := append dim r.free }
  | _ => return

def addSubscripts (equation name : String) (bound : List String) : List Subscript → Collect Unit
  | [] => return
  | sub :: subs => do
    addSubscript s equation name bound sub
    addSubscripts equation name bound subs

def addParam (equation name : String) (isVariable : Bool) (subs : List Subscript) (bound : List String) :
    Collect Unit := do
  if isVariable then
    modify fun r => { r with decisions := addName name r.decisions }
  else
    let columns := ((s.parameters.get? name).map (·.columns)).getD []
    modify fun r => { r with
      parameters := addName name r.parameters
      columns := columns.foldl (fun cs c => addName c cs) r.columns }
  addSubscripts s equation name bound subs

def addLoop (equation dim : String) : Collect Unit := do
  modify fun r => { r with dimensions := addName dim r.dimensions }
  if dim != optionsDimension then
    addColumn s equation dim
    modify fun r => { r with loops := append dim r.loops }

mutual

def collect (visit : String → List String → Collect Unit) (equation : String) (bound : List String) :
    Expr → Collect Unit
  | .number .. => return
  | .param _ name isVariable subs => addParam s equation name isVariable subs bound
  | .equation _ name => do
    modify fun r => { r with equations := addName name r.equations }
    visit name bound
  | .negate _ _ arg => collect visit equation bound arg
  | .binary _ _ _ lhs rhs => do
    collect visit equation bound lhs
    collect visit equation bound rhs
  | .group _ arg => collect visit equation bound arg
  | .call _ _ _ _ _ args => collectArgs visit equation bound args
  | .loop _ _ dim _ _ _ arg => do
    addLoop s equation dim
    collect visit equation (bound ++ [dim]) arg

def collectArgs (visit : String → List String → Collect Unit) (equation : String) (bound : List String) :
    List Expr → Collect Unit
  | [] => return
  | e :: es => do
    collect visit equation bound e
    collectArgs visit equation bound es

end

/-- A way without repetition is not longer than the list of all equations, which bounds the depth. -/
def visitEquation (tree : String → Except Failure Expr) : Nat → List String → String → List String → Collect Unit
  | 0, _, name, _ => throw (.parse name (-1) ("cyclic reference to equation " ++ name))
  | depth + 1, active, name, bound => do
    if active.contains name then
      throw (.parse name (-1) ("cyclic reference to equation " ++ name))
    let e ← tree name
    collect s (visitEquation tree depth (name :: active)) name bound e

def entryOf (name : String) (r : References) : IndexEntry where
  name := name
  parameters := r.parameters
  decisions := r.decisions
  dimensions := r.dimensions
  equations := r.equations
  columns := r.columns
  free := r.free
  loops := r.loops.filter fun d => !r.free.contains d

def build (s : Settings) : Except Failure Index :=
  let results := parseAll s.symbols s.equations
  s.equations.names.mapM fun name => do
    let (_, r) ← (visitEquation s (treeIn results) (s.equations.length + 2) [] name []).run {}
    return (name, entryOf name r)

def entry (ix : Index) (name : String) : Except Failure IndexEntry :=
  match Dict.get? ix name with
  | some e => .ok e
  | none => .error (.lookup name (-1) ("equation " ++ name ++ " is not indexed"))

end Index

end LandUse
