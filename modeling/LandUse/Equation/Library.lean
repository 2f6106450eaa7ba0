import LandUse.Dict
import LandUse.Equation.Code
import LandUse.Equation.Parser
import LandUse.Failure
import LandUse.Hash.Blake3

/-! Trees and codes are kept until a fingerprint tells that the sources have changed. -/

namespace LandUse

def ParseError.failure (equation : String) (e : ParseError) : Failure := .parse equation e.offset e.cause.message

def parseNamed (symbols : Symbols) (sources : Dict String) (name : String) : Except Failure Expr :=
  match sources.get? name with
  | none => .error (.lookup name (-1) ("unknown equation " ++ name))
  | some src =>
    match parse symbols name src with
    | .ok e => .ok e
    | .error e => .error (e.failure name)

def parseAll (symbols : Symbols) (sources : Dict String) : Dict (Except Failure Expr) :=
  sources.map fun (name, _) => (name, parseNamed symbols sources name)

def treeIn (results : Dict (Except Failure Expr)) (name : String) : Except Failure Expr :=
  match results.get? name with
  | some result => result
  | none => .error (.lookup name (-1) ("unknown equation " ++ name))

def compileNamed (symbols : Symbols) (sources : Dict String) (name : String) : Except Failure Code := do
  return Code.ofExpr name (← parseNamed symbols sources name)

def fingerprint (sources : Dict String) : Text.Bytes :=
  Hash.Blake3.hash (sources.flatMap fun (name, src) => Text.bytes name ++ [0] ++ Text.bytes src ++ [0])

structure Conversion where
  serial : Nat
  code : Code

structure Library where
  symbols : Symbols
  sources : Dict String := []
  fingerprint? : Option Text.Bytes := none
  trees : Dict Expr := []
  codes : Dict Conversion := []
  conversions : Nat := 0

namespace Library

def reload (l : Library) (sources : Dict String) : Bool × Library :=
  let f := fingerprint sources
  if l.fingerprint? == some f then (false, l)
  else (true, { l with sources := sources, fingerprint? := some f, trees := [], codes := [] })

def make (symbols : Symbols) (sources : Dict String) : Library := (reload { symbols := symbols } sources).2

def equation (l : Library) (name : String) : Except Failure Expr × Library :=
  match l.trees.get? name with
  | some e => (.ok e, l)
  | none =>
    match parseNamed l.symbols l.sources name with
    | .error e => (.error e, l)
    | .ok e => (.ok e, { l with trees := l.trees.set name e })

def compile (l : Library) (name : String) : Except Failure Conversion × Library :=
  match l.codes.get? name with
  | some c => (.ok c, l)
  | none =>
    match l.equation name with
    | (.error e, l) => (.error e, l)
    | (.ok e, l) =>
      let c : Conversion := ⟨l.conversions, Code.ofExpr name e⟩
      (.ok c, { l with codes := l.codes.set name c, conversions := l.conversions + 1 })

def compileEach (l : Library) : List String → Except Failure Unit × Library
  | [] => (.ok (), l)
  | name :: names =>
    match l.compile name with
    | (.error e, l) => (.error e, l)
    | (.ok _, l) => l.compileEach names

def compileAll (l : Library) : Except Failure Unit × Library := l.compileEach l.sources.names

end Library

end LandUse
