import LandUse.Linear.LpText
import LandUse.Nl.Text
import LandUse.Problem.Build
import LandUse.Report
import LandUse.Settings.Hcl
import LandUse.Settings.Json

namespace LandUse.Command

inductive Task where
  | lp | nl | info
deriving DecidableEq

def Task.name : Task → String
  | lp => "lp"
  | nl => "nl"
  | info => "info"

def Task.ofName? (s : String) : Option Task := [lp, nl, info].find? (·.name == s)

inductive Setting where
  | settings | database | table | output | logfile | tempDirectory | holeField
deriving DecidableEq

namespace Setting

def all : List Setting := [settings, database, table, output, logfile, tempDirectory, holeField]

def name : Setting → String
  | settings => "settings"
  | database => "database"
  | table => "table"
  | output => "output"
  | logfile => "logfile"
  | tempDirectory => "nl.tempdir"
  | holeField => "problem.holefield"

def letter? : Setting → Option Char
  | settings => some 's'
  | database => some 'd'
  | table => some 't'
  | output => some 'o'
  | _ => none

def required : List Setting := [database, settings, table]

end Setting

inductive LineError where
  | unknownFlag (name : String)
  | unknownLetter (c : Char) (group : String)
  | missingValue (flag : String)
  | missingLetterValue (c : Char) (group : String)
  | unknownCommand (name : String)
  | required (names : List String)

def LineError.message : LineError → String
  | unknownFlag name => "unknown flag: --" ++ name
  | unknownLetter c group => "unknown shorthand flag: " ++ "'" ++ String.singleton c ++ "' in -" ++ group
  | missingValue flag => "flag needs an argument: --" ++ flag
  | missingLetterValue c group => "flag needs an argument: " ++ "'" ++ String.singleton c ++ "' in -" ++ group
  | unknownCommand name => "unknown command " ++ Text.quote name ++ " for " ++ Text.quote "mosra"
  | required names => "required flag(s) " ++ ", ".intercalate (names.map fun n => "\"" ++ n ++ "\"") ++ " not set"

structure Line where
  words : List String := []
  values : List (Setting × String) := []
  help : Bool := false

namespace Line

def set (l : Line) (s : Setting) (value : String) : Line := { l with values := (s, value) :: l.values }

def get? (l : Line) (s : Setting) : Option String := l.values.lookup s

def readLetters (group : String) : List Char → List String → Line → Except LineError (Line × List String)
  | [], rest, l => .ok (l, rest)
  | c :: cs, rest, l =>
    if c == 'v' then readLetters group cs rest l
    else if c == 'h' then readLetters group cs rest { l with help := true }
    else match Setting.all.find? (·.letter? == some c) with
      | none => .error (.unknownLetter c group)
      | some s =>
        match cs, rest with
        | '=' :: value, rest => .ok (l.set s (String.ofList value), rest)
        | [], value :: rest => .ok (l.set s value, rest)
        | [], [] => .error (.missingLetterValue c group)
        | value, rest => .ok (l.set s (String.ofList value), rest)

def readName (text : List Char) (rest : List String) (l : Line) : Except LineError (Line × List String) :=
  let name := String.ofList (text.takeWhile (· != '='))
  if name == "verbose" then .ok (l, rest)
  else if name == "help" then .ok ({ l with help := true }, rest)
  else match Setting.all.find? (·.name == name) with
    | none => .error (.unknownFlag name)
    | some s =>
      match text.dropWhile (· != '='), rest with
      | _ :: value, rest => .ok (l.set s (String.ofList value), rest)
      | [], value :: rest => .ok (l.set s value, rest)
      | [], [] => .error (.missingValue name)

def read : Nat → List String → Line → Except LineError Line
  | _, [], l => .ok l
  | 0, _ :: _, l => .ok l
  | fuel + 1, word :: rest, l =>
    match word.toList with
    | ['-', '-'] => .ok { l with words := l.words ++ rest }
    | '-' :: '-' :: text => do
      let (l, rest) ← readName text rest l
      read fuel rest l
    | '-' :: c :: cs => do
      let (l, rest) ← readLetters (String.ofList (c :: cs)) (c :: cs) rest l
      read fuel rest l
    | _ => read fuel rest { l with words := l.words ++ [word] }

end Line

structure Arguments where
  task : Task
  settings : String
  database : String
  table : String
  output : Option String
  config : Config

def Arguments.read (words : List String) : Except LineError (Option Arguments) := do
  let l ← Line.read words.length words {}
  match l.words with
  | [] => return none
  | name :: _ =>
    match Task.ofName? name with
    | none => throw (.unknownCommand name)
    | some task =>
      if l.help then return none
      match Setting.required.filter fun s => (l.get? s).isNone with
      | [] =>
        let value (s : Setting) : String := (l.get? s).getD ""
        let config : Config := {}
        let output := if (value .output).isEmpty then none else some (value .output)
        return some ⟨task, value .settings, value .database, value .table, output,
          { config with holeField := (l.get? .holeField).getD config.holeField }⟩
      | missing => throw (.required (missing.map Setting.name))

def extension (path : String) : String :=
  let component := (path.toList.reverse.takeWhile (· != '/'))
  if component.contains '.' then String.ofList ('.' :: (component.takeWhile (· != '.')).reverse) else ""

def loadSettings (config : Config) (path : String) (text? : Option String) : Except Failure Settings := do
  let sections ←
    if Text.equalFold (extension path) ".hcl" then
      match text? with
      | none => throw (.access "cannot read settings" none)
      | some text =>
        match Hcl.sections text with
        | .ok sections => pure sections
        | .error e => throw (.settings (e.message path))
    else
      match text?.bind Json.sections? with
      | some sections => pure sections
      | none => throw (.settings ("cannot load settings " ++ path))
  match Settings.read config sections with
  | .ok s => return s
  | .error e => throw (.settings e.message)

def openTable (tables : List Table) (name : String) : Except Failure Table :=
  match tables.find? fun t => Table.asciiLower t.name == Table.asciiLower name with
  | some t => .ok { t with name := name }
  | none => .error (.access ("table " ++ name ++ " does not exist or has no columns") none)

def openDatabase (path : String) : Option (List Table) → Except Failure (List Table)
  | some tables => .ok tables
  | none => .error (.access ("cannot open database " ++ path) none)

def problem (a : Arguments) (path : String) (text? : Option String) (tables? : Option (List Table)) :
    Except Failure Problem := do
  let s ← loadSettings a.config path text?
  let t ← openTable (← openDatabase a.database tables?) a.table
  return ⟨a.config, s, some t⟩

def Task.output (task : Task) (p : Problem) : Except Fault String :=
  match task with
  | .lp => do (← p.matrix).text
  | .nl => return (← (p.document : Except Fault (Nl.Document Float))).text
  | .info => return (← p.matrix).report

end LandUse.Command
