import LandUse.Command
import LandUse.Database.Schema

namespace LandUse.Main

def content? (path : String) : IO (Option ByteArray) := do
  try return some (← IO.FS.readBinFile path) catch _ => return none

def directories : IO (List String) := do
  let config := (← IO.getEnv "XDG_CONFIG_HOME").getD ""
  let home := (← IO.getEnv "HOME").getD ""
  return ["", (if config.isEmpty then home ++ "/.config" else config) ++ "/mosra/"]

def find (path : String) : IO (String × Option ByteArray) := do
  let places ← directories
  let paths := if Text.startsWith path "/" then [path] else places.map (· ++ path)
  for p in paths do
    if let some bytes ← content? p then return (p, some bytes)
  return (path, none)

def usage : String :=
  "Usage:\n  mosra [lp|nl|info] -s <settings> -d <database> -t <table> [-o <output>]\n"

def fail (message : String) : IO UInt32 := do
  IO.eprintln ("Error: " ++ message)
  return 2

def failWith : Fault → IO UInt32
  | .failure e => fail e.text
  | .plain message => fail message
  | .violation => return 2

def writeFile (path : String) (result : Except Fault String) : IO UInt32 := do
  try
    IO.FS.writeFile path (result.toOption.getD "")
    match result with
    | .ok _ => return 0
    | .error e =>
      IO.FS.removeFile path
      failWith e
  catch _ => failWith (.failure (.access ("cannot create " ++ path) none))

def run (a : Command.Arguments) : IO UInt32 := do
  let (path, settings?) ← find a.settings
  let (_, database?) ← find a.database
  match Command.problem a path (settings?.bind String.fromUTF8?) (database?.bind Database.tables?) with
  | .error e => fail e.text
  | .ok p =>
    match a.task.output p, a.output with
    | result, some path => writeFile path result
    | .ok text, none => do
      IO.print text
      return 0
    | .error e, none => failWith e

end LandUse.Main

def main (words : List String) : IO UInt32 := do
  match LandUse.Command.Arguments.read words with
  | .error e => LandUse.Main.fail e.message
  | .ok none => do
    IO.print LandUse.Main.usage
    return 0
  | .ok (some a) => LandUse.Main.run a
