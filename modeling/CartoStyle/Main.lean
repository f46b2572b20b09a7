import CartoStyle.Command.Folder

set_option autoImplicit false

/-! # The program

Reads the command line, and the file that the command asks for, runs the command, writes and
prints. -/

namespace CartoStyle

namespace Program

/-- What is printed when help is asked for or the command line is mistaken. -/
def usage : String :=
  "Map style validation, optimization and GeoJSON analysis\n\n" ++
    "Commands: " ++ ", ".intercalate (Command.all.map Command.name) ++ "\n"

/-- Print what a command line that asks for no command gets. -/
def explain : UsageStop → IO Unit
  | .help => IO.print usage
  | .version => IO.println Command.version
  | .mistake => IO.eprint usage

/-- What went wrong with a file. -/
def faultOf : IO.Error → FileFault
  | .noFileOrDirectory _ _ _ => .notFound
  | .inappropriateType _ 20 _ => .notAFolder
  | .inappropriateType _ 21 _ => .isAFolder
  | e => .other e.toString

/-- Read the entry at a path. -/
def readEntry (path : String) : IO (Except FileFault Entry) := do
  try return .ok (.file (← IO.FS.readBinFile path))
  catch e => return .error (faultOf e)

/-- Write a file. -/
def writeEntry (path text : String) : IO (Option CommandFailure) := do
  try
    IO.FS.writeFile path text
    return none
  catch e => return some (.file path (faultOf e))

/-- Whether colours are wanted. A forced choice wins over the kind of output. -/
def wantsColours : IO Bool := do
  match ← IO.getEnv "CLICOLOR_FORCE", ← IO.getEnv "NO_COLOR", ← IO.getEnv "CLICOLOR" with
  | some force, noColour, setting =>
    if force != "0" then return true
    else return noColour.isNone && setting != some "0" && (← (← IO.getStdout).isTty)
  | none, some _, _ => return false
  | none, none, setting => return setting != some "0" && (← (← IO.getStdout).isTty)

/-- Run a command. -/
def run (invocation : Invocation) : IO Finish := do
  let colours ← wantsColours
  let limit := SizeLimit.ofSetting (← IO.getEnv "MAPSTYLE_MAX_FILE_SIZE")
  let found ←
    match invocation.file? with
    | some path => readEntry path
    | none => pure (.error .notFound)
  let outcome := invocation.run colours fun path => Entry.textWithin limit path found
  match outcome.write with
  | none => return outcome.finish none
  | some (path, text) => return outcome.finish (← writeEntry path text)

end Program

end CartoStyle

open CartoStyle in
/-- Run the command that the command line asks for. -/
def main (words : List String) : IO UInt32 := do
  match Invocation.ofWords words with
  | .error stop =>
    Program.explain stop
    return UInt32.ofNat stop.exitCode
  | .ok invocation =>
    let finish ← Program.run invocation
    IO.print finish.stdout
    IO.eprint finish.stderr
    return UInt32.ofNat finish.exitCode
