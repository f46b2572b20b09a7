import CartoStyle.Command.Failure
import CartoStyle.Command.Invocation
import CartoStyle.Command.Report

set_option autoImplicit false

/-! # Running a command

A command reads one document at most, prints, and may write one file and then report on it. Reading
is a function that is passed in; writing is left to the caller (`Outcome.finish`), because a report
is made only after the file is written. -/

namespace CartoStyle

/-! ## Outcomes -/

/-- What a command does. -/
structure Outcome where
  stdout : String := ""
  /-- A file to write: its path and its text. -/
  write : Option (String × String) := none
  /-- What goes to the error stream when nothing failed before it. -/
  report : String := ""
  failure : Option CommandFailure := none
  deriving DecidableEq, Repr

/-- How a command ends. -/
structure Finish where
  exitCode : Nat
  stdout : String
  stderr : String
  deriving DecidableEq, Repr

namespace Outcome

/-- A failure without any output. -/
def ofExcept : Except CommandFailure Outcome → Outcome
  | .ok o => o
  | .error failure => { failure := some failure }

/-- A printed text. -/
def print (text : String) : Outcome := { stdout := text ++ "\n" }

/-- How the command ends, given what went wrong with writing its file. -/
def finish (o : Outcome) (writing : Option CommandFailure) : Finish :=
  match writing <|> o.failure with
  | some failure => ⟨1, o.stdout, s!"Error: {failure.message}\n"⟩
  | none => ⟨0, o.stdout, o.report⟩

end Outcome

/-! ## Commands -/

/-- Reading a file as text. -/
abbrev FileReader := String → Except CommandFailure String

namespace Invocation

/-- The path that an argument with a leading `@` names. -/
def filePath? (argument : String) : Option String :=
  match argument.toList with
  | '@' :: path => some (String.ofList path)
  | _ => none

/-- The text that an argument stands for: itself, or what is in the file it names. -/
def textOf (read : FileReader) (argument : String) : Except CommandFailure String :=
  match filePath? argument with
  | some path => read path
  | none => .ok argument

/-- A report of findings, which fails if `sound` is false. -/
def reportFindings (format : OutputFormat) (f : Findings) (json : Json) (lines : List String)
    (sound : Bool) : Outcome :=
  { stdout :=
      match format with
      | .json => json.pretty ++ "\n"
      | .text => Report.lines lines
    failure := if sound then none else some (.validation f.errors.length f.warnings.length) }

/-- Validate an expression. -/
def runValidateExpression (colours : Bool) (read : FileReader) (expression : String)
    (context : Option String) (format : OutputFormat) : Except CommandFailure Outcome := do
  let context ← (context.mapM Context.ofText).mapError fun e => .invalidArgument e.message
  let text ← textOf read expression
  let v := Validation.ofDocument (.text text) context {}
  return reportFindings format v.findings v.toJson (Report.expression colours v) v.findings.valid

/-- Validate a style. A strict validation fails on warnings too. -/
def runValidateStyle (colours : Bool) (read : FileReader) (file : String) (format : OutputFormat)
    (strict : Bool) : Except CommandFailure Outcome := do
  let r := StyleReport.ofDocument {} (.text (← read file))
  return reportFindings format r.findings r.toJson (Report.style colours file r)
    (r.findings.valid && !(strict && !r.findings.warnings.isEmpty))

/-- Optimize a style. -/
def runOptimize (colours : Bool) (read : FileReader) (file : String) (output : Option String)
    (passes : List String) (report : Bool) : Except CommandFailure Outcome := do
  let passes ← (Pass.ofTexts passes).mapError fun e => .invalidArgument e.message
  let text ← read file
  let o ← (Optimization.ofDocument passes (.text text)).mapError .ofDocumentError
  let lines := if report then Report.lines (Report.optimization colours o) else ""
  match output with
  | some path => return { write := some (path, o.style.pretty), report := lines }
  | none => return { Outcome.print o.style.pretty with report := lines }

/-- Find the extent of geographic data, or summarize it. -/
def runBoundingBox (read : FileReader) (file : String) (summary : Bool) :
    Except CommandFailure Outcome := do
  let document := Document.text (← read file)
  let value ←
    (if summary then (GeoJson.analyze document).map GeoSummary.toJson
    else (GeoJson.boundingBox document).map fun box => floatsToJson box.toList).mapError .ofGeoError
  return .print value.pretty

/-- Read the arguments of a tool. -/
def toolArguments (read : FileReader) (argument : String) : Except CommandFailure Json := do
  let text ← textOf read argument
  (Json.parse text).mapError fun e =>
    .invalidArgument s!"--args is not valid JSON: {e.message}"

/-- Call a tool. -/
def runCallTool (read : FileReader) (name : String) (arguments : Option String) :
    Except CommandFailure Outcome := do
  let arguments ← arguments.mapM (toolArguments read)
  let result ← (Tool.callByName name arguments).mapError .ofToolError
  return { Outcome.print result.text with
    failure :=
      if result.isError then some (.tool s!"{name} returned an error result") else none }

/-- List the tools. -/
def runListTools (colours : Bool) : Outcome :=
  { stdout := Report.lines (Tool.all.flatMap (Report.tool colours)) }

/-- Run a command. -/
def run (colours : Bool) (read : FileReader) : Invocation → Outcome
  | .validateExpression expression context format =>
    .ofExcept (runValidateExpression colours read expression context format)
  | .validateStyle file format strict =>
    .ofExcept (runValidateStyle colours read file format strict)
  | .optimize file output passes report =>
    .ofExcept (runOptimize colours read file output passes report)
  | .boundingBox file summary => .ofExcept (runBoundingBox read file summary)
  | .callTool name arguments => .ofExcept (runCallTool read name arguments)
  | .listTools => runListTools colours

/-- The file that a command may read. -/
def file? : Invocation → Option String
  | .validateExpression expression _ _ => filePath? expression
  | .validateStyle file _ _ => some file
  | .optimize file _ _ _ => some file
  | .boundingBox file _ => some file
  | .callTool _ arguments => arguments.bind filePath?
  | .listTools => none

end Invocation

end CartoStyle
