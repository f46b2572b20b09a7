import CartoStyle.Geo.Decode
import CartoStyle.Tool.Call

set_option autoImplicit false

/-! # Failures of commands

Why a command fails. Every failure is one line on the error stream. -/

namespace CartoStyle

/-! ## Files -/

/-- Why a file cannot be read or written. -/
inductive FileFault where
  | notFound
  | notAFolder
  | isAFolder
  | longName
  | nameWithNul
  | notText
  | other (message : String)
  deriving DecidableEq, Repr

namespace FileFault

/-- The fault in words. -/
def message : FileFault → String
  | .notFound => "No such file or directory (os error 2)"
  | .notAFolder => "Not a directory (os error 20)"
  | .isAFolder => "Is a directory (os error 21)"
  | .longName => "File name too long (os error 36)"
  | .nameWithNul => "file name contained an unexpected NUL byte"
  | .notText => "stream did not contain valid UTF-8"
  | .other message => message

end FileFault

/-! ## Commands -/

/-- Why a command fails. -/
inductive CommandFailure where
  | file (path : String) (fault : FileFault)
  | tooLarge (path : String) (bytes limit : Nat)
  | unreadable (message : String)
  | invalidDocument (message : String)
  | invalidArgument (message : String)
  | validation (errors warnings : Nat)
  | tool (message : String)
  deriving DecidableEq, Repr

namespace CommandFailure

/-- The failure in words. -/
def message : CommandFailure → String
  | .file path fault => s!"I/O error for '{path}': {fault.message}"
  | .tooLarge path bytes limit =>
    s!"File '{path}' is too large ({bytes} bytes, maximum {limit} bytes / " ++
      s!"{limit / (1024 * 1024)} MB). Set MAPSTYLE_MAX_FILE_SIZE to raise the limit"
  | .unreadable message => s!"Failed to parse input: {message}"
  | .invalidDocument message => s!"Invalid document: {message}"
  | .invalidArgument message => s!"Invalid argument: {message}"
  | .validation errors warnings =>
    s!"Validation failed with {errors} error(s) and {warnings} warning(s)"
  | .tool message => s!"Tool error: {message}"

/-- The failure of a command on a refused document. -/
def ofDocumentError (e : DocumentError) : CommandFailure :=
  match e.kind with
  | .inputParse => .unreadable e.message
  | _ => .invalidDocument e.line

/-- The failure of a command on a document that is not geographic data. -/
def ofGeoError (e : GeoError) : CommandFailure :=
  match e with
  | .unreadable message => .unreadable message
  | other => .invalidDocument other.message

/-- The failure of a command whose tool call is refused. -/
def ofToolError (e : ToolError) : CommandFailure := .tool e.message

end CommandFailure

end CartoStyle
