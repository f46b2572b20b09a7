import CartoStyle.Json.Basic

set_option autoImplicit false

/-! # Diagnostics

A diagnostic is one finding about a document: how bad it is, what kind of finding, a sentence, and
where known the place and a suggestion. Every report lists its errors first, then its warnings,
then its notes (`Findings`), and keeps the order of discovery within each. -/

namespace CartoStyle

/-! ## Severity -/

/-- How bad a finding is. -/
inductive Severity where
  | info
  | warning
  | error
  deriving DecidableEq, Repr, Inhabited

namespace Severity

/-- The name of a severity, as reports write it. -/
def text : Severity → String
  | .info => "info"
  | .warning => "warning"
  | .error => "error"

/-- Severities from mild to grave. -/
def rank : Severity → Nat
  | .info => 0
  | .warning => 1
  | .error => 2

/-- The severity of a name. -/
def ofText? (name : String) : Option Severity :=
  [info, warning, error].find? (·.text == name)

end Severity

/-! ## Codes -/

/-- What kind of finding a diagnostic is. -/
inductive Code where
  | inputParse
  | invalidStructure
  | invalidOperator
  | unknownOperator
  | argumentCount
  | excessiveDepth
  | typeMismatch
  | invalidVersion
  | missingField
  | emptyLayers
  | duplicateLayerId
  | danglingSource
  | sourceLayerMismatch
  | unknownLayerType
  | invalidZoomRange
  | emptyLayer
  | grammarInconsistency
  | custom (name : String)
  deriving DecidableEq, Repr

namespace Code

/-- The code as reports write it. -/
def text : Code → String
  | .inputParse => "input-parse"
  | .invalidStructure => "invalid-structure"
  | .invalidOperator => "invalid-operator"
  | .unknownOperator => "unknown-operator"
  | .argumentCount => "argument-count"
  | .excessiveDepth => "excessive-depth"
  | .typeMismatch => "type-mismatch"
  | .invalidVersion => "invalid-version"
  | .missingField => "missing-field"
  | .emptyLayers => "empty-layers"
  | .duplicateLayerId => "duplicate-layer-id"
  | .danglingSource => "dangling-source"
  | .sourceLayerMismatch => "source-layer-mismatch"
  | .unknownLayerType => "unknown-layer-type"
  | .invalidZoomRange => "invalid-zoom-range"
  | .emptyLayer => "empty-layer"
  | .grammarInconsistency => "grammar-inconsistency"
  | .custom name => name

/-- The codes with a meaning of their own. -/
def known : List Code :=
  [inputParse, invalidStructure, invalidOperator, unknownOperator, argumentCount, excessiveDepth,
    typeMismatch, invalidVersion, missingField, emptyLayers, duplicateLayerId, danglingSource,
    sourceLayerMismatch, unknownLayerType, invalidZoomRange, emptyLayer, grammarInconsistency]

/-- The code of a name; one without a meaning of its own is custom. -/
def ofText (name : String) : Code := (known.find? (·.text == name)).getD (.custom name)

end Code

/-! ## Diagnostics -/

/-- A finding about a document. `rule` names the check that made it. -/
structure Diagnostic where
  severity : Severity
  code : Code
  message : String
  rule : String
  path : Option String := none
  suggestion : Option String := none
  deriving DecidableEq, Repr

namespace Diagnostic

def error (code : Code) (message rule : String) : Diagnostic :=
  { severity := .error, code, message, rule }

def warning (code : Code) (message rule : String) : Diagnostic :=
  { severity := .warning, code, message, rule }

def info (code : Code) (message rule : String) : Diagnostic :=
  { severity := .info, code, message, rule }

/-- The finding at a path. The empty path is the whole document, which is not written. -/
def located (d : Diagnostic) (path : String) : Diagnostic :=
  { d with path := if path.isEmpty then none else some path }

/-- The finding with a suggestion. -/
def suggest (d : Diagnostic) (suggestion : String) : Diagnostic :=
  { d with suggestion := some suggestion }

/-- The finding seen from further out: `base` goes in front of its path, and is the path of a
    finding that had none. -/
def under (d : Diagnostic) (base : String) : Diagnostic :=
  { d with path := some (base ++ d.path.getD "") }

/-- The finding with `lead` in front of its message. -/
def introduce (d : Diagnostic) (lead : String) : Diagnostic :=
  { d with message := lead ++ d.message }

/-- The finding as made by another check. -/
def reportedBy (d : Diagnostic) (rule : String) : Diagnostic := { d with rule }

/-- The finding as an error. -/
def escalate (d : Diagnostic) : Diagnostic := { d with severity := .error }

/-! ## Written form -/

/-- One line: the path, the rule, the severity, the message and the suggestion. -/
def line (d : Diagnostic) : String :=
  (match d.path with | some path => path ++ ": " | none => "") ++
    s!"[{d.rule}] {d.severity.text}: {d.message}" ++
    (match d.suggestion with | some suggestion => s!" ({suggestion})" | none => "")

/-- The finding as a JSON object. What is absent is left out. -/
def toJson (d : Diagnostic) : Json :=
  .object <|
    [("severity", .string d.severity.text), ("code", .string d.code.text),
      ("message", .string d.message)] ++
    (d.path.map fun path => ("path", Json.string path)).toList ++
    (d.suggestion.map fun suggestion => ("suggestion", Json.string suggestion)).toList ++
    [("rule", .string d.rule)]

end Diagnostic

/-! ## Reports -/

/-- Diagnostics sorted out by severity. -/
structure Findings where
  errors : List Diagnostic
  warnings : List Diagnostic
  infos : List Diagnostic
  deriving DecidableEq, Repr

namespace Findings

/-- Sort diagnostics out, each severity in the order of discovery. -/
def ofList (ds : List Diagnostic) : Findings :=
  { errors := ds.filter (·.severity == .error)
    warnings := ds.filter (·.severity == .warning)
    infos := ds.filter (·.severity == .info) }

/-- All diagnostics, errors first. -/
def toList (f : Findings) : List Diagnostic := f.errors ++ f.warnings ++ f.infos

/-- Whether there is no error. -/
def valid (f : Findings) : Bool := f.errors.isEmpty

/-- How many diagnostics there are. -/
def count (f : Findings) : Nat := f.errors.length + f.warnings.length + f.infos.length

/-- The members of a report that list the findings. -/
def members (f : Findings) : List (String × Json) :=
  [("valid", .bool f.valid),
    ("errors", .array (f.errors.map Diagnostic.toJson)),
    ("warnings", .array (f.warnings.map Diagnostic.toJson)),
    ("info", .array (f.infos.map Diagnostic.toJson))]

end Findings

end CartoStyle
