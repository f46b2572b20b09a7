import CartoStyle.Json.Reader

set_option autoImplicit false

/-! # Documents and why they are refused

A document comes as JSON text or as a value that is read already. Text that is not JSON, and
values of the wrong shape, are refused with a `DocumentError`. -/

namespace CartoStyle

/-! ## Errors -/

/-- What is wrong: the text, the shape of the document, or a table of this library. -/
inductive ErrorKind where
  | inputParse
  | schema
  | internal
  deriving DecidableEq, Repr

namespace ErrorKind

/-- The name of the kind, as messages write it. -/
def text : ErrorKind → String
  | .inputParse => "InputParseError"
  | .schema => "SchemaViolation"
  | .internal => "InternalInvariantBreak"

end ErrorKind

/-- Why a document is refused, and where known the path to the value at fault. -/
structure DocumentError where
  kind : ErrorKind
  message : String
  path : Option String := none
  deriving DecidableEq, Repr

namespace DocumentError

/-- One line with kind, path and message. -/
def line (e : DocumentError) : String :=
  match e.path with
  | some path => s!"{e.kind.text} at {path}: {e.message}"
  | none => s!"{e.kind.text}: {e.message}"

/-- The error with what was being done in front of its message. -/
def during (e : DocumentError) (context : String) : DocumentError :=
  { e with message := s!"{context}: {e.message}" }

end DocumentError

namespace ReadError

/-- The refusal of a text that is not JSON. -/
def toDocumentError (e : ReadError) : DocumentError :=
  { kind := .inputParse, message := "Invalid JSON input: " ++ e.message }

end ReadError

/-! ## Documents -/

/-- A document: JSON text, or a value. A value that is a string is not JSON text. -/
inductive Document where
  | text (text : String)
  | value (value : Json)
  deriving DecidableEq, Inhabited

namespace Document

/-- The value of a document. -/
def resolve : Document → Except DocumentError Json
  | .value v => .ok v
  | .text s =>
    match Json.parse s with
    | .ok v => .ok v
    | .error e => .error e.toDocumentError

/-- The number of bytes of a text. -/
def textLength : Document → Option Nat
  | .text s => some s.utf8ByteSize
  | .value _ => none

end Document

end CartoStyle
