import CartoStyle.Json.Printer
import CartoStyle.Json.Path
import CartoStyle.Text.Quoted

set_option autoImplicit false

/-! # The shape of a value

A shape says which values a field takes and what they stand for. A value that does not fit is named
in messages by what it is, against what was expected. -/

namespace CartoStyle

/-! ## Values in messages -/

namespace Json

/-- A value as messages about a wrong shape name it. -/
def described : Json → String
  | .null => "null"
  | .bool b => s!"boolean `{b}`"
  | .number (.integer n) => s!"integer `{n}`"
  | .number (.float x) => s!"floating point `{writeFloat .numeral x}`"
  | .string s => s!"string {Text.quoted s}"
  | .array _ => "sequence"
  | .object _ => "map"

/-- The message about a value of the wrong shape. -/
def mismatch (found : Json) (expected : String) : String :=
  s!"invalid type: {found.described}, expected {expected}"

/-- The message about a member that must be there. -/
def missing (key : String) : String := s!"missing field `{key}`"

end Json

/-! ## Shapes -/

/-- Which values fit, and what they stand for. -/
structure Shape (α : Type) where
  /-- What fits, in words. -/
  expected : String
  read : Json → Option α

namespace Shape

/-- Whether a value fits. -/
def Fits {α : Type} (shape : Shape α) (value : Json) : Bool := (shape.read value).isSome

/-- What the member `key` stands for, if it is there and fits. -/
def get? {α : Type} (shape : Shape α) (key : String) (members : List (String × Json)) :
    Option α :=
  (members.lookup key).bind shape.read

/-- Any value, as it is. -/
def any : Shape Json := ⟨"any value", some⟩

def text : Shape String := ⟨"a string", Json.asString?⟩

def number : Shape Number := ⟨"a JSON number", Json.asNumber?⟩

end Shape

end CartoStyle
