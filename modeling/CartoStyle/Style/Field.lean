import CartoStyle.Document
import CartoStyle.Expression.Basic
import CartoStyle.Json.Shape

set_option autoImplicit false

/-! # Fields of style objects

A style, a source and a layer are objects with known fields. Reading one takes the fields that fit
out of its members; all else is kept beside them (`Field.leftover`), and so is the order of the keys,
so that nothing is lost or moved when the object is written again (`writeFields`).

A strict reading refuses an object at its first known field that does not fit
(`Field.violation?`). Otherwise both readings are the same. -/

namespace CartoStyle

/-! ## Violations -/

/-- What is wrong with the shape of a style document. -/
inductive ShapeFault where
  /-- The document is not an object. -/
  | notAStyle (found : Json)
  /-- A field holds neither what it should nor null. -/
  | notAContainer (key expected : String) (found : Json)
  /-- An entry of a container is not an object. -/
  | notAnObject (found : Json)
  | missing (key : String)
  | mismatch (found : Json) (expected : String)
  deriving DecidableEq

namespace ShapeFault

/-- The fault in words. -/
def message : ShapeFault → String
  | .notAStyle found => s!"Style must be a JSON object, got {found.typeName}"
  | .notAContainer key expected found => s!"Field '{key}' must be {expected}, got {found.typeName}"
  | .notAnObject found => s!"Expected an object, got {found.typeName}"
  | .missing key => Json.missing key
  | .mismatch found expected => found.mismatch expected

end ShapeFault

/-- A fault at a place. -/
structure Violation where
  path : Path
  fault : ShapeFault
  deriving DecidableEq

namespace Violation

/-- The refusal of a document with a violation. -/
def toError (v : Violation) : DocumentError :=
  { kind := .schema, message := v.fault.message, path := some v.path.text }

end Violation

/-! ## Fields -/

/-- The properties of a layout or paint block. -/
abbrev Block := List (String × Expression)

namespace Shape

/-- A block of properties. -/
def block : Shape Block :=
  ⟨"a map", fun value =>
    value.asObject?.map fun members => members.map fun (key, v) => (key, Expression.ofJson v)⟩

/-- An expression; null is the absence of one. -/
def expression : Shape Expression :=
  ⟨"an expression", fun value => if value.isNull then none else some (.ofJson value)⟩

end Shape

/-- A known field: its key, whether it must be there, and which values fit. -/
structure Field where
  key : String
  required : Bool
  expected : String
  fits : Json → Bool

namespace Field

/-- A field of a shape that may be missing or null. -/
def optional {α : Type} (key : String) (shape : Shape α) : Field :=
  ⟨key, false, shape.expected, shape.Fits⟩

/-- A field of a shape that must be there. -/
def mandatory {α : Type} (key : String) (shape : Shape α) : Field :=
  ⟨key, true, shape.expected, shape.Fits⟩

/-- What is wrong with a field of the object at `base`. -/
def violation? (base : Path) (members : List (String × Json)) (field : Field) :
    Option Violation :=
  match members.lookup field.key with
  | none => if field.required then some ⟨base, .missing field.key⟩ else none
  | some value =>
    if field.fits value ∨ (value.isNull ∧ ¬field.required) then none
    else some ⟨base ++ [.member field.key], .mismatch value field.expected⟩

/-- The member of a field whose value does not fit. -/
def misfit? (members : List (String × Json)) (field : Field) : Option (String × Json) :=
  match members.lookup field.key with
  | some value => if field.fits value then none else some (field.key, value)
  | none => none

/-- What the fields do not take: their misfits, in the order of the fields, then the members that
    belong to no field. -/
def leftover (fields : List Field) (members : List (String × Json)) : List (String × Json) :=
  fields.filterMap (misfit? members) ++
    members.filter fun member => !(fields.map (·.key)).contains member.1

end Field

/-! ## Writing -/

/-- The members of an object from what its fields hold and what they left over: fields overwrite
    leftovers of the same key, and keys that the object had keep their order. -/
def writeFields (order : List String) (leftover : List (String × Json))
    (slots : List (String × Option Json)) : List (String × Json) :=
  Members.arrange order
    (slots.foldl (fun members slot => Members.putSome slot.1 slot.2 members) leftover)

end CartoStyle
