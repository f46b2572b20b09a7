import CartoStyle.Json.Printer

set_option autoImplicit false

/-! # Schemas

A schema is the JSON description of a tool's arguments or output. It is checked only as far as
structured output needs it: every required member is there and has the declared type
(`Schema.fault?`). -/

namespace CartoStyle

namespace Schema

/-! ## Building schemas -/

/-- A value of a type. -/
def typed (type description : String) : Json :=
  .object [("type", .string type), ("description", .string description)]

/-- A value of one of several types. -/
def typedAny (types : List String) (description : String) : Json :=
  .object [("type", .ofStrings types), ("description", .string description)]

/-- A value of any type. -/
def untyped (description : String) : Json := .object [("description", .string description)]

/-- One of several texts. -/
def choice (texts : List String) (description : String) : Json :=
  .object
    [("type", .string "string"), ("enum", .ofStrings texts), ("description", .string description)]

/-- A list of texts, each one of several. -/
def choices (texts : List String) (description : String) : Json :=
  .object
    [("type", .string "array"),
      ("items", .object [("type", .string "string"), ("enum", .ofStrings texts)]),
      ("description", .string description)]

/-- An object with the given properties. -/
def record (required : List String) (properties : List (String × Json)) : Json :=
  .object
    [("type", .string "object"), ("properties", .object properties),
      ("required", .ofStrings required)]

/-! ## Types -/

/-- The type of a value; whole numbers have one of their own. -/
def typeOf : Json → String
  | .number (.integer _) => "integer"
  | value => value.typeName

/-- Whether a value has a type. Whole numbers are numbers. -/
def hasType (value : Json) (type : String) : Bool :=
  type == typeOf value || (type == "number" && typeOf value == "integer")

/-- Whether a value has a declared type. What is not declared is not restricted, and a declaration
    that names no type is met by nothing. -/
def meets (declared value : Json) : Bool :=
  match declared with
  | .null => true
  | .string type => hasType value type
  | .array types => (types.filterMap Json.asString?).any (hasType value)
  | _ => false

/-! ## Checking -/

/-- Why a value does not follow a schema. -/
inductive Fault where
  | notAnObject (found : Json)
  | missing (key : String)
  | mismatch (key : String) (declared found : Json)
  deriving DecidableEq

namespace Fault

/-- The fault in words. -/
def message : Fault → String
  | .notAnObject found => s!"expected an object, got {typeOf found}"
  | .missing key => s!"missing required field '{key}'"
  | .mismatch key declared found =>
    s!"field '{key}' should be {declared.compact}, got {typeOf found}"

end Fault

/-- The names that a schema requires. -/
def required (schema : Json) : List String :=
  (((schema.get? "required").bind Json.asArray?).getD []).filterMap Json.asString?

/-- The type that a schema declares for a member; null where it declares none. -/
def declaredType (schema : Json) (key : String) : Json :=
  (((schema.get? "properties").bind (Json.get? key)).bind (Json.get? "type")).getD .null

/-- What is wrong with a required member. -/
def memberFault? (schema : Json) (members : List (String × Json)) (key : String) :
    Option Fault :=
  match members.lookup key with
  | none => some (.missing key)
  | some value =>
    let declared := declaredType schema key
    if meets declared value then none else some (.mismatch key declared value)

/-- The first reason why a value does not follow a schema, in the order in which the schema requires
    members. -/
def fault? (schema value : Json) : Option Fault :=
  match value with
  | .object members => (required schema).findSome? (memberFault? schema members)
  | other => some (.notAnObject other)

end Schema

end CartoStyle
