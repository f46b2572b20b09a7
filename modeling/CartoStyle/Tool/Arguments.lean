import CartoStyle.Json.Shape

set_option autoImplicit false

/-! # Arguments

A signature names the parameters of a call. Arguments come as an object, by name, or as an array, by
position; parameters that are not required may be left out either way. Values that do not fit are
reported before parameters that are missing. -/

namespace CartoStyle

/-! ## Faults -/

/-- Why arguments do not suit a signature. -/
inductive ArgumentFault where
  | mismatch (found : Json) (expected : String)
  | missing (name : String)
  /-- An array stops before a required parameter. -/
  | tooShort (count : Nat) (record : String) (size : Nat)
  | tooLong (count : Nat)
  deriving DecidableEq

namespace ArgumentFault

/-- The fault in words. -/
def message : ArgumentFault → String
  | .mismatch found expected => found.mismatch expected
  | .missing name => Json.missing name
  | .tooShort count record size =>
    s!"invalid length {count}, expected struct {record} with {size} " ++
      (if size = 1 then "element" else "elements")
  | .tooLong count => s!"invalid length {count}, expected fewer elements in array"

end ArgumentFault

/-! ## Parameters -/

/-- A parameter: its name, whether it must be given, and what is wrong with a value for it. -/
structure Param where
  name : String
  required : Bool
  fault? : Json → Option ArgumentFault

namespace Param

/-- What is wrong with a value that should have a shape. -/
def shapeFault? {α : Type} (shape : Shape α) (value : Json) : Option ArgumentFault :=
  if shape.Fits value then none else some (.mismatch value shape.expected)

/-- A parameter of a shape that must be given. -/
def mandatory {α : Type} (name : String) (shape : Shape α) : Param :=
  ⟨name, true, shapeFault? shape⟩

/-- A parameter of a shape that may be left out or null. -/
def optional {α : Type} (name : String) (shape : Shape α) : Param :=
  ⟨name, false, fun value => if value.isNull then none else shapeFault? shape value⟩

/-- What is wrong with a value that should be a list of texts. -/
def textsFault? : Json → Option ArgumentFault
  | .array items => items.findSome? (shapeFault? .text)
  | other => some (.mismatch other "a sequence")

/-- A parameter that is a list of texts, and may be left out or null. -/
def texts (name : String) : Param :=
  ⟨name, false, fun value => if value.isNull then none else textsFault? value⟩

end Param

/-! ## Signatures -/

/-- The parameters of a call, under the name by which messages refer to them. -/
structure Signature where
  record : String
  params : List Param

namespace Signature

/-- What is wrong with an argument given by name. Unknown names are ignored. -/
def namedFault? (s : Signature) (name : String) (value : Json) : Option ArgumentFault :=
  (s.params.find? (·.name == name)).bind (·.fault? value)

/-- What is wrong with arguments given by name: values in the order in which they are given, then
    missing parameters. -/
def membersFault? (s : Signature) (members : List (String × Json)) : Option ArgumentFault :=
  members.findSome? (fun (name, value) => s.namedFault? name value) <|>
    s.params.findSome? fun p =>
      if p.required && (members.lookup p.name).isNone then some (.missing p.name) else none

/-- What is wrong with arguments given by position. -/
def itemsFault? (s : Signature) (items : List Json) : Option ArgumentFault :=
  s.params.zipIdx.findSome? (fun (p, i) =>
      match items[i]? with
      | some value => p.fault? value
      | none => if p.required then some (.tooShort i s.record s.params.length) else none) <|>
    if s.params.length < items.length then some (.tooLong items.length) else none

/-- The first reason why a value is no list of arguments. -/
def fault? (s : Signature) : Json → Option ArgumentFault
  | .object members => s.membersFault? members
  | .array items => s.itemsFault? items
  | other => some (.mismatch other s!"struct {s.record}")

/-- The arguments by name. -/
def named (s : Signature) : Json → List (String × Json)
  | .object members => members
  | .array items => (s.params.map Param.name).zip items
  | _ => []

/-- The arguments of a call by name, if they suit the signature. -/
def bind (s : Signature) (value : Json) : Except ArgumentFault (List (String × Json)) :=
  match s.fault? value with
  | some fault => .error fault
  | none => .ok (s.named value)

end Signature

end CartoStyle
