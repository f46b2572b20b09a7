import CartoStyle.Document

set_option autoImplicit false

/-! # Operators

The table of operators that expressions may use, with the number of arguments each takes and the
type of its result where that does not depend on the arguments. -/

namespace CartoStyle

/-- A result type. -/
inductive ValueType where
  | boolean
  | number
  | string
  | color
  | object
  | array
  | collator
  | formatted
  | resolvedImage
  deriving DecidableEq, Repr

namespace ValueType

/-- The name of a result type. -/
def text : ValueType → String
  | .boolean => "boolean"
  | .number => "number"
  | .string => "string"
  | .color => "color"
  | .object => "object"
  | .array => "array"
  | .collator => "collator"
  | .formatted => "formatted"
  | .resolvedImage => "resolvedImage"

end ValueType

/-- An operator: its name, the least and the greatest number of its arguments (`none` when there is
    no limit) and the type of its result (`none` when it varies). -/
structure Operator where
  name : String
  least : Nat
  most : Option Nat
  result : Option ValueType
  deriving DecidableEq, Repr

namespace Operator

/-- Whether the operator takes `count` arguments. -/
def accepts (o : Operator) (count : Nat) : Bool :=
  o.least ≤ count && (match o.most with | some most => count ≤ most | none => true)

/-- The complaint about an operator that no number of arguments suits. -/
def fault? (o : Operator) : Option DocumentError :=
  match o.most with
  | some most =>
    if most < o.least then
      some
        { kind := .internal
          message := s!"Operator '{o.name}' has maxArgs {most} below minArgs {o.least}" }
    else none
  | none => none

/-! ## The table -/

/-- Assertions and conversions between types. -/
def types : List Operator :=
  [⟨"array", 1, some 3, some .array⟩,
    ⟨"boolean", 1, none, some .boolean⟩,
    ⟨"collator", 1, some 1, some .collator⟩,
    ⟨"format", 1, none, some .formatted⟩,
    ⟨"image", 1, some 1, some .resolvedImage⟩,
    ⟨"literal", 1, some 1, none⟩,
    ⟨"number", 1, none, some .number⟩,
    ⟨"number-format", 2, some 2, some .string⟩,
    ⟨"object", 1, none, some .object⟩,
    ⟨"string", 1, none, some .string⟩,
    ⟨"to-boolean", 1, some 1, some .boolean⟩,
    ⟨"to-color", 1, none, some .color⟩,
    ⟨"to-number", 1, none, some .number⟩,
    ⟨"to-string", 1, some 1, some .string⟩,
    ⟨"typeof", 1, some 1, some .string⟩]

/-- What a feature carries. -/
def feature : List Operator :=
  [⟨"accumulated", 0, some 0, some .number⟩,
    ⟨"feature-state", 1, some 1, none⟩,
    ⟨"geometry-type", 0, some 0, some .string⟩,
    ⟨"id", 0, some 0, none⟩,
    ⟨"line-progress", 0, some 0, some .number⟩,
    ⟨"properties", 0, some 0, some .object⟩]

/-- Looking things up. -/
def lookup : List Operator :=
  [⟨"at", 2, some 2, none⟩,
    ⟨"config", 1, some 2, none⟩,
    ⟨"get", 1, some 2, none⟩,
    ⟨"has", 1, some 2, some .boolean⟩,
    ⟨"in", 2, some 2, some .boolean⟩,
    ⟨"index-of", 2, some 3, some .number⟩,
    ⟨"length", 1, some 1, some .number⟩,
    ⟨"slice", 2, some 3, none⟩]

/-- Comparisons and choices. -/
def decision : List Operator :=
  [⟨"!", 1, some 1, some .boolean⟩,
    ⟨"!=", 2, some 3, some .boolean⟩,
    ⟨"<", 2, some 3, some .boolean⟩,
    ⟨"<=", 2, some 3, some .boolean⟩,
    ⟨"==", 2, some 3, some .boolean⟩,
    ⟨">", 2, some 3, some .boolean⟩,
    ⟨">=", 2, some 3, some .boolean⟩,
    ⟨"all", 0, none, some .boolean⟩,
    ⟨"any", 0, none, some .boolean⟩,
    ⟨"case", 3, none, none⟩,
    ⟨"coalesce", 1, none, none⟩,
    ⟨"match", 4, none, none⟩,
    ⟨"within", 1, some 1, some .boolean⟩]

/-- Ramps, scales and curves. -/
def ramps : List Operator :=
  [⟨"interpolate", 4, none, none⟩,
    ⟨"interpolate-hcl", 4, none, some .color⟩,
    ⟨"interpolate-lab", 4, none, some .color⟩,
    ⟨"step", 3, none, none⟩]

/-- Variables. -/
def binding : List Operator :=
  [⟨"let", 3, none, none⟩,
    ⟨"var", 1, some 1, none⟩]

/-- Texts. -/
def strings : List Operator :=
  [⟨"concat", 1, none, some .string⟩,
    ⟨"downcase", 1, some 1, some .string⟩,
    ⟨"is-supported-script", 1, some 1, some .boolean⟩,
    ⟨"resolved-locale", 1, some 1, some .string⟩,
    ⟨"upcase", 1, some 1, some .string⟩]

/-- Colours. -/
def colors : List Operator :=
  [⟨"hsl", 3, some 3, some .color⟩,
    ⟨"hsla", 4, some 4, some .color⟩,
    ⟨"rgb", 3, some 3, some .color⟩,
    ⟨"rgba", 4, some 4, some .color⟩,
    ⟨"to-rgba", 1, some 1, some .array⟩]

/-- Arithmetic. -/
def math : List Operator :=
  [⟨"-", 1, some 2, some .number⟩,
    ⟨"*", 2, none, some .number⟩,
    ⟨"/", 2, some 2, some .number⟩,
    ⟨"%", 2, some 2, some .number⟩,
    ⟨"^", 2, some 2, some .number⟩,
    ⟨"+", 2, none, some .number⟩,
    ⟨"abs", 1, some 1, some .number⟩,
    ⟨"acos", 1, some 1, some .number⟩,
    ⟨"asin", 1, some 1, some .number⟩,
    ⟨"atan", 1, some 1, some .number⟩,
    ⟨"ceil", 1, some 1, some .number⟩,
    ⟨"cos", 1, some 1, some .number⟩,
    ⟨"distance", 1, some 1, some .number⟩,
    ⟨"e", 0, some 0, some .number⟩,
    ⟨"floor", 1, some 1, some .number⟩,
    ⟨"ln", 1, some 1, some .number⟩,
    ⟨"ln2", 0, some 0, some .number⟩,
    ⟨"log10", 1, some 1, some .number⟩,
    ⟨"log2", 1, some 1, some .number⟩,
    ⟨"max", 1, none, some .number⟩,
    ⟨"min", 1, none, some .number⟩,
    ⟨"pi", 0, some 0, some .number⟩,
    ⟨"random", 3, some 3, some .number⟩,
    ⟨"round", 1, some 1, some .number⟩,
    ⟨"sin", 1, some 1, some .number⟩,
    ⟨"sqrt", 1, some 1, some .number⟩,
    ⟨"tan", 1, some 1, some .number⟩]

/-- The camera. -/
def camera : List Operator :=
  [⟨"distance-from-center", 0, some 0, some .number⟩,
    ⟨"pitch", 0, some 0, some .number⟩,
    ⟨"zoom", 0, some 0, some .number⟩]

/-- Heatmaps. -/
def heatmap : List Operator :=
  [⟨"heatmap-density", 0, some 0, some .number⟩]

/-- Every operator, in the order of the groups. -/
def table : List Operator :=
  types ++ feature ++ lookup ++ decision ++ ramps ++ binding ++
    strings ++ colors ++ math ++ camera ++ heatmap

/-- The operator of a name. -/
def find? (name : String) : Option Operator := table.find? (·.name == name)

/-- A few operators that are often meant when a name is unknown. -/
def common : List String :=
  ["get", "==", "all", "any", "case", "match", "interpolate", "step"]

/-- The first name that an earlier operator of the list has too. -/
def repeated? : List String → List Operator → Option String
  | _, [] => none
  | seen, o :: rest => if seen.contains o.name then some o.name else repeated? (o.name :: seen) rest

/-- The complaint about a table that repeats a name or holds an operator at fault. -/
def tableFault? (operators : List Operator) : Option DocumentError :=
  match repeated? [] operators with
  | some name =>
    some { kind := .internal, message := s!"Operator '{name}' is declared more than once" }
  | none => operators.findSome? fault?

/-- The table has no fault. -/
theorem tableFault?_table : tableFault? table = none := by decide +kernel

end Operator

end CartoStyle
