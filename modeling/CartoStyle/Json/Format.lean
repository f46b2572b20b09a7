import CartoStyle.Json.Printer

set_option autoImplicit false

/-! # Formats

A format says what each kind of value becomes, an array or object from what its parts became. The
texts of `Json.renderOnto` are formats, and so is JSON itself; whatever else takes values apart from
the outside in can be given as one, so that two values that are encoded alike in every format cannot
be told apart by any way of writing them. -/

namespace CartoStyle

namespace Json

/-- What each kind of value becomes in a format. -/
structure Format (α : Type) where
  null : α
  bool : Bool → α
  number : Number → α
  string : String → α
  array : List α → α
  object : List (String × α) → α

mutual

/-- A value in a format. -/
def encode {α : Type} (format : Format α) : Json → α
  | .null => format.null
  | .bool b => format.bool b
  | .number n => format.number n
  | .string s => format.string s
  | .array items => format.array (encodeItems format items)
  | .object members => format.object (encodeMembers format members)

/-- The items of an array in a format. -/
def encodeItems {α : Type} (format : Format α) : List Json → List α
  | [] => []
  | item :: rest => item.encode format :: encodeItems format rest

/-- The members of an object in a format. -/
def encodeMembers {α : Type} (format : Format α) : List (String × Json) → List (String × α)
  | [] => []
  | (key, value) :: rest => (key, value.encode format) :: encodeMembers format rest

end

namespace Format

/-- JSON as a format: values are kept as they are. -/
def plain : Format Json where
  null := .null
  bool := .bool
  number := .number
  string := .string
  array := .array
  object := .object

/-! ## Texts -/

/-- What appends a text to the text so far, at a nesting level. -/
abbrev Appender := Nat → String → String

/-- Append the items after the first and the closing bracket. -/
def appendItems (spacing : Spacing) (level : Nat) (written : String) : List Appender → String
  | [] => written ++ spacing.lineBreak level ++ "]"
  | item :: rest =>
    appendItems spacing level (item (level + 1) (written ++ "," ++ spacing.lineBreak (level + 1))) rest

/-- Append the members after the first and the closing brace. -/
def appendMembers (spacing : Spacing) (level : Nat) (written : String) :
    List (String × Appender) → String
  | [] => written ++ spacing.lineBreak level ++ "\x7d"
  | (key, value) :: rest =>
    appendMembers spacing level
      (value (level + 1)
        (quoteOnto (written ++ "," ++ spacing.lineBreak (level + 1)) key ++ spacing.colon))
      rest

/-- JSON text as a format. -/
def text (spacing : Spacing) : Format Appender where
  null _ written := written ++ "null"
  bool b _ written := written ++ (if b then "true" else "false")
  number n _ written := written ++ n.render
  string s _ written := quoteOnto written s
  array items level written :=
    match items with
    | [] => written ++ "[]"
    | item :: rest =>
      appendItems spacing level
        (item (level + 1) (written ++ "[" ++ spacing.lineBreak (level + 1))) rest
  object members level written :=
    match members with
    | [] => written ++ "\x7b\x7d"
    | (key, value) :: rest =>
      appendMembers spacing level
        (value (level + 1)
          (quoteOnto (written ++ "\x7b" ++ spacing.lineBreak (level + 1)) key ++ spacing.colon))
        rest

end Format

end Json

end CartoStyle
