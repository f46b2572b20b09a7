import CartoStyle.Json.Basic
import CartoStyle.Decimal.Layout

set_option autoImplicit false

/-! # Writing JSON

A value is written either on one line without blanks or indented, one item or member a line. The
text is built from left to right: each function appends to the text so far. -/

namespace CartoStyle

namespace Number

/-- The numeral of a number. -/
def render : Number → String
  | .integer n => toString n
  | .float x => writeFloat .numeral x

end Number

namespace Json

/-! ## Strings -/

/-- A character as it stands inside a quoted string. Only the quote, the backslash and control
    characters below the blank are escaped. -/
def escape (c : Char) : String :=
  match c with
  | '"' => "\\\""
  | '\\' => "\\\\"
  | '\n' => "\\n"
  | '\r' => "\\r"
  | '\t' => "\\t"
  | '\x08' => "\\b"
  | '\x0c' => "\\f"
  | c =>
    if c.toNat < 0x20 then
      "\\u00" ++ String.ofList [Nat.digitChar (c.toNat / 16), Nat.digitChar (c.toNat % 16)]
    else String.singleton c

/-- Append a text in quotes. -/
def quoteOnto (written : String) (text : String) : String :=
  (text.toList.foldl (fun written c => written ++ escape c) (written ++ "\"")) ++ "\""

/-! ## Values -/

/-- How the parts of arrays and objects are set apart. -/
inductive Spacing where
  | compact
  | indented
  deriving DecidableEq, Repr

namespace Spacing

/-- What stands before an item, a member or a closing bracket at a nesting level. -/
def lineBreak : Spacing → Nat → String
  | .compact, _ => ""
  | .indented, level => "\n" ++ String.ofList (List.replicate (2 * level) ' ')

/-- What stands between a key and its value. -/
def colon : Spacing → String
  | .compact => ":"
  | .indented => ": "

end Spacing

mutual

/-- Append a value that stands at a nesting level. -/
def renderOnto (spacing : Spacing) (level : Nat) (written : String) : Json → String
  | .null => written ++ "null"
  | .bool b => written ++ (if b then "true" else "false")
  | .number n => written ++ n.render
  | .string s => quoteOnto written s
  | .array [] => written ++ "[]"
  | .array (item :: rest) =>
    renderItems spacing level
      (item.renderOnto spacing (level + 1) (written ++ "[" ++ spacing.lineBreak (level + 1)))
      rest
  | .object [] => written ++ "\x7b\x7d"
  | .object ((key, value) :: rest) =>
    renderMembers spacing level
      (value.renderOnto spacing (level + 1)
        (quoteOnto (written ++ "\x7b" ++ spacing.lineBreak (level + 1)) key ++ spacing.colon))
      rest

/-- Append the items after the first and the closing bracket. -/
def renderItems (spacing : Spacing) (level : Nat) (written : String) : List Json → String
  | [] => written ++ spacing.lineBreak level ++ "]"
  | item :: rest =>
    renderItems spacing level
      (item.renderOnto spacing (level + 1) (written ++ "," ++ spacing.lineBreak (level + 1)))
      rest

/-- Append the members after the first and the closing brace. -/
def renderMembers (spacing : Spacing) (level : Nat) (written : String) :
    List (String × Json) → String
  | [] => written ++ spacing.lineBreak level ++ "\x7d"
  | (key, value) :: rest =>
    renderMembers spacing level
      (value.renderOnto spacing (level + 1)
        (quoteOnto (written ++ "," ++ spacing.lineBreak (level + 1)) key ++ spacing.colon))
      rest

end

/-- The text of a value on one line. -/
def compact (value : Json) : String := value.renderOnto .compact 0 ""

/-- The text of a value, indented by two blanks a level. -/
def pretty (value : Json) : String := value.renderOnto .indented 0 ""

end Json

end CartoStyle
