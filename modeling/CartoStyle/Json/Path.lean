import CartoStyle.Json.Basic

set_option autoImplicit false

/-! # Places inside a document

A path leads from the root of a document to one of its values, by member names and array
positions. Reports write it as `layers[2].paint.fill-color`. -/

namespace CartoStyle

/-- One step down from a value to one it holds. -/
inductive Step where
  | member (name : String)
  | index (position : Nat)
  deriving DecidableEq, Repr

/-- The steps from the root of a document. -/
abbrev Path := List Step

namespace Path

/-- The text of the steps that follow a non-empty path: `.name` and `[position]`. -/
def tailText : Path → String
  | [] => ""
  | .member name :: rest => "." ++ name ++ tailText rest
  | .index position :: rest => "[" ++ toString position ++ "]" ++ tailText rest

/-- The written form: no dot in front of a name at the start, and no text for the root. -/
def text : Path → String
  | .member name :: rest => name ++ tailText rest
  | path => tailText path

end Path

namespace Json

/-- The value that one step leads to. -/
def step? : Json → Step → Option Json
  | .object members, .member name => members.lookup name
  | .array items, .index position => items[position]?
  | _, _ => none

/-- The value that a path leads to. -/
def at? (value : Json) : Path → Option Json
  | [] => some value
  | step :: rest => (value.step? step).bind (·.at? rest)

end Json

end CartoStyle
