set_option autoImplicit false

/-! # Failures of reading

Why and where a text is not JSON. A failure knows its cause and how many bytes of the text lie behind
the place it is reported at, from which `Place.ofBytes` finds line and column. -/

namespace CartoStyle

/-! ## Causes -/

/-- Why a text is not JSON. -/
inductive ReadFault where
  | endOfValue
  | endOfString
  | endOfArray
  | endOfObject
  | expectedValue
  | expectedWord
  | expectedItemEnd
  | expectedMemberEnd
  | expectedColon
  | expectedKey
  | trailingComma
  | trailingText
  | numberForm
  | numberRange
  | controlCharacter
  | escapeForm
  | surrogateAlone
  | surrogateCut
  | nesting
  deriving DecidableEq, Repr

namespace ReadFault

/-- The cause in words. -/
def message : ReadFault → String
  | .endOfValue => "EOF while parsing a value"
  | .endOfString => "EOF while parsing a string"
  | .endOfArray => "EOF while parsing a list"
  | .endOfObject => "EOF while parsing an object"
  | .expectedValue => "expected value"
  | .expectedWord => "expected ident"
  | .expectedItemEnd => "expected `,` or `]`"
  | .expectedMemberEnd => "expected `,` or `\x7d`"
  | .expectedColon => "expected `:`"
  | .expectedKey => "key must be a string"
  | .trailingComma => "trailing comma"
  | .trailingText => "trailing characters"
  | .numberForm => "invalid number"
  | .numberRange => "number out of range"
  | .controlCharacter =>
    "control character (\\u0000-\\u001F) found while parsing a string"
  | .escapeForm => "invalid escape"
  | .surrogateAlone => "lone leading surrogate in hex escape"
  | .surrogateCut => "unexpected end of hex escape"
  | .nesting => "recursion limit exceeded"

end ReadFault

/-- A failure inside a text: its cause, and how many bytes lie behind it. -/
structure ReadStop where
  fault : ReadFault
  bytesLeft : Nat
  deriving DecidableEq, Repr

/-- The number of bytes of a text. -/
def bytes (text : List Char) : Nat := text.foldl (fun n c => n + c.utf8Size) 0

namespace ReadStop

/-- Stop right in front of `rest`. -/
def before (fault : ReadFault) (rest : List Char) : ReadStop := ⟨fault, bytes rest⟩

/-- Stop `count` bytes into `rest`, or at the end of the text. -/
def inside (fault : ReadFault) (rest : List Char) (count : Nat) : ReadStop :=
  ⟨fault, bytes rest - count⟩

/-- Stop on the first byte of `rest`, or at the end of the text. -/
def on (fault : ReadFault) (rest : List Char) : ReadStop := inside fault rest 1

end ReadStop

/-- A place in a text: lines count from one, and a column is the number of bytes since the line
    began. -/
structure Place where
  line : Nat
  column : Nat
  deriving DecidableEq, Repr

namespace Place

/-- The place after `count` more bytes. -/
def advance : Nat → Place → List Char → Place
  | _, place, [] => place
  | count, place, c :: rest =>
    if count < c.utf8Size then { place with column := place.column + count }
    else if c = '\n' then advance (count - 1) ⟨place.line + 1, 0⟩ rest
    else advance (count - c.utf8Size) { place with column := place.column + c.utf8Size } rest

/-- The place after the first `count` bytes of a text. -/
def ofBytes (count : Nat) (text : List Char) : Place := advance count ⟨1, 0⟩ text

end Place

/-- Why and where a text is not JSON. -/
structure ReadError where
  fault : ReadFault
  place : Place
  deriving DecidableEq, Repr

namespace ReadError

/-- The failure in words, with its place. -/
def message (e : ReadError) : String :=
  s!"{e.fault.message} at line {e.place.line} column {e.place.column}"

end ReadError

end CartoStyle
