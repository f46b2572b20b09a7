import CartoStyle.Text.Printable

set_option autoImplicit false

/-! # Quoted text

A text in quotes as messages show it: quotes, backslashes and what cannot be seen are escaped. -/

namespace CartoStyle

namespace Text

/-- The hexadecimal digits of a number. -/
def hex (n : Nat) : String := String.ofList (Nat.toDigits 16 n)

/-- A character as it stands inside a quoted text. -/
def escape (c : Char) : String :=
  match c with
  | '"' => "\\\""
  | '\\' => "\\\\"
  | '\n' => "\\n"
  | '\r' => "\\r"
  | '\t' => "\\t"
  | '\x00' => "\\0"
  | c =>
    if isPrintable c then String.singleton c
    else "\\u\x7b" ++ hex c.toNat ++ "\x7d"

/-- A text in quotes. -/
def quoted (text : String) : String :=
  (text.toList.foldl (fun written c => written ++ escape c) "\"") ++ "\""

end Text

end CartoStyle
