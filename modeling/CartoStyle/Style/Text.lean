import CartoStyle.Style.Basic

set_option autoImplicit false

/-! # Styles as text

Decoding a style straight from JSON text. Its failures are one line each, and a value that is no
style is reported before trouble in the text behind it. -/

namespace CartoStyle

namespace Style

/-- Decode the text of a style strictly. -/
def ofText (text : String) : Except (ReadError ⊕ DocumentError) Style :=
  Json.parseAs (ofJson .strict) text

/-- Why a text is no style, in one line. -/
def textFailure : ReadError ⊕ DocumentError → String
  | .inl e => e.message
  | .inr e => e.line

end Style

end CartoStyle
