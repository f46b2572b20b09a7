set_option autoImplicit false

/-! # Coloured text

Text on a terminal is coloured by escape sequences around it. Without colours, text is left as it
is. -/

namespace CartoStyle

/-- A colour. -/
inductive Colour where
  | red
  | green
  | yellow
  | blue
  | cyan
  deriving DecidableEq, Repr

/-- How text is painted. -/
structure Paint where
  bold : Bool := false
  dimmed : Bool := false
  colour : Option Colour := none
  deriving DecidableEq, Repr

namespace Colour

/-- The number of a colour. -/
def code : Colour → String
  | .red => "31"
  | .green => "32"
  | .yellow => "33"
  | .blue => "34"
  | .cyan => "36"

end Colour

namespace Paint

/-- The numbers of a paint. -/
def codes (p : Paint) : List String :=
  (if p.bold then ["1"] else []) ++ (if p.dimmed then ["2"] else []) ++
    (p.colour.map Colour.code).toList

/-- The sequence that starts a paint. -/
def start (p : Paint) : String := "\x1b[" ++ ";".intercalate p.codes ++ "m"

/-- The sequence that ends every paint. -/
def stop : String := "\x1b[0m"

/-- Paint a text if colours are wanted. Where a paint ends inside the text, this one starts anew. -/
def apply (p : Paint) (colours : Bool) (text : String) : String :=
  if colours then p.start ++ text.replace stop (stop ++ p.start) ++ stop else text

/-- Painted bold. -/
def strong : Paint := { bold := true }

/-- Painted bold in a colour. -/
def strongIn (colour : Colour) : Paint := { bold := true, colour := some colour }

/-- Painted in a colour. -/
def plainIn (colour : Colour) : Paint := { colour := some colour }

/-- Painted faintly. -/
def faint : Paint := { dimmed := true }

end Paint

end CartoStyle
