import CartoStyle.Decimal.Binary64

set_option autoImplicit false

/-! # Written numbers

How a float is written: the digits are always the shortest that read back, the layout says which of
two equally near ones are taken, where the point goes and when an exponent is used. -/

namespace CartoStyle

/-- The choices that a written form leaves open. -/
structure Layout where
  /-- Where a tie between two shortest decimals goes. -/
  tie : Tie
  /-- The exponents of the leading digit that are written without `e`. -/
  positional : Int → Bool
  /-- Whether a whole number ends in `.0`. -/
  wholePoint : Bool
  /-- The text of infinities and of what is not a number. -/
  undefinedText : String

namespace Layout

/-- Numerals of a JSON document: ties go to the even digit, positional from `1e-5` below `1e16`, a
    whole float shows that it is one, and what JSON has no numeral for is `null`. -/
def numeral : Layout :=
  { tie := .toEven
    positional := fun e => decide (-5 ≤ e ∧ e < 16)
    wholePoint := true
    undefinedText := "null" }

/-- Numbers inside a sentence: ties go away from zero, always positional, whole numbers without a
    point. -/
def prose : Layout :=
  { tie := .upward
    positional := fun _ => true
    wholePoint := false
    undefinedText := "inf" }

end Layout

namespace Decimal

/-- `count` zeros. -/
def zeros (count : Nat) : String := String.ofList (List.replicate count '0')

/-- The digits with a point in their place, and without exponent. -/
def positional (d : Decimal) (wholePoint : Bool) : String :=
  let digits := Nat.toDigits 10 d.digits
  if 0 ≤ d.exponent then
    String.ofList digits ++ (if d.digits = 0 then "" else zeros d.exponent.toNat) ++
      (if wholePoint then ".0" else "")
  else
    let places := (-d.exponent).toNat
    let padded := List.replicate (places + 1 - digits.length) '0' ++ digits
    let whole := padded.length - places
    String.ofList (padded.take whole) ++ "." ++ String.ofList (padded.drop whole)

/-- One digit before the point and the exponent with its sign. -/
def scientific (d : Decimal) : String :=
  let digits := Nat.toDigits 10 d.digits
  let fraction := digits.drop 1
  let e := d.leading
  String.ofList (digits.take 1) ++
    (if fraction.isEmpty then "" else "." ++ String.ofList fraction) ++
    (if e < 0 then "e-" else "e+") ++ toString e.natAbs

/-- The decimal as the layout has it. -/
def write (layout : Layout) (d : Decimal) : String :=
  if layout.positional d.leading then d.positional layout.wholePoint else d.scientific

end Decimal

/-- A float as the layout has it. Zero keeps its sign. -/
def writeFloat (layout : Layout) (x : Float) : String :=
  match Binary64.ofFloat? x with
  | some b => (if b.negative then "-" else "") ++ (b.shortest layout.tie).write layout
  | none => layout.undefinedText

end CartoStyle
