set_option autoImplicit false

/-! # Decimal numbers

`digits · 10 ^ exponent`, the form in which a number is written and read. -/

namespace CartoStyle

/-- The number `digits · 10 ^ exponent`. -/
structure Decimal where
  digits : Nat
  exponent : Int
  deriving DecidableEq, Repr, Inhabited

/-- Which one is taken of two neighbouring whole numbers that are equally near. -/
inductive Tie where
  | toEven
  | upward
  deriving DecidableEq, Repr

namespace Tie

/-- Whether the tie between `n` and `n + 1` goes to `n + 1`. -/
def GoesUp (tie : Tie) (n : Nat) : Prop :=
  match tie with
  | .toEven => n % 2 = 1
  | .upward => True

instance (tie : Tie) (n : Nat) : Decidable (tie.GoesUp n) := by
  unfold GoesUp
  cases tie <;> infer_instance

end Tie

namespace Decimal

/-- How many decimal digits `n` has; zero has one. -/
def length (n : Nat) : Nat := (Nat.toDigits 10 n).length

/-- Move the zeros at the end of the digits into the exponent. -/
def trim (d : Decimal) : Decimal :=
  if h : 0 < d.digits ∧ d.digits % 10 = 0 then trim ⟨d.digits / 10, d.exponent + 1⟩ else d
termination_by d.digits
decreasing_by exact Nat.div_lt_self h.1 (by decide)

/-- The exponent of the leading digit: `1` for 42, `-1` for 0.3. -/
def leading (d : Decimal) : Int := d.exponent + length d.digits - 1

end Decimal

end CartoStyle
