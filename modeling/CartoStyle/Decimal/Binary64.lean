import CartoStyle.Decimal.Basic

set_option autoImplicit false

/-! # Binary floats and their shortest decimals

A finite float is `± significand · 2 ^ exponent`. The reals that round to it form an interval
around it; its shortest decimal is the one with the fewest digits inside that interval, and of
those the nearest. Of two that are equally near a `Tie` decides. All this is exact arithmetic on natural
numbers. Reading a decimal is not: it rounds at every step (`Decimal.toFloat?`), so a shortest decimal
is not always read as the float that it was written for. -/

namespace CartoStyle

-- Powers are those of the core library, also where monoids have powers too.
attribute [default_instance (high + 1)] instPowNat
attribute [local instance (high)] instPowNat

/-- The number `significand · 2 ^ exponent` with a sign. -/
structure Binary64 where
  negative : Bool
  significand : Nat
  exponent : Int
  deriving DecidableEq, Repr

namespace Binary64

/-- The least exponent of a float. -/
def leastExponent : Int := -1074

/-- The significand and exponent of a finite float; `none` for infinities and NaN. -/
def ofFloat? (x : Float) : Option Binary64 :=
  let bits := x.toBits.toNat
  let negative := decide (2 ^ 63 ≤ bits)
  let biased : Nat := bits / 2 ^ 52 % 2 ^ 11
  let fraction : Nat := bits % 2 ^ 52
  if biased = 2047 then none
  else if biased = 0 then some ⟨negative, fraction, leastExponent⟩
  else some ⟨negative, fraction + 2 ^ 52, leastExponent + (biased - 1 : Nat)⟩

/-! ## The interval that rounds to a float -/

/-- A number and the ends of an interval around it, as fractions over one denominator.
    `closed` says whether the ends belong to it. -/
structure Span where
  low : Nat
  mid : Nat
  high : Nat
  denominator : Nat
  closed : Bool
  deriving Repr

/-- The reals that round to the float's magnitude. The gap below a power of two is half as wide
    as the gap above it, and a tie between two floats goes to the even significand. -/
def span (b : Binary64) : Span :=
  let below := if b.significand = 2 ^ 52 ∧ leastExponent < b.exponent then 1 else 2
  let e := b.exponent - 2
  { low := (4 * b.significand - below) * 2 ^ e.toNat
    mid := 4 * b.significand * 2 ^ e.toNat
    high := (4 * b.significand + 2) * 2 ^ e.toNat
    denominator := 2 ^ (-e).toNat
    closed := b.significand % 2 == 0 }

namespace Span

/-- The same interval measured in units of `10 ^ k`. -/
def inUnits (s : Span) (k : Int) : Span :=
  let up := 10 ^ (-k).toNat
  { s with
    low := s.low * up
    mid := s.mid * up
    high := s.high * up
    denominator := s.denominator * 10 ^ k.toNat }

/-- Whether the whole number `n` lies in the interval. -/
def Contains (s : Span) (n : Nat) : Prop :=
  if s.closed then s.low ≤ n * s.denominator ∧ n * s.denominator ≤ s.high
  else s.low < n * s.denominator ∧ n * s.denominator < s.high

instance (s : Span) (n : Nat) : Decidable (s.Contains n) :=
  inferInstanceAs (Decidable (ite _ _ _))

/-- The whole number of the interval that is nearest to its middle. Only the two neighbours of the
    middle have to be tried. -/
def nearest? (s : Span) (tie : Tie) : Option Nat :=
  let n := s.mid / s.denominator
  let twice := 2 * (s.mid % s.denominator)
  if s.Contains n then
    if s.Contains (n + 1) ∧ (s.denominator < twice ∨ s.denominator = twice ∧ tie.GoesUp n)
    then some (n + 1) else some n
  else if s.Contains (n + 1) then some (n + 1) else none

/-- The exponent of the leading decimal digit of the middle. -/
def leading (s : Span) : Int :=
  if s.denominator ≤ s.mid then Decimal.length (s.mid / s.denominator) - 1
  else
    let k := Decimal.length s.denominator - Decimal.length s.mid
    if s.denominator ≤ s.mid * 10 ^ k then -k else -k - 1

end Span

/-! ## The shortest decimal -/

/-- Seventeen significant digits tell all floats apart. -/
def enoughDigits : Nat := 17

/-- The decimal with the fewest digits that rounds to the float's magnitude, nearest to it among
    those. -/
def shortest (b : Binary64) (tie : Tie) : Decimal :=
  if b.significand = 0 then ⟨0, 0⟩
  else
    let s := b.span
    let top := s.leading
    let grids := (List.range enoughDigits).map fun (n : Nat) => top - n
    match grids.findSome? fun k => ((s.inUnits k).nearest? tie).map (Decimal.mk · k) with
    | some d => d.trim
    | none => ⟨s.mid / s.denominator, 0⟩

end Binary64

/-! ## Reading a decimal -/

namespace Decimal

/-- `10 ^ 308` is the largest power of ten that is not beyond the floats. -/
def largestPower : Nat := 308

/-- A power of ten, rounded to a float. -/
def tenTo (power : Nat) : Float := Float.ofScientific 1 false power

/-- Divide by a power of ten, by the largest one as often as the power goes beyond it. -/
def divideTenTo (x : Float) (power : Nat) : Float :=
  if power ≤ largestPower then x / tenTo power
  else if x == 0 then x
  else divideTenTo (x / tenTo largestPower) (power - largestPower)
termination_by power
decreasing_by exact Nat.sub_lt (by omega) (by decide)

/-- The float that a decimal is read as; `none` when that lies beyond the largest float. The digits are
    rounded first and then scaled by a power of ten, which is rounded itself, and the result is rounded
    again. So the float need not be the one that is nearest to the decimal: `94.95886283158103` becomes
    `94.95886283158104`. -/
def toFloat? (d : Decimal) : Option Float :=
  let x := Float.ofNat d.digits
  if d.exponent < 0 then some (divideTenTo x d.exponent.natAbs)
  else if d.exponent.natAbs ≤ largestPower then
    let scaled := x * tenTo d.exponent.natAbs
    if scaled.isInf then none else some scaled
  else if x == 0 then some x
  else none

end Decimal

end CartoStyle
