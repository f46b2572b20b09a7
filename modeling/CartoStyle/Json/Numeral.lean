import CartoStyle.Decimal.Binary64
import CartoStyle.Json.Basic
import CartoStyle.Json.Step

set_option autoImplicit false

/-! # Numerals

Reading numbers. A numeral without fraction and exponent that fits a machine word is a whole number;
every other is a float, if it is not beyond the largest one. As many of its digits are looked at as fit
a machine word, and rounding happens more than once (`Decimal.toFloat?`), so a float is near its numeral
but not always the nearest. -/

namespace CartoStyle

namespace Json

/-! ## Values -/

/-- The number that decimal digits denote. -/
def digitsValue (digits : List Char) : Nat :=
  digits.foldl (fun n c => 10 * n + (c.toNat - '0'.toNat)) 0

/-- Read on from a number with digits, as long as it stays below the limit, and leave the digits from
    the first one on that takes it there. -/
def takeDigits (limit value : Nat) : List Char → Nat × List Char
  | [] => (value, [])
  | c :: rest =>
    let next := 10 * value + (c.toNat - '0'.toNat)
    if next < limit then takeDigits limit next rest else (value, c :: rest)

/-- The parts of a numeral. An exponent has a sign, true when it is negative. -/
structure Numeral where
  negative : Bool
  whole : List Char
  fraction : Option (List Char)
  exponent : Option (Bool × List Char)
  deriving Repr

namespace Numeral

/-- The power of ten that the exponent denotes. -/
def power (n : Numeral) : Int :=
  match n.exponent with
  | some (true, digits) => -(digitsValue digits : Int)
  | some (false, digits) => digitsValue digits
  | none => 0

/-- The magnitude as a decimal whose digits fit a machine word. Digits in front of the point that do
    not fit count as zeros. Those behind it are dropped; but as long as they fit they are looked at,
    also where digits in front of the point were not. -/
def decimal (n : Numeral) : Decimal :=
  let fraction := n.fraction.getD []
  let (whole, beyond) := takeDigits (2 ^ 64) 0 n.whole
  let (digits, dropped) := takeDigits (2 ^ 64) whole fraction
  ⟨digits, n.power + beyond.length - (fraction.length - dropped.length : Nat)⟩

/-- Whether neither a fraction nor an exponent is written. -/
def isWhole (n : Numeral) : Bool := n.fraction.isNone && n.exponent.isNone

/-- The number of a numeral; `none` when it is beyond the largest float. Minus zero is a float. -/
def value? (n : Numeral) : Option Number :=
  let whole : Int := digitsValue n.whole
  let signed := if n.negative then -whole else whole
  if n.isWhole ∧ Number.InWord signed ∧ ¬(n.negative ∧ whole = 0) then some (.integer signed)
  else n.decimal.toFloat?.map fun x => .float (if n.negative then -x else x)

/-- How many digits of the exponent are not looked at. An exponent is given up at the digit that
    takes it beyond a 31-bit word. -/
def unseenDigits (n : Numeral) : Nat :=
  match n.exponent with
  | some (_, digits) => (takeDigits (2 ^ 31) 0 digits).2.length - 1
  | none => 0

end Numeral

/-! ## Reading -/

/-- Read one or more digits. -/
def readDigits : Reader (List Char)
  | [] => .error (.on .endOfValue [])
  | c :: rest =>
    if c.isDigit then .ok (c :: rest.takeWhile Char.isDigit, rest.dropWhile Char.isDigit)
    else .error (.on .numberForm (c :: rest))

theorem shrinks_readDigits : Shrinks readDigits := by
  intro text digits rest h
  cases text with
  | nil => simp [readDigits] at h
  | cons c text =>
    simp only [readDigits] at h
    split at h
    · obtain ⟨-, rfl⟩ := Prod.mk.inj (Except.ok.inj h)
      exact Nat.lt_succ_of_le (List.dropWhile_suffix _).sublist.length_le
    · simp at h

/-- Read the digits in front of the point: a zero alone, or digits that do not begin with one. -/
def readWhole : Reader (List Char)
  | '0' :: c :: rest =>
    if c.isDigit then .error (.on .numberForm (c :: rest)) else .ok (['0'], c :: rest)
  | text => readDigits text

theorem shrinks_readWhole : Shrinks readWhole := by
  intro text digits rest h
  unfold readWhole at h
  split at h
  · split at h
    · simp at h
    · obtain ⟨-, rfl⟩ := Prod.mk.inj (Except.ok.inj h)
      simp
  · exact shrinks_readDigits h

/-- Read the point and the digits after it, if there is a point. -/
def readFraction : Reader (Option (List Char))
  | '.' :: rest => do
    let (digits, rest) ← readDigits rest
    return (some digits, rest)
  | text => .ok (none, text)

theorem length_le_of_readFraction {text rest : List Char} {fraction : Option (List Char)}
    (h : readFraction text = .ok (fraction, rest)) : rest.length ≤ text.length := by
  unfold readFraction at h
  split at h
  · obtain ⟨⟨digits, left⟩, hd, h⟩ := bind_eq_ok.1 h
    obtain ⟨-, rfl⟩ := Prod.mk.inj (Except.ok.inj h)
    exact Nat.le_succ_of_le (Nat.le_of_lt (shrinks_readDigits hd))
  · obtain ⟨-, rfl⟩ := Prod.mk.inj (Except.ok.inj h)
    exact Nat.le_refl _

/-- The sign of an exponent, if one is written, and the rest. -/
def takeSign : List Char → Bool × List Char
  | '-' :: rest => (true, rest)
  | '+' :: rest => (false, rest)
  | text => (false, text)

theorem length_takeSign_le (text : List Char) : (takeSign text).2.length ≤ text.length := by
  unfold takeSign
  split <;> simp

/-- Read the exponent, if there is one. -/
def readExponent : Reader (Option (Bool × List Char))
  | c :: rest =>
    if c = 'e' ∨ c = 'E' then do
      let (negative, rest) := takeSign rest
      let (digits, rest) ← readDigits rest
      return (some (negative, digits), rest)
    else .ok (none, c :: rest)
  | [] => .ok (none, [])

theorem length_le_of_readExponent {text rest : List Char} {exponent : Option (Bool × List Char)}
    (h : readExponent text = .ok (exponent, rest)) : rest.length ≤ text.length := by
  unfold readExponent at h
  split at h
  · next c after =>
    split at h
    · obtain ⟨⟨digits, left⟩, hd, h⟩ := bind_eq_ok.1 h
      obtain ⟨-, rfl⟩ := Prod.mk.inj (Except.ok.inj h)
      exact Nat.le_succ_of_le (Nat.le_trans (Nat.le_of_lt (shrinks_readDigits hd))
        (length_takeSign_le after))
    · obtain ⟨-, rfl⟩ := Prod.mk.inj (Except.ok.inj h)
      exact Nat.le_refl _
  · obtain ⟨-, rfl⟩ := Prod.mk.inj (Except.ok.inj h)
    exact Nat.le_refl _

/-- Read a numeral after its sign. -/
def readMagnitude (negative : Bool) : Reader Number := fun text => do
  let (whole, rest) ← readWhole text
  let (fraction, rest) ← readFraction rest
  let (exponent, rest) ← readExponent rest
  let numeral : Numeral := ⟨negative, whole, fraction, exponent⟩
  match numeral.value? with
  | some n => return (n, rest)
  | none => throw ⟨.numberRange, bytes rest + numeral.unseenDigits⟩

theorem shrinks_readMagnitude (negative : Bool) : Shrinks (readMagnitude negative) := by
  intro text n rest h
  obtain ⟨⟨whole, rest₁⟩, h₁, h⟩ := bind_eq_ok.1 h
  obtain ⟨⟨fraction, rest₂⟩, h₂, h⟩ := bind_eq_ok.1 h
  obtain ⟨⟨exponent, rest₃⟩, h₃, h⟩ := bind_eq_ok.1 h
  have lt : rest₃.length < text.length :=
    Nat.lt_of_le_of_lt
      (Nat.le_trans (length_le_of_readExponent h₃) (length_le_of_readFraction h₂))
      (shrinks_readWhole h₁)
  dsimp only at h
  split at h
  · obtain ⟨-, rfl⟩ := Prod.mk.inj (Except.ok.inj h)
    exact lt
  · exact absurd h (by simp [throw, throwThe, MonadExceptOf.throw])

end Json

end CartoStyle
