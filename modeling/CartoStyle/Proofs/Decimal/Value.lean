import CartoStyle.Decimal.Basic
import CartoStyle.Proofs.Json.Numerals
import Mathlib.Algebra.Order.Field.Power
import Mathlib.Algebra.Order.Field.Rat
import Mathlib.Tactic.Ring

set_option autoImplicit false

/-! # What decimals denote

The number of a decimal, as a rational. Moving zeros into the exponent does not change it
(`Decimal.value_trim`), and a decimal is written as a numeral of its number
(`Decimal.value_magnitude_numeral`), whichever way the numeral is laid out. -/

namespace CartoStyle

/-- A power with a whole exponent is a fraction of powers with natural ones. -/
theorem zpow_eq_div (a : ℚ) (k : ℤ) : a ^ k = a ^ k.toNat / a ^ (-k).toNat := by
  rcases Int.le_total 0 k with h | h
  · obtain ⟨n, rfl⟩ := Int.eq_ofNat_of_zero_le h
    simp
  · obtain ⟨n, hn⟩ := Int.eq_ofNat_of_zero_le (Int.neg_nonneg.2 h)
    obtain rfl : k = -(n : ℤ) := by omega
    simp

namespace Json

theorem digitsValue_append (as bs : List Char) :
    digitsValue (as ++ bs) = digitsValue as * 10 ^ bs.length + digitsValue bs := by
  have hfold : ∀ (n : Nat) (cs : List Char),
      cs.foldl (fun n c => 10 * n + (c.toNat - '0'.toNat)) n =
        n * 10 ^ cs.length + digitsValue cs := by
    intro n cs
    induction cs generalizing n with
    | nil => simp [digitsValue]
    | cons c cs ih =>
      rw [digitsValue, List.foldl_cons, List.foldl_cons, ih, ih (10 * 0 + _), List.length_cons]
      ring
  rw [digitsValue, List.foldl_append, hfold]
  rfl

theorem digitsValue_replicate_zero (n : Nat) : digitsValue (List.replicate n '0') = 0 := by
  induction n with
  | zero => rfl
  | succ n ih => rw [List.replicate_succ', digitsValue_append, ih]; rfl

/-- The magnitude of a numeral as a decimal, with all its digits. -/
def Numeral.magnitude (n : Numeral) : Decimal :=
  let fraction := n.fraction.getD []
  ⟨digitsValue (n.whole ++ fraction), n.power - fraction.length⟩

end Json

namespace Decimal

/-- The number that a decimal stands for. -/
def value (d : Decimal) : ℚ := d.digits * 10 ^ d.exponent

/-! ## The length of digits -/

theorem length_pos (n : Nat) : 0 < length n := Nat.length_toDigits_pos

theorem lt_pow_length (n : Nat) : n < 10 ^ length n :=
  (Nat.length_toDigits_le_iff (by decide) (length_pos n)).1 (Nat.le_refl _)

theorem pow_length_le {n : Nat} (h : 0 < n) : 10 ^ (length n - 1) ≤ n := by
  rcases Nat.eq_zero_or_pos (length n - 1) with hone | hmore
  · rw [hone]
    exact h
  · by_contra hlt
    have hle := (Nat.length_toDigits_le_iff (by decide) hmore).2 (Nat.lt_of_not_le hlt)
    change length n ≤ length n - 1 at hle
    omega

/-! ## Trimming -/

theorem value_trim (d : Decimal) : d.trim.value = d.value := by
  fun_induction trim d with
  | case1 d h ih =>
    have hdigits : d.digits = 10 * (d.digits / 10) := by omega
    rw [ih, value, value, zpow_add_one₀ (by norm_num)]
    conv_rhs => rw [hdigits]
    push_cast
    ring
  | case2 => rfl

/-! ## Numerals -/

theorem digitsValue_padded (places : Nat) (digits : List Char) :
    Json.digitsValue (padded places digits) = Json.digitsValue digits := by
  rw [padded, Json.digitsValue_append, Json.digitsValue_replicate_zero, Nat.zero_mul, Nat.zero_add]

/-- A numeral without exponent is a fraction of its digits. -/
theorem value_magnitude_fraction (negative : Bool) (whole fraction : List Char) :
    (⟨negative, whole, some fraction, none⟩ : Json.Numeral).magnitude.value =
      Json.digitsValue (whole ++ fraction) / 10 ^ fraction.length := by
  simp [Json.Numeral.magnitude, Json.Numeral.power, value, div_eq_mul_inv]

/-- A numeral with an exponent counts the places of its fraction against it. -/
theorem magnitude_exponent (negative : Bool) (whole fraction : List Char) (exponent : ℤ) :
    (⟨negative, whole, if fraction.isEmpty then none else some fraction,
        some (decide (exponent < 0), Nat.toDigits 10 exponent.natAbs)⟩ : Json.Numeral).magnitude =
      ⟨Json.digitsValue (whole ++ fraction), exponent - fraction.length⟩ := by
  have hfraction : (if fraction.isEmpty then none else some fraction).getD [] = fraction := by
    cases fraction <;> rfl
  by_cases h : exponent < 0
  · have habs : -(exponent.natAbs : ℤ) = exponent := by omega
    simp only [Json.Numeral.magnitude, Json.Numeral.power, hfraction, decide_eq_true h, Json.digitsValue_toDigits, habs]
  · have habs : (exponent.natAbs : ℤ) = exponent := by omega
    simp only [Json.Numeral.magnitude, Json.Numeral.power, hfraction, decide_eq_false h, Json.digitsValue_toDigits,
      habs]

/-- **A decimal is written as a numeral of its number.** -/
theorem value_magnitude_numeral (d : Decimal) (negative : Bool) :
    (d.numeral negative).magnitude.value = d.value := by
  have hdigits := Json.digitsValue_toDigits d.digits
  unfold numeral
  dsimp only
  split
  · split
    · next h =>
      -- Zeros up to the point, and one behind it.
      obtain ⟨n, hn⟩ := Int.eq_ofNat_of_zero_le h
      have hzero : Json.digitsValue ['0'] = 0 := rfl
      rw [value_magnitude_fraction, Json.digitsValue_append, Json.digitsValue_append, hdigits, hzero,
        value, hn, Int.toNat_natCast, zpow_natCast]
      by_cases hd : d.digits = 0
      · simp [hd, Json.digitsValue]
      · rw [if_neg hd, Json.digitsValue_replicate_zero, List.length_replicate]
        simp
    · next h =>
      -- The places behind the point are those that the exponent takes away.
      obtain ⟨n, hn⟩ : ∃ n : Nat, -d.exponent = n := Int.eq_ofNat_of_zero_le (by omega)
      have hle : n ≤ (padded n (Nat.toDigits 10 d.digits)).length := by
        simp only [padded, List.length_append, List.length_replicate]
        omega
      have hexponent : d.exponent = -(n : ℤ) := by omega
      rw [hn, Int.toNat_natCast, value_magnitude_fraction, List.take_append_drop, List.length_drop,
        Nat.sub_sub_self hle, digitsValue_padded, hdigits, value, hexponent, zpow_neg, zpow_natCast,
        div_eq_mul_inv]
  · -- The exponent is that of the first digit, and the others stand behind the point.
    obtain ⟨c, more, hcons⟩ : ∃ c more, Nat.toDigits 10 d.digits = c :: more :=
      List.exists_cons_of_ne_nil Nat.toDigits_ne_nil
    have hlength : length d.digits = more.length + 1 := congrArg List.length hcons
    have hexponent : d.leading - more.length = d.exponent := by
      rw [leading, hlength]
      omega
    rw [magnitude_exponent, List.take_append_drop, hdigits, hcons, List.drop_succ_cons,
      List.drop_zero, hexponent]

end Decimal

end CartoStyle
