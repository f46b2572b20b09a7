import CartoStyle.Proofs.Decimal.Order
import Mathlib.Data.Nat.Log
import Mathlib.Tactic.Common

set_option autoImplicit false

/-! # Whole numbers as floats

A whole number that fits a machine word becomes a finite float (`Binary64.isFinite_ofInt`): rounding
keeps its exponent far below the greatest one. What is bounded is the exponent alone
(`Binary64.AtMost`), through rounding, through packing and through the product with the power of ten
of the numeral. -/

namespace CartoStyle

open Float.Model (Format UnpackedFloat)
open Float.Model.UnpackedFloat

namespace Binary64

/-- A finite float whose exponent is not above a bound. -/
inductive AtMost (bound : Int) : UnpackedFloat → Prop
  | zero (sign : Sign) : AtMost bound (.zero sign)
  | finite (sign : Sign) {mantissa : Nat} {exponent : Int} (positive : 0 < mantissa)
      (le : exponent ≤ bound) : AtMost bound (.finite sign mantissa exponent positive)

theorem AtMost.isFinite {bound : Int} {u : UnpackedFloat} (h : AtMost bound u) :
    u.isFinite = true := by
  cases h <;> rfl

theorem AtMost.neg {bound : Int} {u : UnpackedFloat} (h : AtMost bound u) :
    AtMost bound u.neg := by
  cases h with
  | zero sign => exact .zero _
  | finite sign positive le => exact .finite _ positive le

theorem AtMost.mono {bound bound' : Int} {u : UnpackedFloat} (h : AtMost bound u)
    (le : bound ≤ bound') : AtMost bound' u := by
  cases h with
  | zero sign => exact .zero _
  | finite sign positive le' => exact .finite _ positive (le'.trans le)

theorem AtMost.dite {bound : Int} {c : Prop} [Decidable c] {u : c → UnpackedFloat}
    {v : ¬c → UnpackedFloat} (hu : ∀ h, AtMost bound (u h)) (hv : ∀ h, AtMost bound (v h)) :
    AtMost bound (if h : c then u h else v h) := by
  split
  · exact hu _
  · exact hv _

theorem Unpacked.atMost {biased : Nat} {u : UnpackedFloat} {bound : Int} (h : Unpacked biased u)
    (finite : biased < 2047) (le : (max biased 1 : Nat) - 1075 ≤ bound) : AtMost bound u := by
  cases h with
  | infinity sign greatest => omega
  | notANumber greatest => omega
  | zero sign => exact .zero sign
  | finite sign positive _ _ unit => exact .finite sign positive (unit ▸ le)

/-! ## Rounding -/

/-- Shifting to the right halves the mantissa each time. -/
theorem mantissa_repeat_shiftRightOne (em : ExtendedMantissa) (n : Nat) :
    (n.repeat ExtendedMantissa.shiftRightOne em).mantissa = em.mantissa / 2 ^ n := by
  induction n with
  | zero => simp [Nat.repeat]
  | succ n ih =>
    rw [Nat.repeat, ExtendedMantissa.shiftRightOne, ih, Nat.div_div_eq_div_mul, Nat.pow_succ]

theorem roundedMantissa_le (em : ExtendedMantissa) : em.roundedMantissa ≤ em.mantissa + 1 := by
  unfold ExtendedMantissa.roundedMantissa
  cases em.accuracy with
  | exact => exact Nat.le_succ _
  | inexact o =>
    cases o <;> simp only [Accuracy.roundToNearestEven] <;> omega

/-- A rounded mantissa is at most a bit longer than what was kept of it. -/
theorem log2_roundedMantissa_le (mantissa n : Nat) :
    ((ExtendedMantissa.ofMantissaAndAccuracy mantissa .exact) >>> n).roundedMantissa.log2 ≤
      mantissa.log2 + 1 - n := by
  set em := (ExtendedMantissa.ofMantissaAndAccuracy mantissa .exact) >>> n with hem
  have hmantissa : em.mantissa = mantissa / 2 ^ n := mantissa_repeat_shiftRightOne _ n
  have hle := roundedMantissa_le em
  have hlt : mantissa / 2 ^ n < 2 ^ (mantissa.log2 + 1 - n) := by
    rw [Nat.div_lt_iff_lt_mul (Nat.two_pow_pos n), ← Nat.pow_add]
    refine Nat.lt_of_lt_of_le Nat.lt_log2_self (Nat.pow_le_pow_right (by decide) ?_)
    omega
  by_cases hzero : em.roundedMantissa = 0
  · rw [hzero]
    exact Nat.zero_le _
  · rw [← Nat.lt_succ_iff, Nat.succ_eq_add_one, Nat.log2_lt hzero, Nat.pow_succ]
    omega

/-- Rounding keeps the exponent below a bound that leaves room for the mantissa. -/
theorem atMost_roundWithAccuracy (sign : Sign) {mantissa : Nat} {exponent bound : Int}
    (hexponent : exponent ≤ bound) (least : -1074 ≤ bound)
    (room : mantissa.log2 + 1 + exponent ≤ bound + 52) :
    AtMost bound (roundWithAccuracy .binary64 sign mantissa exponent .exact) := by
  have hbits : Format.binary64.mantissaBits = 53 := rfl
  have hleast : Format.binary64.minExponent = -1074 := rfl
  unfold roundWithAccuracy
  refine .dite (fun _ => .zero _) fun _ => .finite _ _ ?_
  simp only [Format.targetExponent, Float.Model.totalExponent, hbits, hleast]
  have hlog := log2_roundedMantissa_le mantissa
    (max (mantissa.log2 + 1 + exponent - (53 : Nat)) (-1074) - exponent).toNat
  revert hlog
  generalize Nat.log2 (ExtendedMantissa.roundedMantissa _) = l
  intro hlog
  omega

/-! ## Packing -/

/-- Packing and unpacking keep the exponent below a bound at which nothing is too large. -/
theorem AtMost.unpack_pack {bound : Int} {u : UnpackedFloat} (h : AtMost bound u)
    (least : -1074 ≤ bound) (most : bound ≤ 971) :
    AtMost bound (unpack .binary64 (pack .binary64 u)) := by
  have hbias : ((Format.binary64.exponentBias : Nat) : Int) = 1023 := rfl
  have hbits : ((Format.binary64.mantissaBitsWithoutImplicit : Nat) : Int) = 52 := rfl
  -- The bits that are packed hold the exponent, or the least one.
  have hcomponents : ∀ {sign : Sign} {exponent : BitVec 11} {mantissa : BitVec 52},
      exponent.toNat < 2047 → (max exponent.toNat 1 : Nat) - 1075 ≤ bound →
        AtMost bound (unpack .binary64 (packComponents .binary64 sign exponent mantissa)) := by
    intro sign exponent mantissa finite hbound
    have hunpacked := unpacked (packComponents .binary64 sign exponent mantissa)
    rw [unpackExponent_packComponents] at hunpacked
    exact hunpacked.atMost finite hbound
  cases h with
  | zero sign => exact hcomponents (by decide) least
  | @finite sign mantissa exponent positive le =>
    have hbiased : (exponent + 1023 + 52).toNat + 1 < 2 ^ 11 := by omega
    unfold pack
    dsimp only
    simp only [hbias, hbits]
    rw [if_neg (Nat.not_le.2 hbiased)]
    split
    · have htoNat : (BitVec.ofNat 11 (exponent + 1023 + 52).toNat).toNat =
          (exponent + 1023 + 52).toNat := by
        rw [BitVec.toNat_ofNat, Nat.mod_eq_of_lt (by omega)]
      exact hcomponents (by omega) (by omega)
    · exact hcomponents (by decide) least

/-! ## Whole numbers -/

theorem log2_shiftLeft_le {n : Nat} (positive : 0 < n) (k : Nat) :
    (n <<< k).log2 ≤ n.log2 + k := by
  rw [Nat.shiftLeft_eq, ← Nat.lt_succ_iff, Nat.succ_eq_add_one,
    Nat.log2_lt (Nat.mul_ne_zero positive.ne' (Nat.two_pow_pos k).ne'), Nat.add_right_comm,
    Nat.pow_add]
  exact Nat.mul_lt_mul_of_pos_right Nat.lt_log2_self (Nat.two_pow_pos k)

theorem atMost_ofNat {n : Nat} (h : n < 2 ^ 53) : AtMost 1 (ofNat .binary64 n) := by
  have hbits : Format.binary64.mantissaBits = 53 := rfl
  have hleast : Format.binary64.minExponent = -1074 := rfl
  unfold ofNat ofInt UnpackedFloat.normalize
  split
  · next hneg =>
    rw [compare_lt_iff_lt] at hneg
    omega
  · exact .zero _
  · next hpos =>
    rw [compare_gt_iff_gt] at hpos
    have hlog : n.log2 < 53 := (Nat.log2_lt (by omega)).2 h
    have hshift := log2_shiftLeft_le (n := n) (by omega)
      ((0 : Int) - max (n.log2 + 1 + (0 : Int) - (53 : Nat)) (-1074)).toNat
    rw [Int.toNat_natCast]
    unfold UnpackedFloat.round decreaseExponent
    simp only [Format.targetExponent, Float.Model.totalExponent, hbits, hleast]
    exact atMost_roundWithAccuracy _ (by omega) (by decide) (by omega)

/-- A product with one keeps room for its mantissa. -/
theorem AtMost.mul_one {u : UnpackedFloat} (h : AtMost 1 u) (number : u = .notANumber ∨ Ordered u) :
    AtMost 2 (mul .binary64 u (.finite .positive (2 ^ 52) (-52) (by decide))) := by
  cases h with
  | zero sign => exact .zero _
  | @finite sign mantissa exponent positive le =>
    have short : mantissa < 2 ^ 53 := by
      rcases number with hnan | hordered
      · cases hnan
      · cases hordered
        assumption
    have hlog : mantissa.log2 < 53 := (Nat.log2_lt positive.ne').2 short
    have hshift := log2_shiftLeft_le positive 52
    rw [Nat.shiftLeft_eq] at hshift
    unfold mul
    exact atMost_roundWithAccuracy _ (by omega) (by decide) (by omega)

theorem atMost_ofScientific {n : Nat} (positive : 0 < n) (h : n < 2 ^ 64) :
    AtMost 12 (ofScientific .binary64 n 0) := by
  have hlog : n.log2 < 64 := (Nat.log2_lt positive.ne').2 h
  have hshift := log2_shiftLeft_le positive 53
  unfold ofScientific
  have hbits : (2 : Int) ^ Format.binary64.exponentBits = 2048 := rfl
  rw [dif_neg positive.ne', if_neg (by decide), if_neg (by omega), if_pos (by decide)]
  unfold mul
  refine atMost_roundWithAccuracy _ (by decide) (by decide) ?_
  show ((n <<< 53 * 1).log2 + 1 + (-53 + 0) : Int) ≤ 12 + 52
  rw [Nat.mul_one]
  omega

/-- One, as it is unpacked. -/
theorem unpack_one : Float.exactlyRepresentablePowersOfTen[0].toModel.unpack =
    .finite .positive (2 ^ 52) (-52) (by decide) := rfl

/-- A whole number of a machine word is a finite float. -/
theorem atMost_toFloat {n : Nat} (h : n < 2 ^ 64) : AtMost 971 (Float.ofNat n).toModel.unpack := by
  show AtMost 971 (Float.ofScientific n false 0).toModel.unpack
  unfold Float.ofScientific
  split
  · next hn =>
    -- A number that is exact is multiplied by one.
    have hfactor : AtMost 1 (Float.Model.ofUInt64 n.toUInt64).unpack := by
      show AtMost 1 (unpack .binary64 (pack .binary64 (ofNat .binary64 n.toUInt64.toNat)))
      rw [Nat.toUInt64_eq, UInt64.toNat_ofNat', Nat.mod_eq_of_lt h]
      exact (atMost_ofNat hn.1).unpack_pack (by decide) (by decide)
    have hproduct := (hfactor.mul_one (unpacked _).ordered).mono (show (2 : Int) ≤ 971 by decide)
    rw [← unpack_one] at hproduct
    exact hproduct.unpack_pack (by decide) (by decide)
  · next hlarge =>
    refine AtMost.unpack_pack (u := ofScientific _ _ _) ?_ (by decide) (by decide)
    exact (atMost_ofScientific (by omega) h).mono (by decide)

/-- Whole numbers that fit a machine word are finite floats. -/
theorem isFinite_ofInt {n : Int} (h : Number.InWord n) : (Float.ofInt n).isFinite = true := by
  obtain ⟨hlow, hhigh⟩ := h
  cases n with
  | ofNat n =>
    rw [Int.ofNat_eq_natCast] at hhigh
    exact (atMost_toFloat (by omega)).isFinite
  | negSucc n =>
    have hpositive : AtMost 971 (Float.ofNat (n + 1)).toModel.unpack := atMost_toFloat (by omega)
    exact (hpositive.neg.unpack_pack (by decide) (by decide)).isFinite

end Binary64

end CartoStyle
