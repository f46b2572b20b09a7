import CartoStyle.Proofs.Decimal.Shortest
import CartoStyle.Json.Basic
import Mathlib.Order.Compare
import Mathlib.Data.Int.Order.Basic

set_option autoImplicit false

/-! # The order of floats

Floats that are numbers are ordered as whole numbers are: each has a rank (`Binary64.rank`), the two
zeros the same one, and comparing floats is comparing ranks (`Binary64.lt_iff_rank`,
`Binary64.le_iff_rank`, `Binary64.beq_iff_rank`). Floats that are no numbers are not ordered. -/

namespace CartoStyle

open Float.Model (UnpackedFloat Format)
open Float.Model.UnpackedFloat (Sign)

namespace Binary64

/-- Where a float stands among all floats: its exponent counts before its significand. -/
def unpackedRank : UnpackedFloat → Int
  | .notANumber => 0
  | .infinity sign => sign.apply (2 ^ 65)
  | .zero _ => 0
  | .finite sign mantissa exponent _ => sign.apply ((exponent - leastExponent) * 2 ^ 53 + mantissa)

/-- What the bits of a float are unpacked to, by the exponent they hold: the greatest one is for what
    is not finite, and the least one has the unit of the next. -/
inductive Unpacked (biased : Nat) : UnpackedFloat → Prop
  | infinity (sign : Sign) (greatest : biased = 2047) : Unpacked biased (.infinity sign)
  | notANumber (greatest : biased = 2047) : Unpacked biased .notANumber
  | zero (sign : Sign) (finite : biased < 2047) : Unpacked biased (.zero sign)
  | finite (sign : Sign) {mantissa : Nat} {exponent : Int} (positive : 0 < mantissa)
      (finite : biased < 2047) (short : mantissa < 2 ^ 53)
      (unit : exponent = (max biased 1 : Nat) - 1075) :
      Unpacked biased (.finite sign mantissa exponent positive)

theorem unpacked (b : BitVec Format.binary64.numBits) :
    Unpacked (UnpackedFloat.unpackExponent b).toNat (UnpackedFloat.unpack .binary64 b) := by
  have hbias : ((Format.binary64.exponentBias : Nat) : Int) = 1023 := rfl
  have hbits : ((Format.binary64.mantissaBitsWithoutImplicit : Nat) : Int) = 52 := rfl
  have hmantissa : (UnpackedFloat.unpackMantissa b).toNat < 2 ^ 52 :=
    (UnpackedFloat.unpackMantissa b).isLt
  have hexponent : (UnpackedFloat.unpackExponent b).toNat < 2 ^ 11 :=
    (UnpackedFloat.unpackExponent b).isLt
  have himplicit : (1#1 ++ UnpackedFloat.unpackMantissa b).toNat =
      2 ^ 52 + (UnpackedFloat.unpackMantissa b).toNat := by
    rw [BitVec.toNat_append, ← Nat.shiftLeft_add_eq_or_of_lt hmantissa]
    rfl
  unfold UnpackedFloat.unpack
  dsimp only
  by_cases hgreatest : UnpackedFloat.unpackExponent b = -1#_
  · have hbiased : (UnpackedFloat.unpackExponent b).toNat = 2047 := by
      rw [hgreatest]
      rfl
    rw [if_pos hgreatest]
    by_cases hzero : UnpackedFloat.unpackMantissa b = 0#_
    · rw [if_pos hzero]
      exact .infinity _ hbiased
    · rw [if_neg hzero]
      exact .notANumber hbiased
  · have hbiased : (UnpackedFloat.unpackExponent b).toNat ≠ 2047 := by
      intro h
      exact hgreatest (BitVec.toNat_inj.1 h)
    rw [if_neg hgreatest]
    by_cases hleast : UnpackedFloat.unpackExponent b = 0#_
    · have hnone : (UnpackedFloat.unpackExponent b).toNat = 0 := by
        rw [hleast]
        rfl
      rw [if_pos hleast]
      by_cases hzero : UnpackedFloat.unpackMantissa b = 0#_
      · rw [dif_pos hzero]
        exact .zero _ (by omega)
      · rw [dif_neg hzero]
        exact .finite _ _ (by omega) (by omega) (by rw [hnone, hbias, hbits]; rfl)
    · have hsome : (UnpackedFloat.unpackExponent b).toNat ≠ 0 := by
        intro h
        exact hleast (BitVec.toNat_inj.1 h)
      rw [if_neg hleast]
      exact .finite _ _ (by omega) (by omega) (by rw [hbias, hbits]; omega)

/-- A float that is a number, with a significand and an exponent that fit. -/
inductive Ordered : UnpackedFloat → Prop
  | infinity (sign : Sign) : Ordered (.infinity sign)
  | zero (sign : Sign) : Ordered (.zero sign)
  | finite (sign : Sign) {mantissa : Nat} {exponent : Int} (positive : 0 < mantissa)
      (short : mantissa < 2 ^ 53) (least : leastExponent ≤ exponent) (most : exponent ≤ 971) :
      Ordered (.finite sign mantissa exponent positive)

theorem Unpacked.ordered {biased : Nat} {u : UnpackedFloat} (h : Unpacked biased u) :
    u = .notANumber ∨ Ordered u := by
  have hleast : leastExponent = -1074 := rfl
  cases h with
  | infinity sign => exact .inr (.infinity sign)
  | notANumber => exact .inl rfl
  | zero sign => exact .inr (.zero sign)
  | finite sign positive finite short unit =>
    exact .inr (.finite sign positive short (by omega) (by omega))

theorem compare_finite {e f : Int} {m n : Nat} (hm : m < 2 ^ 53) (hn : n < 2 ^ 53) :
    (compare e f).then (compare m n) =
      compare ((e - leastExponent) * 2 ^ 53 + m) ((f - leastExponent) * 2 ^ 53 + n) := by
  generalize leastExponent = least
  rcases lt_trichotomy e f with hlt | rfl | hgt
  · rw [compare_lt_iff_lt.2 hlt]
    exact (compare_lt_iff_lt.2 (by omega)).symm
  · rw [compare_eq_iff_eq.2 rfl, Ordering.then]
    rcases lt_trichotomy m n with hlt | rfl | hgt
    · rw [compare_lt_iff_lt.2 hlt, compare_lt_iff_lt.2 (by omega)]
    · rw [compare_eq_iff_eq.2 rfl, compare_eq_iff_eq.2 rfl]
    · rw [compare_gt_iff_gt.2 hgt, compare_gt_iff_gt.2 (by omega)]
  · rw [compare_gt_iff_gt.2 hgt]
    exact (compare_gt_iff_gt.2 (by omega)).symm

theorem compare_neg_neg (a b : Int) : compare (-a) (-b) = (compare a b).swap := by
  rcases lt_trichotomy a b with hlt | rfl | hgt
  · rw [compare_lt_iff_lt.2 hlt, compare_gt_iff_gt.2 (Int.neg_lt_neg hlt)]
    rfl
  · rw [compare_eq_iff_eq.2 rfl, compare_eq_iff_eq.2 rfl]
    rfl
  · rw [compare_gt_iff_gt.2 hgt, compare_lt_iff_lt.2 (Int.neg_lt_neg hgt)]
    rfl

/-- The rank of a finite float lies strictly between those of the infinities, on its side of zero. -/
theorem finite_rank {e : Int} {m : Nat} (positive : 0 < m) (short : m < 2 ^ 53)
    (least : leastExponent ≤ e) (most : e ≤ 971) :
    0 < (e - leastExponent) * 2 ^ 53 + (m : Int) ∧
      (e - leastExponent) * 2 ^ 53 + (m : Int) < 2 ^ 65 := by
  have hleast : leastExponent = -1074 := rfl
  omega

/-- Floats that are numbers are compared as their ranks are. -/
theorem compare_eq {u v : UnpackedFloat} (hu : Ordered u) (hv : Ordered v) :
    u.compare v = some (compare (unpackedRank u) (unpackedRank v)) := by
  have before : ∀ {a b : Int}, a < b → some Ordering.lt = some (compare a b) :=
    fun h => congrArg some (compare_lt_iff_lt.2 h).symm
  have after : ∀ {a b : Int}, b < a → some Ordering.gt = some (compare a b) :=
    fun h => congrArg some (compare_gt_iff_gt.2 h).symm
  cases hu with
  | infinity s =>
    cases hv with
    | infinity t => cases s <;> cases t <;> rfl
    | zero t => cases s <;> rfl
    | finite t positive short least most =>
      have hrank := finite_rank positive short least most
      cases s <;> cases t <;> dsimp only [UnpackedFloat.compare, unpackedRank, Sign.apply]
      · exact before (by omega)
      · exact before (by omega)
      · exact after (by omega)
      · exact after (by omega)
  | zero s =>
    cases hv with
    | infinity t => cases t <;> rfl
    | zero t => rfl
    | finite t positive short least most =>
      have hrank := finite_rank positive short least most
      cases t <;> dsimp only [UnpackedFloat.compare, unpackedRank, Sign.apply]
      · exact after (by omega)
      · exact before (by omega)
  | finite s positive short least most =>
    have hrank := finite_rank positive short least most
    cases hv with
    | infinity t =>
      cases s <;> cases t <;> dsimp only [UnpackedFloat.compare, unpackedRank, Sign.apply]
      · exact after (by omega)
      · exact before (by omega)
      · exact after (by omega)
      · exact before (by omega)
    | zero t =>
      cases s <;> dsimp only [UnpackedFloat.compare, unpackedRank, Sign.apply]
      · exact before (by omega)
      · exact after (by omega)
    | finite t positive' short' least' most' =>
      have hrank' := finite_rank positive' short' least' most'
      cases s <;> cases t <;> dsimp only [UnpackedFloat.compare, unpackedRank, Sign.apply]
      · rw [compare_finite short short', compare_neg_neg]
      · exact before (by omega)
      · exact after (by omega)
      · rw [compare_finite short short']

/-! ## Floats -/

/-- Where a float stands among all floats. -/
def rank (x : Float) : Int := unpackedRank x.toModel.unpack

theorem ordered_of_not_isNaN {x : Float} (h : x.isNaN = false) : Ordered x.toModel.unpack := by
  refine (unpacked x.toModel.toBits.toBitVec).ordered.resolve_left fun hnan => ?_
  have : x.isNaN = true := by
    show (UnpackedFloat.unpack .binary64 x.toModel.toBits.toBitVec).isNaN = true
    rw [hnan]
    rfl
  rw [this] at h
  cases h

theorem compare_unpack {x y : Float} (hx : x.isNaN = false) (hy : y.isNaN = false) :
    x.toModel.unpack.compare y.toModel.unpack = some (compare (rank x) (rank y)) :=
  compare_eq (ordered_of_not_isNaN hx) (ordered_of_not_isNaN hy)

section

variable {x y : Float} (hx : x.isNaN = false) (hy : y.isNaN = false)

include hx hy

theorem lt_iff_rank : x < y ↔ rank x < rank y := by
  have hlt : x < y ↔ x.toModel.unpack.compare y.toModel.unpack = some .lt := by
    show decide ((_ == _) = true) = true ↔ _
    rw [decide_eq_true_iff, beq_iff_eq]
  rw [hlt, compare_unpack hx hy, Option.some.injEq, compare_lt_iff_lt]

theorem le_iff_rank : x ≤ y ↔ rank x ≤ rank y := by
  have hle : x ≤ y ↔ (x.toModel.unpack.compare y.toModel.unpack).any (·.isLE) = true := by
    show decide (_ = true) = true ↔ _
    rw [decide_eq_true_iff]
    rfl
  rw [hle, compare_unpack hx hy, Option.any_some, Ordering.isLE_iff_ne_gt]
  exact compare_le_iff_le

theorem beq_iff_rank : (x == y) = true ↔ rank x = rank y := by
  have hbeq : (x == y) = true ↔ x.toModel.unpack.compare y.toModel.unpack = some .eq := by
    show (x.toModel.unpack.compare y.toModel.unpack == some .eq) = true ↔ _
    rw [beq_iff_eq]
  rw [hbeq, compare_unpack hx hy, Option.some.injEq, compare_eq_iff_eq]

end

/-! ## Finite floats -/

theorem isFinite_of_ofFloat? {x : Float} (h : (ofFloat? x).isSome) : x.isFinite = true := by
  have hbiased : (@UnpackedFloat.unpackExponent .binary64 x.toModel.toBits.toBitVec).toNat ≠ 2047 := by
    intro hgreatest
    rw [UnpackedFloat.unpackExponent, BitVec.toNat_cast, BitVec.extractLsb_toNat,
      Nat.shiftRight_eq_div_pow] at hgreatest
    have hgreatest : x.toBits.toNat / 2 ^ 52 % 2 ^ 11 = 2047 := hgreatest
    simp [ofFloat?, hgreatest] at h
  have hunpacked := unpacked x.toModel.toBits.toBitVec
  show (UnpackedFloat.unpack .binary64 x.toModel.toBits.toBitVec).isFinite = true
  revert hunpacked
  generalize UnpackedFloat.unpack .binary64 _ = u
  intro hunpacked
  cases hunpacked with
  | infinity sign greatest => exact absurd greatest hbiased
  | notANumber greatest => exact absurd greatest hbiased
  | zero | finite => rfl

theorem isNaN_of_isFinite {x : Float} (h : x.isFinite = true) : x.isNaN = false := by
  have hmodel : x.toModel.unpack.isFinite = true := h
  show x.toModel.unpack.isNaN = false
  cases hunpack : x.toModel.unpack with
  | notANumber =>
    rw [hunpack] at hmodel
    cases hmodel
  | _ => rfl

/-- A finite float lies strictly between the infinities. -/
theorem rank_of_isFinite {x : Float} (h : x.isFinite = true) :
    -2 ^ 65 < rank x ∧ rank x < 2 ^ 65 := by
  have hmodel : x.toModel.unpack.isFinite = true := h
  have hordered := ordered_of_not_isNaN (isNaN_of_isFinite h)
  unfold rank
  revert hmodel hordered
  generalize x.toModel.unpack = u
  intro hmodel hordered
  cases hordered with
  | infinity sign => cases hmodel
  | zero sign =>
    show -2 ^ 65 < (0 : Int) ∧ (0 : Int) < 2 ^ 65
    decide
  | finite sign positive short least most =>
    have hrank := finite_rank positive short least most
    show -2 ^ 65 < sign.apply _ ∧ sign.apply _ < 2 ^ 65
    cases sign <;> dsimp only [Sign.apply] <;> omega

end Binary64

end CartoStyle
