import CartoStyle.Json.Numeral
import CartoStyle.Json.Printer
import Mathlib.Data.List.Basic

set_option autoImplicit false

/-! # The numerals of numbers

Finite numbers are written as numerals that JSON allows (`Number.toList_render`,
`Number.wellFormed_of_numeral?`). A number reads back when its numeral is read as it
(`Number.ReadsBack`): whole numbers do (`Number.readsBack_integer`), and of a float it says that it is
read from its printed digits, which not every float is. -/

namespace CartoStyle

namespace Json

/-! ## Digits -/

theorem digitsValue_toDigits (n : Nat) : digitsValue (Nat.toDigits 10 n) = n :=
  Nat.ofDigitChars_toDigits (by decide) (by decide)

theorem isDigit_of_mem_toDigits {n : Nat} {c : Char} (h : c ∈ Nat.toDigits 10 n) : c.isDigit :=
  Nat.isDigit_of_mem_toDigits (by decide) (by decide) h

/-- Only zero is written with a zero in front. -/
theorem head?_toDigits {n : Nat} (h : 0 < n) : (Nat.toDigits 10 n).head? ≠ some '0' := by
  induction n using Nat.strongRecOn with
  | ind n ih =>
    rw [Nat.toDigits_eq_if (by decide)]
    split
    · next hlt =>
      have hdigits : ∀ m < 10, 0 < m → some m.digitChar ≠ some '0' := by decide
      exact hdigits n hlt h
    · next hge =>
      have hfirst := ih (n / 10) (by omega) (by omega)
      rw [List.head?_append_of_ne_nil _ Nat.toDigits_ne_nil]
      exact hfirst

/-- The digits in front of a point: one or more, and a zero only alone. -/
structure IsWhole (digits : List Char) : Prop where
  nonempty : digits ≠ []
  all : ∀ c ∈ digits, c.isDigit
  zero : digits.head? = some '0' → digits = ['0']

theorem isWhole_toDigits (n : Nat) : IsWhole (Nat.toDigits 10 n) where
  nonempty := Nat.toDigits_ne_nil
  all _ hc := isDigit_of_mem_toDigits hc
  zero h := by
    rcases Nat.eq_zero_or_pos n with rfl | hpos
    · rfl
    · exact absurd h (head?_toDigits hpos)

/-! ## Numerals -/

/-- The text of a fraction. -/
def fractionText : Option (List Char) → List Char
  | some digits => '.' :: digits
  | none => []

/-- The text of an exponent, with its sign. -/
def exponentText : Option (Bool × List Char) → List Char
  | some (negative, digits) => 'e' :: (if negative then '-' else '+') :: digits
  | none => []

namespace Numeral

/-- The text of a numeral after its sign. -/
def unsigned (n : Numeral) : List Char :=
  n.whole ++ (fractionText n.fraction ++ exponentText n.exponent)

/-- The text of a numeral. -/
def text (n : Numeral) : List Char := if n.negative then '-' :: n.unsigned else n.unsigned

/-- A numeral as JSON allows it. -/
structure WellFormed (n : Numeral) : Prop where
  whole : IsWhole n.whole
  fraction : ∀ digits ∈ n.fraction, digits ≠ [] ∧ ∀ c ∈ digits, c.isDigit
  exponent : ∀ e ∈ n.exponent, e.2 ≠ [] ∧ ∀ c ∈ e.2, c.isDigit

end Numeral

end Json

/-! ## The numeral of a decimal -/

namespace Decimal

/-- Zeros in front of digits that are too few, up to one more than there are places. -/
def padded (places : Nat) (digits : List Char) : List Char :=
  List.replicate (places + 1 - digits.length) '0' ++ digits

/-- The numeral that a document has for a decimal. -/
def numeral (d : Decimal) (negative : Bool) : Json.Numeral :=
  let digits := Nat.toDigits 10 d.digits
  if Layout.numeral.positional d.leading then
    if 0 ≤ d.exponent then
      let zeros := if d.digits = 0 then [] else List.replicate d.exponent.toNat '0'
      ⟨negative, digits ++ zeros, some ['0'], none⟩
    else
      let places := (-d.exponent).toNat
      let all := padded places digits
      let whole := all.length - places
      ⟨negative, all.take whole, some (all.drop whole), none⟩
  else
    let fraction := digits.drop 1
    ⟨negative, digits.take 1, if fraction.isEmpty then none else some fraction,
      some (decide (d.leading < 0), Nat.toDigits 10 d.leading.natAbs)⟩

theorem negative_numeral (d : Decimal) (negative : Bool) :
    (d.numeral negative).negative = negative := by
  unfold numeral
  dsimp only
  split
  · split <;> rfl
  · rfl

/-- A decimal is written as its numeral. -/
theorem unsigned_numeral (d : Decimal) (negative : Bool) :
    (d.numeral negative).unsigned = (d.write .numeral).toList := by
  unfold numeral write
  dsimp only
  split
  · unfold positional
    dsimp only
    split
    · by_cases hzero : d.digits = 0
      · simp [Json.Numeral.unsigned, Json.fractionText, Json.exponentText, Layout.numeral, hzero]
      · simp [Json.Numeral.unsigned, Json.fractionText, Json.exponentText, Layout.numeral, hzero,
          zeros]
    · simp [Json.Numeral.unsigned, Json.fractionText, Json.exponentText, padded]
  · unfold scientific
    dsimp only
    rw [Nat.toString_eq_ofList_toDigits]
    cases hfraction : ((Nat.toDigits 10 d.digits).drop 1).isEmpty <;>
      by_cases hsign : d.leading < 0 <;>
      simp [Json.Numeral.unsigned, Json.fractionText, Json.exponentText, hsign]

theorem isDigit_of_mem_padded {places : Nat} {digits : List Char} (h : ∀ c ∈ digits, c.isDigit)
    {c : Char} (hc : c ∈ padded places digits) : c.isDigit := by
  rcases List.mem_append.1 hc with hzero | hdigit
  · obtain rfl := List.eq_of_mem_replicate hzero
    decide
  · exact h c hdigit

/-- What stands before the last places of padded digits is a zero, or begins as the digits do. -/
theorem isWhole_take_padded {places : Nat} {digits : List Char} (h : Json.IsWhole digits)
    (hplaces : 0 < places) :
    Json.IsWhole ((padded places digits).take ((padded places digits).length - places)) := by
  rcases Nat.lt_or_ge places digits.length with hlt | hge
  · have hpadded : padded places digits = digits := by
      rw [padded, Nat.sub_eq_zero_of_le hlt, List.replicate_zero, List.nil_append]
    obtain ⟨c, more, rfl⟩ := List.exists_cons_of_ne_nil h.nonempty
    obtain ⟨k, hk⟩ : ∃ k, (c :: more).length - places = k + 1 := ⟨more.length - places, by
      simp only [List.length_cons] at hlt ⊢
      omega⟩
    rw [hpadded, hk, List.take_succ_cons]
    refine ⟨by simp, fun d hd => ?_, fun hzero => ?_⟩
    · exact h.all d (List.mem_of_mem_take (i := k + 1) (by simpa using hd))
    · -- A zero in front is the only digit, but there are more digits than places.
      have hdigits := h.zero (by simpa using hzero)
      rw [hdigits] at hlt
      simp only [List.length_singleton] at hlt
      omega
  · have hlength : (padded places digits).length - places = 1 := by
      simp only [padded, List.length_append, List.length_replicate]
      omega
    obtain ⟨k, hk⟩ : ∃ k, places + 1 - digits.length = k + 1 := ⟨places - digits.length, by omega⟩
    rw [hlength, padded, hk, List.replicate_succ, List.cons_append, List.take_succ_cons,
      List.take_zero]
    exact ⟨by simp, by simp, fun _ => rfl⟩

theorem wellFormed_numeral (d : Decimal) (negative : Bool) :
    (d.numeral negative).WellFormed := by
  have hdigits := Json.isWhole_toDigits d.digits
  unfold numeral
  dsimp only
  split
  · split
    · refine ⟨?_, by simp, by simp⟩
      by_cases hzero : d.digits = 0
      · simpa [hzero] using hdigits
      · rw [if_neg hzero]
        refine ⟨by simp [hdigits.nonempty], fun c hc => ?_, fun hhead => ?_⟩
        · rcases List.mem_append.1 hc with hdigit | hc
          · exact hdigits.all c hdigit
          · obtain rfl := List.eq_of_mem_replicate hc
            decide
        · rw [List.head?_append_of_ne_nil _ hdigits.nonempty] at hhead
          exact absurd hhead (Json.head?_toDigits (Nat.pos_of_ne_zero hzero))
    · next hnegative =>
      have hplaces : 0 < (-d.exponent).toNat := by omega
      refine ⟨isWhole_take_padded hdigits hplaces, ?_, by simp⟩
      rintro _ ⟨⟩
      refine ⟨?_, fun c hc => ?_⟩
      · rw [Ne, List.drop_eq_nil_iff]
        simp only [padded, List.length_append, List.length_replicate]
        omega
      · exact isDigit_of_mem_padded hdigits.all (List.mem_of_mem_drop hc)
  · have hone : ∀ c ∈ (Nat.toDigits 10 d.digits).take 1, c.isDigit := fun c hc =>
      hdigits.all c (List.mem_of_mem_take hc)
    refine ⟨⟨by simp [hdigits.nonempty], hone, fun hzero => ?_⟩, fun digits h => ?_, ?_⟩
    · obtain ⟨c, more, hcons⟩ := List.exists_cons_of_ne_nil hdigits.nonempty
      rw [hcons] at hzero ⊢
      simpa using hzero
    · -- A fraction is written only when there is more than one digit.
      split at h
      · simp at h
      · next hne =>
        obtain rfl := Option.some.inj h
        exact ⟨by simpa using hne, fun c hc => hdigits.all c (List.mem_of_mem_drop hc)⟩
    · rintro _ ⟨⟩
      exact ⟨Nat.toDigits_ne_nil, fun c hc => Json.isDigit_of_mem_toDigits hc⟩

end Decimal

/-! ## The numeral of a number -/

namespace Number

/-- The numeral that a document has for a number; there is none for what is not finite. -/
def numeral? : Number → Option Json.Numeral
  | .integer n => some ⟨decide (n < 0), Nat.toDigits 10 n.natAbs, none, none⟩
  | .float x => (Binary64.ofFloat? x).map fun b => (b.shortest .toEven).numeral b.negative

theorem toList_render {n : Number} {numeral : Json.Numeral} (h : n.numeral? = some numeral) :
    n.render.toList = numeral.text := by
  cases n with
  | integer n =>
    obtain rfl := Option.some.inj h
    cases n with
    | ofNat m =>
      show (toString m).toList = _
      rw [Nat.toString_eq_ofList_toDigits, String.toList_ofList]
      simp [Json.Numeral.text, Json.Numeral.unsigned, Json.fractionText, Json.exponentText]
    | negSucc m =>
      show ("-" ++ Nat.repr (m + 1)).toList = _
      rw [String.toList_append, Nat.toList_repr]
      simp [Json.Numeral.text, Json.Numeral.unsigned, Json.fractionText, Json.exponentText]
  | float x =>
    obtain ⟨b, hb, rfl⟩ := Option.map_eq_some_iff.1 h
    show (writeFloat .numeral x).toList = _
    rw [writeFloat, hb, Json.Numeral.text, Decimal.negative_numeral, Decimal.unsigned_numeral]
    cases hnegative : b.negative <;> simp [hnegative, show Layout.numeral.tie = .toEven from rfl]

theorem wellFormed_of_numeral? {n : Number} {numeral : Json.Numeral}
    (h : n.numeral? = some numeral) : numeral.WellFormed := by
  cases n with
  | integer n =>
    obtain rfl := Option.some.inj h
    exact ⟨Json.isWhole_toDigits _, by simp, by simp⟩
  | float x =>
    obtain ⟨b, -, rfl⟩ := Option.map_eq_some_iff.1 h
    exact Decimal.wellFormed_numeral _ _

/-- Whether a number is what its numeral is read as. -/
def ReadsBack (n : Number) : Prop := n.numeral?.bind Json.Numeral.value? = some n

instance (n : Number) : Decidable n.ReadsBack := inferInstanceAs (Decidable (_ = _))

/-- Whole numbers are what their numerals are read as. -/
theorem readsBack_integer {n : Int} (h : InWord n) : (integer n).ReadsBack := by
  have hsigned : (if n < 0 then -(n.natAbs : Int) else n.natAbs) = n := by
    split <;> omega
  have hzero : ¬(n < 0 ∧ (n.natAbs : Int) = 0) := by omega
  show Json.Numeral.value? _ = _
  simp only [Json.Numeral.value?, Json.Numeral.isWhole, Json.digitsValue_toDigits,
    decide_eq_true_eq, hsigned]
  rw [if_pos ⟨rfl, h, hzero⟩]

-- A float whose digits are read as its neighbour.
example : ¬(float 94.95886283158103).ReadsBack := by decide +kernel

end Number

end CartoStyle
