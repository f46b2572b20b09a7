import CartoStyle.Proofs.Json.Numerals

set_option autoImplicit false

/-! # The text of numbers

Numerals are made of digits, signs, the point and the exponent sign (`Number.numberWord_render`), so
that what sets values apart, and the words for the truth values, cannot stand in one. How floats are
rounded plays no part in it. -/

namespace CartoStyle

/-! ## Characters of numerals -/

/-- Whether a character stands in numerals, or in the word that is written for what has none. -/
def isNumberChar (c : Char) : Bool :=
  c.isDigit || ['+', '-', '.', 'e', 'n', 'u', 'l'].contains c

/-- A word of the characters of numerals. -/
structure NumberWord (word : List Char) : Prop where
  nonempty : word ≠ []
  all : ∀ c ∈ word, isNumberChar c

theorem isNumberChar_of_isDigit {c : Char} (h : c.isDigit) : isNumberChar c := by
  simp [isNumberChar, h]

/-! ## Numerals -/

namespace Json

theorem isNumberChar_of_mem_fractionText {fraction : Option (List Char)}
    (h : ∀ digits ∈ fraction, ∀ c ∈ digits, c.isDigit) {c : Char}
    (hc : c ∈ fractionText fraction) : isNumberChar c := by
  cases fraction with
  | none => simp [fractionText] at hc
  | some digits =>
    rcases List.mem_cons.1 hc with rfl | hdigit
    · decide
    · exact isNumberChar_of_isDigit (h digits rfl c hdigit)

theorem isNumberChar_of_mem_exponentText {exponent : Option (Bool × List Char)}
    (h : ∀ e ∈ exponent, ∀ c ∈ e.2, c.isDigit) {c : Char} (hc : c ∈ exponentText exponent) :
    isNumberChar c := by
  cases exponent with
  | none => simp [exponentText] at hc
  | some e =>
    obtain ⟨negative, digits⟩ := e
    rcases List.mem_cons.1 hc with rfl | hc
    · decide
    · rcases List.mem_cons.1 hc with rfl | hdigit
      · cases negative <;> decide
      · exact isNumberChar_of_isDigit (h (negative, digits) rfl c hdigit)

namespace Numeral.WellFormed

variable {n : Numeral} (h : n.WellFormed)

include h

theorem numberWord_unsigned : NumberWord n.unsigned where
  nonempty := by simp [unsigned, h.whole.nonempty]
  all c hc := by
    rw [unsigned, List.mem_append, List.mem_append] at hc
    rcases hc with hwhole | hfraction | hexponent
    · exact isNumberChar_of_isDigit (h.whole.all c hwhole)
    · exact isNumberChar_of_mem_fractionText (fun digits hd => (h.fraction digits hd).2) hfraction
    · exact isNumberChar_of_mem_exponentText (fun e he => (h.exponent e he).2) hexponent

theorem numberWord_text : NumberWord n.text := by
  have hunsigned := h.numberWord_unsigned
  unfold text
  split
  · exact ⟨by simp, List.forall_mem_cons.2 ⟨by decide, hunsigned.all⟩⟩
  · exact hunsigned

end Numeral.WellFormed

end Json

/-- **The text of a number is a word of their characters.** -/
theorem Number.numberWord_render (n : Number) : NumberWord n.render.toList := by
  cases hn : n.numeral? with
  | some numeral =>
    rw [toList_render hn]
    exact (wellFormed_of_numeral? hn).numberWord_text
  | none =>
    -- Only what is not finite has no numeral, and a word is written for it.
    cases n with
    | integer n => simp [numeral?] at hn
    | float x =>
      have hx : Binary64.ofFloat? x = none := Option.map_eq_none_iff.1 hn
      show NumberWord (writeFloat .numeral x).toList
      rw [writeFloat, hx]
      exact ⟨by decide, List.all_eq_true.1 (by decide)⟩

end CartoStyle
