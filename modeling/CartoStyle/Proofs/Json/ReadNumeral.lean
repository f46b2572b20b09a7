import CartoStyle.Proofs.Json.Numerals
import CartoStyle.Proofs.Json.Text

set_option autoImplicit false

/-! # Numerals that are read back

A numeral is read part by part off the front of a text, and ends where its last part does
(`Json.readMagnitude_unsigned`): each part is read up to a character that does not belong to it. -/

namespace CartoStyle

namespace Json

/-! ## Parts of a numeral -/

/-- Whether a text does not go on with a character of a class. -/
def NotBefore (bad : Char → Bool) (rest : List Char) : Prop := ∀ c ∈ rest.head?, bad c = false

theorem readDigits_append {digits rest : List Char} (hne : digits ≠ [])
    (hdigits : ∀ c ∈ digits, c.isDigit) (hrest : NotBefore Char.isDigit rest) :
    readDigits (digits ++ rest) = .ok (digits, rest) := by
  obtain ⟨c, more, rfl⟩ := List.exists_cons_of_ne_nil hne
  obtain ⟨hc, hmore⟩ := List.forall_mem_cons.1 hdigits
  have hstop : rest.takeWhile Char.isDigit = [] ∧ rest.dropWhile Char.isDigit = rest := by
    cases rest with
    | nil => exact ⟨rfl, rfl⟩
    | cons d rest' => simp [hrest d rfl]
  rw [List.cons_append, readDigits, if_pos hc, List.takeWhile_append_of_pos hmore,
    List.dropWhile_append_of_pos hmore, hstop.1, hstop.2, List.append_nil]

theorem readWhole_append {digits rest : List Char} (h : IsWhole digits)
    (hrest : NotBefore Char.isDigit rest) : readWhole (digits ++ rest) = .ok (digits, rest) := by
  unfold readWhole
  split
  · -- The text begins with a zero, which is the whole of the digits.
    next c rest' heq =>
    have hzero : digits.head? = some '0' := by
      have hhead := congrArg List.head? heq
      rwa [List.head?_append_of_ne_nil _ h.nonempty] at hhead
    obtain rfl := h.zero hzero
    obtain rfl : rest = c :: rest' := by simpa using heq
    rw [if_neg (by simp [hrest c rfl])]
  · exact readDigits_append h.nonempty h.all hrest

theorem readFraction_append {fraction : Option (List Char)} {rest : List Char}
    (h : ∀ digits ∈ fraction, digits ≠ [] ∧ ∀ c ∈ digits, c.isDigit)
    (hrest : NotBefore (fun c => c.isDigit || c == '.') rest) :
    readFraction (fractionText fraction ++ rest) = .ok (fraction, rest) := by
  cases fraction with
  | none =>
    show readFraction rest = _
    unfold readFraction
    split
    · next rest' =>
      exact absurd (hrest '.' rfl) (by decide)
    · rfl
  | some digits =>
    obtain ⟨hne, hdigits⟩ := h digits rfl
    have hstop : NotBefore Char.isDigit rest := fun c hc => (Bool.or_eq_false_iff.1 (hrest c hc)).1
    show readFraction ('.' :: (digits ++ rest)) = _
    rw [readFraction, readDigits_append hne hdigits hstop]
    rfl

theorem readExponent_append {exponent : Option (Bool × List Char)} {rest : List Char}
    (h : ∀ e ∈ exponent, e.2 ≠ [] ∧ ∀ c ∈ e.2, c.isDigit)
    (hrest : NotBefore (fun c => c.isDigit || (c == 'e' || c == 'E')) rest) :
    readExponent (exponentText exponent ++ rest) = .ok (exponent, rest) := by
  cases exponent with
  | none =>
    show readExponent rest = _
    unfold readExponent
    split
    · next c rest' =>
      have hc := hrest c rfl
      simp only [Bool.or_eq_false_iff, beq_eq_false_iff_ne] at hc
      rw [if_neg (by simp [hc.2.1, hc.2.2])]
    · rfl
  | some e =>
    obtain ⟨negative, digits⟩ := e
    obtain ⟨hne, hdigits⟩ := h (negative, digits) rfl
    have hstop : NotBefore Char.isDigit rest := fun c hc => (Bool.or_eq_false_iff.1 (hrest c hc)).1
    have hsign : takeSign ((if negative then '-' else '+') :: (digits ++ rest)) =
        (negative, digits ++ rest) := by
      cases negative <;> rfl
    show readExponent ('e' :: (if negative then '-' else '+') :: (digits ++ rest)) = _
    rw [readExponent, if_pos (Or.inl rfl), hsign]
    dsimp only
    rw [readDigits_append hne hdigits hstop]
    rfl

/-! ## Numerals -/

/-- What ends a value is no part of a numeral. -/
theorem Ends.notBefore {bad : Char → Bool} (hbad : ∀ c, isStop c → bad c = false) {rest : List Char}
    (h : Ends rest) : NotBefore bad rest :=
  fun c hc => hbad c (h c hc)

theorem eq_of_isStop {c : Char} (h : isStop c) : c = ',' ∨ c = ']' ∨ c = '\x7d' := by
  simpa [isStop] using h

section Parts

variable {rest : List Char} (h : Ends rest)

include h

theorem Ends.notBefore_exponent : NotBefore (fun c => c.isDigit || (c == 'e' || c == 'E')) rest := by
  refine h.notBefore fun c hc => ?_
  rcases eq_of_isStop hc with rfl | rfl | rfl <;> decide

theorem Ends.notBefore_fraction (exponent : Option (Bool × List Char)) :
    NotBefore (fun c => c.isDigit || c == '.') (exponentText exponent ++ rest) := by
  cases exponent with
  | none =>
    refine h.notBefore fun c hc => ?_
    rcases eq_of_isStop hc with rfl | rfl | rfl <;> decide
  | some e =>
    intro c hc
    obtain rfl : 'e' = c := Option.some.inj hc
    decide

theorem Ends.notBefore_whole (fraction : Option (List Char)) (exponent : Option (Bool × List Char)) :
    NotBefore Char.isDigit (fractionText fraction ++ (exponentText exponent ++ rest)) := by
  cases fraction with
  | none => exact fun c hc => (Bool.or_eq_false_iff.1 (h.notBefore_fraction exponent c hc)).1
  | some digits =>
    intro c hc
    obtain rfl : '.' = c := Option.some.inj hc
    decide

end Parts

/-- **A numeral is read back,** whatever ends it. -/
theorem readMagnitude_unsigned {n : Numeral} (h : n.WellFormed) {value : Number}
    (hvalue : n.value? = some value) {rest : List Char} (hrest : Ends rest) :
    readMagnitude n.negative (n.unsigned ++ rest) = .ok (value, rest) := by
  rw [readMagnitude, Numeral.unsigned, List.append_assoc, List.append_assoc,
    readWhole_append h.whole (hrest.notBefore_whole n.fraction n.exponent)]
  simp only [bind, Except.bind]
  rw [readFraction_append h.fraction (hrest.notBefore_fraction n.exponent)]
  dsimp only
  rw [readExponent_append h.exponent hrest.notBefore_exponent]
  dsimp only
  rw [hvalue]
  rfl

/-! ## Numerals of equal text -/

namespace Numeral.WellFormed

variable {n m : Numeral} (hn : n.WellFormed) (hm : m.WellFormed)

include hn

/-- After its sign a numeral begins with a digit. -/
theorem exists_unsigned_eq_cons : ∃ c rest, n.unsigned = c :: rest ∧ c.isDigit := by
  obtain ⟨c, more, hwhole⟩ := List.exists_cons_of_ne_nil hn.whole.nonempty
  exact ⟨c, _, by rw [unsigned, hwhole, List.cons_append], hn.whole.all c (by simp [hwhole])⟩

include hm

/-- Each part is what is read off the front of what the parts before it leave. -/
theorem parts_eq_of_unsigned_eq (h : n.unsigned = m.unsigned) :
    n.whole = m.whole ∧ n.fraction = m.fraction ∧ n.exponent = m.exponent := by
  have hwhole := readWhole_append hn.whole (ends_nil.notBefore_whole n.fraction n.exponent)
  have hfraction := readFraction_append hn.fraction (ends_nil.notBefore_fraction n.exponent)
  have hexponent := readExponent_append hn.exponent ends_nil.notBefore_exponent
  have hwhole' := readWhole_append hm.whole (ends_nil.notBefore_whole m.fraction m.exponent)
  have hfraction' := readFraction_append hm.fraction (ends_nil.notBefore_fraction m.exponent)
  have hexponent' := readExponent_append hm.exponent ends_nil.notBefore_exponent
  rw [List.append_nil] at hwhole hwhole' hfraction hfraction' hexponent hexponent'
  rw [← unsigned] at hwhole hwhole'
  obtain ⟨hw, hrest⟩ := Prod.mk.inj (Except.ok.inj ((h ▸ hwhole).symm.trans hwhole'))
  obtain ⟨hf, hrest'⟩ := Prod.mk.inj (Except.ok.inj ((hrest ▸ hfraction).symm.trans hfraction'))
  obtain ⟨he, -⟩ := Prod.mk.inj (Except.ok.inj ((hrest' ▸ hexponent).symm.trans hexponent'))
  exact ⟨hw, hf, he⟩

/-- Numerals of equal text are the same. -/
theorem eq_of_text_eq (h : n.text = m.text) : n = m := by
  -- A sign is no digit, so either both have one or neither.
  obtain ⟨c, _, hc, hdigit⟩ := hn.exists_unsigned_eq_cons
  obtain ⟨d, _, hd, hdigit'⟩ := hm.exists_unsigned_eq_cons
  have hsigned : n.negative = m.negative ∧ n.unsigned = m.unsigned := by
    unfold text at h
    split at h <;> split at h
    · next hs ht => exact ⟨hs.trans ht.symm, (List.cons.inj h).2⟩
    · rw [hd] at h
      obtain ⟨rfl, -⟩ := List.cons.inj h
      exact absurd hdigit' (by decide)
    · rw [hc] at h
      obtain ⟨rfl, -⟩ := List.cons.inj h
      exact absurd hdigit (by decide)
    · next hs ht =>
      exact ⟨by rw [Bool.eq_false_iff.2 hs, Bool.eq_false_iff.2 ht], h⟩
  obtain ⟨hwhole, hfraction, hexponent⟩ := parts_eq_of_unsigned_eq hn hm hsigned.2
  cases n
  cases m
  simp_all

end Numeral.WellFormed

end Json

end CartoStyle
