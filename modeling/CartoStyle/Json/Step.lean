import CartoStyle.Json.ReadError

set_option autoImplicit false

/-! # Reading step by step

Every step of the reader answers with what it read and the rest of the text. The rest is shorter than
the text (`Shrinks`): that is why the loops over items and members end. -/

namespace CartoStyle

/-! ## Steps -/

/-- A step: what it reads off the front of a text, and the rest. -/
abbrev Reader (α : Type) := List Char → Except ReadStop (α × List Char)

/-- A step that always reads something. -/
def Shrinks {α : Type} (read : Reader α) : Prop :=
  ∀ ⦃text : List Char⦄ ⦃a : α⦄ ⦃rest : List Char⦄,
    read text = .ok (a, rest) → rest.length < text.length

/-- A step followed by another succeeds when both do. -/
theorem bind_eq_ok {ε α β : Type} {step : Except ε α} {next : α → Except ε β} {b : β} :
    (step >>= next) = .ok b ↔ ∃ a, step = .ok a ∧ next a = .ok b := by
  cases step with
  | error e => simp [bind, Except.bind]
  | ok a => simp [bind, Except.bind]

namespace Json

/-! ## Blanks -/

/-- Blanks between tokens. -/
def isBlank (c : Char) : Bool := c == ' ' || c == '\n' || c == '\t' || c == '\r'

/-- The text after its leading blanks. -/
def skipBlanks : List Char → List Char
  | [] => []
  | c :: rest => if isBlank c then skipBlanks rest else c :: rest

theorem length_skipBlanks_le (text : List Char) : (skipBlanks text).length ≤ text.length := by
  induction text with
  | nil => simp [skipBlanks]
  | cons c rest ih =>
    unfold skipBlanks
    split
    · exact Nat.le_succ_of_le ih
    · exact Nat.le_refl _

/-! ## Words -/

/-- Read the letters of `word`. -/
def readWord : List Char → Reader Unit
  | [], text => .ok ((), text)
  | _ :: _, [] => .error (.before .endOfValue [])
  | letter :: word, c :: rest =>
    if c = letter then readWord word rest else .error (.on .expectedWord (c :: rest))

theorem length_le_of_readWord {word text rest : List Char}
    (h : readWord word text = .ok ((), rest)) : rest.length ≤ text.length := by
  induction word generalizing text with
  | nil => simp only [readWord, Except.ok.injEq, Prod.mk.injEq, true_and] at h; simp [h]
  | cons letter word ih =>
    cases text with
    | nil => simp [readWord] at h
    | cons c text =>
      simp only [readWord] at h
      split at h
      · exact Nat.le_succ_of_le (ih h)
      · simp at h

end Json

end CartoStyle
