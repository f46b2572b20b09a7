import CartoStyle.Json.Step

set_option autoImplicit false

/-! # Strings and their escapes

Reading strings. A character beyond the basic plane is escaped as the two halves of a surrogate pair,
and neither half may stand alone. -/

namespace CartoStyle

namespace Json

/-! ## Hexadecimal escapes -/

/-- The value of a hexadecimal digit. -/
def hexDigit? (c : Char) : Option Nat :=
  if '0' ≤ c ∧ c ≤ '9' then some (c.toNat - '0'.toNat)
  else if 'a' ≤ c ∧ c ≤ 'f' then some (c.toNat - 'a'.toNat + 10)
  else if 'A' ≤ c ∧ c ≤ 'F' then some (c.toNat - 'A'.toNat + 10)
  else none

/-- The value of four hexadecimal digits. -/
def hexValue? (a b c d : Char) : Option Nat := do
  return ((← hexDigit? a) * 16 ^ 3 + (← hexDigit? b) * 16 ^ 2 + (← hexDigit? c) * 16 +
    (← hexDigit? d))

/-- Read four hexadecimal digits. Any other four bytes are an escape of a wrong form. -/
def readHex : Reader Nat := fun text =>
  let wrong :=
    if bytes text < 4 then .error (.before .endOfString [])
    else .error (.inside .escapeForm text 4)
  match text with
  | a :: b :: c :: d :: rest =>
    match hexValue? a b c d with
    | some unit => .ok (unit, rest)
    | none => wrong
  | _ => wrong

theorem shrinks_readHex : Shrinks readHex := by
  intro text unit rest h
  unfold readHex at h
  dsimp only at h
  repeat' split at h
  all_goals first
    | (obtain ⟨-, rfl⟩ := Prod.mk.inj (Except.ok.inj h); simp only [List.length_cons]; omega)
    | exact absurd h (by simp)

/-- Whether a UTF-16 unit is the second half of a surrogate pair. -/
def isTrailing (unit : Nat) : Bool := 0xDC00 ≤ unit && unit ≤ 0xDFFF

/-- Whether a UTF-16 unit is the first half of a surrogate pair. -/
def isLeading (unit : Nat) : Bool := 0xD800 ≤ unit && unit ≤ 0xDBFF

/-- The character of a surrogate pair. -/
def pairChar (leading trailing : Nat) : Char :=
  Char.ofNat (0x10000 + (leading - 0xD800) * 0x400 + (trailing - 0xDC00))

/-- Read the second half of a surrogate pair, which is escaped like the first. -/
def readTrailing : Reader Nat
  | [] => .error (.before .endOfString [])
  | '\\' :: [] => .error (.before .endOfString [])
  | '\\' :: 'u' :: rest => do
    let (unit, rest) ← readHex rest
    if isTrailing unit then return (unit, rest) else throw (.before .surrogateAlone rest)
  | '\\' :: rest => .error (.on .surrogateCut rest)
  | text => .error (.on .surrogateCut text)

theorem shrinks_readTrailing : Shrinks readTrailing := by
  intro text unit rest h
  unfold readTrailing at h
  split at h
  · simp at h
  · simp at h
  · obtain ⟨⟨unit', rest'⟩, h₁, h⟩ := bind_eq_ok.1 h
    dsimp only at h
    split at h
    · obtain ⟨-, rfl⟩ := Prod.mk.inj (Except.ok.inj h)
      have := shrinks_readHex h₁
      simp only [List.length_cons]
      omega
    · exact absurd h (by simp [throw, throwThe, MonadExceptOf.throw])
  · simp at h
  · simp at h

/-- Read the hexadecimal form of a character; one beyond the basic plane takes two escapes. -/
def readUnicode : Reader Char := fun text => do
  let (unit, rest) ← readHex text
  if isTrailing unit then throw (.before .surrogateAlone rest)
  else if isLeading unit then do
    let (second, rest) ← readTrailing rest
    return (pairChar unit second, rest)
  else return (Char.ofNat unit, rest)

theorem shrinks_readUnicode : Shrinks readUnicode := by
  intro text c rest h
  obtain ⟨⟨unit, rest'⟩, h₁, h⟩ := bind_eq_ok.1 h
  have lt := shrinks_readHex h₁
  dsimp only at h
  split at h
  · exact absurd h (by simp [throw, throwThe, MonadExceptOf.throw])
  · split at h
    · obtain ⟨⟨second, rest''⟩, h₂, h⟩ := bind_eq_ok.1 h
      obtain ⟨-, rfl⟩ := Prod.mk.inj (Except.ok.inj h)
      exact Nat.lt_trans (shrinks_readTrailing h₂) lt
    · obtain ⟨-, rfl⟩ := Prod.mk.inj (Except.ok.inj h)
      exact lt

/-- Read an escape after its backslash. -/
def readEscape : Reader Char
  | [] => .error (.before .endOfString [])
  | '"' :: rest => .ok ('"', rest)
  | '\\' :: rest => .ok ('\\', rest)
  | '/' :: rest => .ok ('/', rest)
  | 'b' :: rest => .ok ('\x08', rest)
  | 'f' :: rest => .ok ('\x0c', rest)
  | 'n' :: rest => .ok ('\n', rest)
  | 'r' :: rest => .ok ('\r', rest)
  | 't' :: rest => .ok ('\t', rest)
  | 'u' :: rest => readUnicode rest
  | text => .error (.on .escapeForm text)

theorem shrinks_readEscape : Shrinks readEscape := by
  intro text c rest h
  unfold readEscape at h
  split at h
  case h_10 => exact Nat.lt_succ_of_lt (shrinks_readUnicode h)
  case h_1 => simp at h
  case h_11 => simp at h
  all_goals
    obtain ⟨-, rfl⟩ := Prod.mk.inj (Except.ok.inj h)
    simp

/-! ## Strings -/

/-- Read a string after its opening quote, given the part of it that is read already. -/
def readString (done : String) : Reader String
  | [] => .error (.before .endOfString [])
  | c :: rest =>
    if c = '"' then .ok (done, rest)
    else if c = '\\' then
      match h : readEscape rest with
      | .ok (d, after) =>
        have := shrinks_readEscape h
        readString (done.push d) after
      | .error stop => .error stop
    else if c.toNat < 0x20 then .error (.on .controlCharacter (c :: rest))
    else readString (done.push c) rest
termination_by text => text.length

theorem length_lt_of_readString {done s : String} {text rest : List Char}
    (h : readString done text = .ok (s, rest)) : rest.length < text.length := by
  fun_induction readString done text with
  | case1 => simp at h
  | case2 done rest' =>
    obtain ⟨-, rfl⟩ := Prod.mk.inj (Except.ok.inj h)
    simp
  | case3 done rest' d after he lt _ ih => exact Nat.lt_trans (ih h) (Nat.lt_succ_of_lt lt)
  | case4 => simp at h
  | case5 => simp at h
  | case6 done c rest' _ _ _ ih => exact Nat.lt_succ_of_lt (ih h)

end Json

end CartoStyle
