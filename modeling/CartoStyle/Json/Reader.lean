import CartoStyle.Json.Escape
import CartoStyle.Json.Numeral

set_option autoImplicit false

/-! # Reading JSON

A recursive-descent reader. Nesting is bounded by `Json.maxNesting`, and the bound is what the
recursion through values runs on. -/

namespace CartoStyle

namespace Json

/-! ## Arrays and objects -/

/-- What tells arrays from objects: the closing bracket, and the faults of an array or object that
    is not closed and of elements that are not set apart. -/
structure Brackets where
  close : Char
  unclosed : ReadFault
  unseparated : ReadFault

def arrayBrackets : Brackets := ⟨']', .endOfArray, .expectedItemEnd⟩

def objectBrackets : Brackets := ⟨'\x7d', .endOfObject, .expectedMemberEnd⟩

/-- Read what follows an element: a comma in front of another element, which is `true`, or the
    closing bracket. -/
def readSeparator (brackets : Brackets) : Reader Bool := fun text =>
  match skipBlanks text with
  | [] => .error (.on brackets.unclosed [])
  | ',' :: rest =>
    match skipBlanks rest with
    | [] => .error (.on .endOfValue [])
    | c :: rest =>
      if c = brackets.close then .error (.on .trailingComma (c :: rest)) else .ok (true, c :: rest)
  | c :: rest =>
    if c = brackets.close then .ok (false, rest) else .error (.on brackets.unseparated (c :: rest))

theorem shrinks_readSeparator (brackets : Brackets) : Shrinks (readSeparator brackets) := by
  intro text more rest h
  have le := length_skipBlanks_le text
  unfold readSeparator at h
  split at h
  · simp at h
  · next after e =>
    rw [e] at le
    have le' := length_skipBlanks_le after
    split at h
    · simp at h
    · next c after' e' =>
      rw [e'] at le'
      split at h
      · simp at h
      · obtain ⟨-, rfl⟩ := Prod.mk.inj (Except.ok.inj h)
        exact Nat.lt_of_le_of_lt le' le
  · next c after e =>
    rw [e] at le
    split at h
    · obtain ⟨-, rfl⟩ := Prod.mk.inj (Except.ok.inj h)
      exact le
    · simp at h

/-- Read elements and the closing bracket, given the elements read already, the last first. -/
def readElements {α : Type} {element : Reader α} (shrinks : Shrinks element) (brackets : Brackets)
    (done : List α) : Reader (List α) := fun text =>
  match _read : element text with
  | .error stop => .error stop
  | .ok (a, rest) =>
    match _separated : readSeparator brackets rest with
    | .error stop => .error stop
    | .ok (false, rest) => .ok ((a :: done).reverse, rest)
    | .ok (true, rest) => readElements shrinks brackets (a :: done) rest
termination_by text => text.length
decreasing_by exact Nat.lt_trans (shrinks_readSeparator brackets _separated) (shrinks _read)

theorem length_lt_of_readElements {α : Type} {element : Reader α} (shrinks : Shrinks element)
    {brackets : Brackets} {done elements : List α} {text rest : List Char}
    (h : readElements shrinks brackets done text = .ok (elements, rest)) :
    rest.length < text.length := by
  fun_induction readElements shrinks brackets done text with
  | case1 => simp at h
  | case2 => simp at h
  | case3 done text a rest₁ h₁ rest₂ h₂ =>
    obtain ⟨-, rfl⟩ := Prod.mk.inj (Except.ok.inj h)
    exact Nat.lt_trans (shrinks_readSeparator brackets h₂) (shrinks h₁)
  | case4 done text a rest₁ h₁ rest₂ h₂ ih =>
    exact Nat.lt_trans (ih h) (Nat.lt_trans (shrinks_readSeparator brackets h₂) (shrinks h₁))

/-- Read elements after the opening bracket, with the closing one. -/
def readEnclosed {α : Type} {element : Reader α} (shrinks : Shrinks element)
    (brackets : Brackets) : Reader (List α) := fun text =>
  match skipBlanks text with
  | [] => .error (.on brackets.unclosed [])
  | c :: rest =>
    if c = brackets.close then .ok ([], rest)
    else readElements shrinks brackets [] (c :: rest)

theorem shrinks_readEnclosed {α : Type} {element : Reader α} (shrinks : Shrinks element)
    (brackets : Brackets) : Shrinks (readEnclosed shrinks brackets) := by
  intro text elements rest h
  have le := length_skipBlanks_le text
  unfold readEnclosed at h
  split at h
  · simp at h
  · next c after e =>
    rw [e] at le
    split at h
    · obtain ⟨-, rfl⟩ := Prod.mk.inj (Except.ok.inj h)
      exact le
    · exact Nat.lt_of_lt_of_le (length_lt_of_readElements shrinks h) le

/-- Read a key, the colon and a value. -/
def readMember (value : Reader Json) : Reader (String × Json)
  | '"' :: rest => do
    let (key, rest) ← readString "" rest
    match skipBlanks rest with
    | [] => throw (.on .endOfObject [])
    | ':' :: rest => do
      let (v, rest) ← value rest
      return ((key, v), rest)
    | rest => throw (.on .expectedColon rest)
  | text => .error (.on .expectedKey text)

theorem shrinks_readMember {value : Reader Json} (shrinks : Shrinks value) :
    Shrinks (readMember value) := by
  intro text member rest h
  unfold readMember at h
  split at h
  · obtain ⟨⟨key, rest₁⟩, h₁, h⟩ := bind_eq_ok.1 h
    have lt := length_lt_of_readString h₁
    have le := length_skipBlanks_le rest₁
    dsimp only at h
    split at h
    · exact absurd h (by simp [throw, throwThe, MonadExceptOf.throw])
    · next rest₂ e =>
      rw [e] at le
      obtain ⟨⟨v, rest₃⟩, h₃, h⟩ := bind_eq_ok.1 h
      obtain ⟨-, rfl⟩ := Prod.mk.inj (Except.ok.inj h)
      have := shrinks h₃
      simp only [List.length_cons] at *
      omega
    · exact absurd h (by simp [throw, throwThe, MonadExceptOf.throw])
  · simp at h

/-! ## Values -/

/-- A reader of values. -/
abbrev ValueReader := { value : Reader Json // Shrinks value }

/-- Read a value whose items and member values are read by `inner`. Without `inner` the value may
    not be an array or object. -/
def readValue (inner : Option ValueReader) : Reader Json := fun text =>
  match skipBlanks text with
  | [] => .error (.on .endOfValue [])
  | 'n' :: rest => do
    let (_, rest) ← readWord ['u', 'l', 'l'] rest
    return (.null, rest)
  | 't' :: rest => do
    let (_, rest) ← readWord ['r', 'u', 'e'] rest
    return (.bool true, rest)
  | 'f' :: rest => do
    let (_, rest) ← readWord ['a', 'l', 's', 'e'] rest
    return (.bool false, rest)
  | '-' :: rest => do
    let (n, rest) ← readMagnitude true rest
    return (.number n, rest)
  | '"' :: rest => do
    let (s, rest) ← readString "" rest
    return (.string s, rest)
  | '[' :: rest =>
    match inner with
    | none => .error (.on .nesting ('[' :: rest))
    | some value => do
      let (items, rest) ← readEnclosed value.2 arrayBrackets rest
      return (.array items, rest)
  | '\x7b' :: rest =>
    match inner with
    | none => .error (.on .nesting ('\x7b' :: rest))
    | some value => do
      let (entries, rest) ← readEnclosed (shrinks_readMember value.2) objectBrackets rest
      return (.object (Members.ofEntries entries), rest)
  | c :: rest =>
    if c.isDigit then do
      let (n, rest) ← readMagnitude false (c :: rest)
      return (.number n, rest)
    else .error (.on .expectedValue (c :: rest))

theorem shrinks_readValue (inner : Option ValueReader) : Shrinks (readValue inner) := by
  intro text v rest h
  have le := length_skipBlanks_le text
  unfold readValue at h
  split at h
  case h_1 => simp at h
  case h_7 e =>
    rw [e] at le
    split at h
    · simp at h
    · next value =>
      obtain ⟨⟨a, rest'⟩, h', h⟩ := bind_eq_ok.1 h
      obtain ⟨-, rfl⟩ := Prod.mk.inj (Except.ok.inj h)
      exact Nat.lt_of_lt_of_le (Nat.lt_succ_of_lt (shrinks_readEnclosed _ _ h')) le
  case h_8 e =>
    rw [e] at le
    split at h
    · simp at h
    · next value =>
      obtain ⟨⟨a, rest'⟩, h', h⟩ := bind_eq_ok.1 h
      obtain ⟨-, rfl⟩ := Prod.mk.inj (Except.ok.inj h)
      exact Nat.lt_of_lt_of_le (Nat.lt_succ_of_lt (shrinks_readEnclosed _ _ h')) le
  case h_9 e =>
    rw [e] at le
    split at h
    · obtain ⟨⟨a, rest'⟩, h', h⟩ := bind_eq_ok.1 h
      obtain ⟨-, rfl⟩ := Prod.mk.inj (Except.ok.inj h)
      exact Nat.lt_of_lt_of_le (shrinks_readMagnitude _ h') le
    · simp at h
  case h_5 e =>
    rw [e] at le
    obtain ⟨⟨a, rest'⟩, h', h⟩ := bind_eq_ok.1 h
    obtain ⟨-, rfl⟩ := Prod.mk.inj (Except.ok.inj h)
    exact Nat.lt_of_lt_of_le (Nat.lt_succ_of_lt (shrinks_readMagnitude _ h')) le
  case h_6 e =>
    rw [e] at le
    obtain ⟨⟨a, rest'⟩, h', h⟩ := bind_eq_ok.1 h
    obtain ⟨-, rfl⟩ := Prod.mk.inj (Except.ok.inj h)
    exact Nat.lt_of_lt_of_le (Nat.lt_succ_of_lt (length_lt_of_readString h')) le
  all_goals
    next e =>
      rw [e] at le
      obtain ⟨⟨a, rest'⟩, h', h⟩ := bind_eq_ok.1 h
      obtain ⟨-, rfl⟩ := Prod.mk.inj (Except.ok.inj h)
      exact Nat.lt_of_lt_of_le (Nat.lt_succ_of_le (length_le_of_readWord h')) le

/-- The reader of values in which arrays and objects nest at most `depth` deep. -/
def valueReader : Nat → ValueReader
  | 0 => ⟨readValue none, shrinks_readValue none⟩
  | depth + 1 => ⟨readValue (some (valueReader depth)), shrinks_readValue _⟩

/-- How deep the arrays and objects of a text may nest. -/
def maxNesting : Nat := 127

/-- The end of a text, blanks left aside. -/
def readEnd (text : List Char) : Except ReadStop Unit :=
  match skipBlanks text with
  | [] => .ok ()
  | rest => .error (.on .trailingText rest)

/-- Read a text that is one value with blanks around it. -/
def readText (text : List Char) : Except ReadStop Json := do
  let (value, rest) ← (valueReader maxNesting).1 text
  readEnd rest
  return value

/-- The failure of reading a text that stopped. -/
def failure (text : List Char) (stop : ReadStop) : ReadError :=
  ⟨stop.fault, .ofBytes (bytes text - stop.bytesLeft) text⟩

/-- Read a text as JSON. -/
def parse (text : String) : Except ReadError Json :=
  (readText text.toList).mapError (failure text.toList)

/-- Read a text as JSON and decode the value. The value is decoded before the end of the text is
    looked at, so that a value that is refused counts more than what follows it. -/
def parseAs {ε α : Type} (decode : Json → Except ε α) (text : String) :
    Except (ReadError ⊕ ε) α := do
  let (value, rest) ←
    ((valueReader maxNesting).1 text.toList).mapError (.inl ∘ failure text.toList)
  let decoded ← (decode value).mapError .inr
  (readEnd rest).mapError (.inl ∘ failure text.toList)
  return decoded

end Json

end CartoStyle
