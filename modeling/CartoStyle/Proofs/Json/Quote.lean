import CartoStyle.Json.Escape
import CartoStyle.Json.Printer
import Mathlib.Data.List.Basic

set_option autoImplicit false

/-! # Quoted strings

A string that was written in quotes is read back, whatever follows it (`readString_quoted`). So the
text of a string ends where the string does, and no two strings have the same text. -/

namespace CartoStyle

namespace Json

/-! ## One character -/

/-- The two digits of a control character are read as its code. -/
theorem hexDigit?_digitChar : ∀ n < 16, hexDigit? (Nat.digitChar n) = some n := by decide

theorem hexValue?_control {n : Nat} (h : n < 0x20) :
    hexValue? '0' '0' (Nat.digitChar (n / 16)) (Nat.digitChar (n % 16)) = some n := by
  have hzero : hexDigit? '0' = some 0 := by decide
  have hhigh := hexDigit?_digitChar (n / 16) (by omega)
  have hlow := hexDigit?_digitChar (n % 16) (by omega)
  simp only [hexValue?, hzero, hhigh, hlow, bind, Option.bind, pure]
  congr 1
  omega

theorem readEscape_control {c : Char} (h : c.toNat < 0x20) (rest : List Char) :
    readEscape ('u' :: '0' :: '0' :: Nat.digitChar (c.toNat / 16) ::
      Nat.digitChar (c.toNat % 16) :: rest) = .ok (c, rest) := by
  have htrailing : isTrailing c.toNat = false := by simp [isTrailing]; omega
  have hleading : isLeading c.toNat = false := by simp [isLeading]; omega
  rw [readEscape, readUnicode, readHex]
  simp [hexValue?_control h, bind, Except.bind, htrailing, hleading, pure, Except.pure]

theorem readString_backslash {done : String} {d : Char} {text rest : List Char}
    (h : readEscape text = .ok (d, rest)) :
    readString done ('\\' :: text) = readString (done.push d) rest := by
  rw [readString, if_neg (by decide), if_pos rfl]
  split
  · next d' rest' h' =>
    rw [h] at h'
    obtain ⟨rfl, rfl⟩ := Prod.mk.inj (Except.ok.inj h')
    rfl
  · next h' => simp [h] at h'

/-- An escaped character is read as that character. -/
theorem readString_escape (done : String) (c : Char) (rest : List Char) :
    readString done ((escape c).toList ++ rest) = readString (done.push c) rest := by
  unfold escape
  split
  case h_8 hquote hbackslash _ _ _ _ _ =>
    -- Every other character stands for itself, unless it is a control character.
    split
    · next hcontrol =>
      simp only [String.toList_append, String.toList_ofList]
      exact readString_backslash (readEscape_control hcontrol rest)
    · next hcontrol =>
      rw [String.toList_singleton, List.singleton_append, readString, if_neg hquote,
        if_neg hbackslash, if_neg hcontrol]
  all_goals exact readString_backslash rfl

/-! ## Whole strings -/

/-- The text of a string in quotes. -/
def quoted (s : String) : List Char :=
  '"' :: (s.toList.flatMap (fun c => (escape c).toList) ++ ['"'])

theorem toList_quoteOnto (written text : String) :
    (quoteOnto written text).toList = written.toList ++ quoted text := by
  have hfold : ∀ (cs : List Char) (acc : String),
      (cs.foldl (fun written c => written ++ escape c) acc).toList =
        acc.toList ++ cs.flatMap (fun c => (escape c).toList) := by
    intro cs
    induction cs with
    | nil => simp
    | cons c rest ih =>
      intro acc
      rw [List.foldl_cons, ih, String.toList_append, List.flatMap_cons, List.append_assoc]
  simp [quoteOnto, quoted, hfold]

theorem readString_flatMap_escape (done : String) (cs rest : List Char) :
    readString done (cs.flatMap (fun c => (escape c).toList) ++ '"' :: rest) =
      .ok (done ++ String.ofList cs, rest) := by
  induction cs generalizing done with
  | nil =>
    rw [List.flatMap_nil, List.nil_append, readString, if_pos rfl, String.ofList_nil,
      String.append_empty]
  | cons c cs ih =>
    have hpush : done.push c ++ String.ofList cs = done ++ String.ofList (c :: cs) := by
      rw [← String.toList_inj]
      simp
    rw [List.flatMap_cons, List.append_assoc, readString_escape, ih, hpush]

/-- **A quoted string is read back,** whatever follows it. -/
theorem readString_quoted (s : String) (rest : List Char) :
    readString "" ((quoted s).tail ++ rest) = .ok (s, rest) := by
  have h := readString_flatMap_escape "" s.toList rest
  simpa [quoted] using h

/-- Where a quoted string ends can be told from its text. -/
theorem quoted_append_inj {s t : String} {rest rest' : List Char}
    (h : quoted s ++ rest = quoted t ++ rest') : s = t ∧ rest = rest' := by
  have htail : (quoted s).tail ++ rest = (quoted t).tail ++ rest' := (List.cons.inj h).2
  have hs := readString_quoted s rest
  rw [htail, readString_quoted] at hs
  obtain ⟨rfl, rfl⟩ := Prod.mk.inj (Except.ok.inj hs)
  exact ⟨rfl, rfl⟩

end Json

end CartoStyle
