import CartoStyle.Proofs.Json.Text
import Mathlib.Data.List.Forall2
import Mathlib.Data.String.Basic

set_option autoImplicit false

/-! # The length of compact text

How many bytes the text of a value has, part by part (`Json.bytes_array`, `Json.bytes_object`), and
what that says of changes to a value: leaving out items or members, and putting shorter values in their
place, either changes nothing or makes the text shorter (`Json.Shortened.array`,
`Json.Shortened.object`). -/

namespace CartoStyle

-- The empty sum is the numeral, also where monoids have a zero too.
attribute [local instance (high)] Zero.ofOfNat0

/-! ## Lists that lose weight -/

/-- A list that loses elements, and whose other elements may be replaced by lighter ones, is the same
    list or weighs less, and more than nothing before. -/
theorem eq_or_sum_lt {α : Type} {weight : α → Nat} {items kept items' : List α}
    (hsub : kept.Sublist items) (hweight : ∀ a, 1 < weight a)
    (hkept : List.Forall₂ (fun a b => b = a ∨ weight b < weight a) kept items') :
    items' = items ∨ max 1 (items'.map weight).sum < (items.map weight).sum := by
  induction hsub generalizing items' with
  | slnil =>
    cases hkept
    exact Or.inl rfl
  | @cons rest items a _ ih =>
    right
    have hrest : (items'.map weight).sum ≤ (items.map weight).sum := by
      rcases ih hkept with rfl | hlt
      · exact Nat.le_refl _
      · omega
    have ha := hweight a
    rw [List.map_cons, List.sum_cons]
    omega
  | @cons_cons rest items a _ ih =>
    obtain ⟨b, rest', hb, hrest', rfl⟩ := List.forall₂_cons_left_iff.1 hkept
    have ha := hweight a
    rw [List.map_cons, List.map_cons, List.sum_cons, List.sum_cons]
    rcases hb with rfl | hb <;> rcases ih hrest' with rfl | hlt
    · exact Or.inl rfl
    · right
      omega
    · right
      omega
    · right
      omega

namespace Json

/-! ## Bytes -/

/-- The number of bytes of the text of a value. -/
def bytes (value : Json) : Nat := String.utf8Len value.chars

theorem utf8ByteSize_compact (value : Json) : value.compact.utf8ByteSize = value.bytes := by
  rw [bytes, ← toList_compact, String.utf8Len_toList]

/-- Parts in brackets take a byte each for the comma or the closing bracket behind them. -/
theorem utf8Len_sequence {close : Char} (hclose : close.utf8Size = 1) (parts : List (List Char)) :
    String.utf8Len (sequence close parts) =
      max 1 (parts.map fun part => String.utf8Len part + 1).sum := by
  have hcontinued : ∀ parts : List (List Char), String.utf8Len (continued close parts) =
      (parts.map fun part => String.utf8Len part + 1).sum + 1 := by
    intro parts
    induction parts with
    | nil => simp [continued, hclose]
    | cons part rest ih =>
      have hcomma : ','.utf8Size = 1 := by decide
      simp only [continued, String.utf8Len_cons, String.utf8Len_append, ih, hcomma, List.map_cons,
        List.sum_cons]
      omega
  cases parts with
  | nil => simp [sequence, hclose]
  | cons part rest =>
    simp only [sequence, String.utf8Len_append, hcontinued, List.map_cons, List.sum_cons]
    omega

/-- The bytes of an item with the comma or bracket behind it. -/
def itemWeight (item : Json) : Nat := item.bytes + 1

theorem bytes_array (items : List Json) :
    (Json.array items).bytes = 1 + max 1 (items.map itemWeight).sum := by
  have hopen : '['.utf8Size = 1 := by decide
  rw [bytes, chars, String.utf8Len_cons, utf8Len_sequence (by decide), itemParts_eq_map,
    List.map_map, hopen, Nat.add_comm]
  rfl

/-- The bytes of a member with the comma or brace behind it. -/
def memberWeight (member : String × Json) : Nat :=
  String.utf8Len (quoted member.1) + 1 + member.2.bytes + 1

theorem bytes_object (members : List (String × Json)) :
    (Json.object members).bytes = 1 + max 1 (members.map memberWeight).sum := by
  have hopen : '\x7b'.utf8Size = 1 := by decide
  have hpart : ∀ member : String × Json,
      String.utf8Len (memberPart member) + 1 = memberWeight member := by
    intro member
    have hcolon : ':'.utf8Size = 1 := by decide
    rw [memberPart, String.utf8Len_append, String.utf8Len_cons, hcolon, memberWeight, bytes]
    omega
  rw [bytes, chars, String.utf8Len_cons, utf8Len_sequence (by decide), memberParts_eq_map,
    List.map_map, hopen, Nat.add_comm]
  simp only [Function.comp_def, hpart]

theorem bytes_pos (value : Json) : 0 < value.bytes := by
  obtain ⟨c, rest, hchars, -⟩ := value.exists_chars_eq_cons
  have hc := c.utf8Size_pos
  rw [bytes, hchars, String.utf8Len_cons]
  omega

/-! ## Values with shorter text -/

/-- Whether a value stays as it is or gets a shorter text. -/
def Shortened (before after : Json) : Prop := after = before ∨ after.bytes < before.bytes

namespace Shortened

theorem refl (value : Json) : Shortened value value := Or.inl rfl

theorem bytes_le {a b : Json} (h : Shortened a b) : b.bytes ≤ a.bytes := by
  rcases h with rfl | hlt
  · exact Nat.le_refl _
  · exact Nat.le_of_lt hlt

/-- A text of the same length is that of the same value. -/
theorem eq_iff {a b : Json} (h : Shortened a b) : b = a ↔ b.bytes = a.bytes := by
  constructor
  · rintro rfl
    rfl
  · intro hbytes
    rcases h with heq | hlt
    · exact heq
    · omega

/-- An array that loses items, and whose other items are shortened, is shortened. -/
theorem array {items kept items' : List Json} (hsub : kept.Sublist items)
    (hkept : List.Forall₂ Shortened kept items') : Shortened (.array items) (.array items') := by
  have hlighter : ∀ a b : Json, Shortened a b → b = a ∨ itemWeight b < itemWeight a :=
    fun a b h => h.imp_right Nat.succ_lt_succ
  have hweight : ∀ item : Json, 1 < itemWeight item := fun item => Nat.succ_lt_succ item.bytes_pos
  rcases eq_or_sum_lt hsub hweight (hkept.imp hlighter) with rfl | hlt
  · exact refl _
  · right
    rw [bytes_array, bytes_array]
    omega

/-- An object that loses members, and whose other members are shortened, is shortened. -/
theorem object {members kept members' : List (String × Json)} (hsub : kept.Sublist members)
    (hkept : List.Forall₂ (fun m n => n.1 = m.1 ∧ Shortened m.2 n.2) kept members') :
    Shortened (.object members) (.object members') := by
  have hlighter : ∀ m n : String × Json, n.1 = m.1 ∧ Shortened m.2 n.2 →
      n = m ∨ memberWeight n < memberWeight m := by
    rintro m n ⟨hkey, heq | hlt⟩
    · exact Or.inl (Prod.ext hkey heq)
    · right
      simp only [memberWeight, hkey]
      omega
  have hweight : ∀ member : String × Json, 1 < memberWeight member := by
    intro member
    simp only [memberWeight]
    omega
  rcases eq_or_sum_lt hsub hweight (hkept.imp hlighter) with rfl | hlt
  · exact refl _
  · right
    rw [bytes_object, bytes_object]
    omega

end Shortened

end Json

end CartoStyle
