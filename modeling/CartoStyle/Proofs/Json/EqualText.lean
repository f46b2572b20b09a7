import CartoStyle.Proofs.Json.Members
import CartoStyle.Proofs.Json.Text

set_option autoImplicit false

/-! # Values of equal text

Values that are written alike are alike part by part: strings and truth values are the same, arrays
have items of equal text, and objects have the same keys with values of equal text. Numbers are not
told apart any further, so nothing here rests on how floats are written. -/

namespace CartoStyle

namespace Json

/-! ## Parts of equal text -/

theorem opening_eq_of_compact_eq {a b : Json} (h : a.compact = b.compact) :
    a.opening = b.opening :=
  opening_eq (show a.chars ++ [] = b.chars ++ [] by rw [compact_inj.1 h])

/-- Strings are told apart by their text. -/
theorem compact_eq_string_iff {a : Json} {s : String} :
    a.compact = (Json.string s).compact ↔ a = .string s := by
  refine ⟨fun h => ?_, fun h => by rw [h]⟩
  have ho := opening_eq_of_compact_eq h
  cases a with
  | string t =>
    have hchars : quoted t ++ [] = quoted s ++ [] := by
      simpa [chars] using compact_inj.1 h
    rw [(quoted_append_inj hchars).1]
  | _ => simp [opening] at ho

/-- Truth values are told apart by their text, also from numbers. -/
theorem compact_eq_bool_iff {a : Json} {b : Bool} :
    a.compact = (Json.bool b).compact ↔ a = .bool b := by
  refine ⟨fun h => ?_, fun h => by rw [h]⟩
  have ho := opening_eq_of_compact_eq h
  have hchars := compact_inj.1 h
  cases a with
  | null => cases b <;> simp [chars] at hchars
  | bool c => cases b <;> cases c <;> simp [chars] at hchars ⊢
  | number n =>
    -- The first letter of a truth value does not stand in a numeral.
    exfalso
    have hword := n.numberWord_render.all
    rw [show n.render.toList = (Json.bool b).chars from hchars] at hword
    cases b with
    | true => exact absurd (hword 't' (by decide)) (by decide)
    | false => exact absurd (hword 'f' (by decide)) (by decide)
  | _ => simp [opening] at ho

theorem map_chars_eq_iff {as bs : List Json} :
    as.map chars = bs.map chars ↔ as.map compact = bs.map compact := by
  have hmap : ∀ items : List Json, items.map chars = (items.map compact).map String.toList := by
    intro items
    simp [toList_compact]
  rw [hmap, hmap]
  exact (List.map_injective_iff.2 fun _ _ => String.toList_inj.1).eq_iff

/-- Arrays of equal text have items of equal text. -/
theorem compact_array_inj {as bs : List Json} :
    (Json.array as).compact = (Json.array bs).compact ↔ as.map compact = bs.map compact := by
  rw [compact_inj, ← map_chars_eq_iff]
  constructor
  · intro h
    have hchars : (Json.array as).chars ++ [] = (Json.array bs).chars ++ [] := by rw [h]
    exact (itemParts_append_inj (fun a _ => apart_chars a) hchars).1
  · intro h
    rw [chars, chars, itemParts_eq_map, itemParts_eq_map, h]

theorem compact_eq_array_iff {a : Json} {items : List Json} :
    a.compact = (Json.array items).compact ↔
      ∃ others, a = .array others ∧ others.map compact = items.map compact := by
  constructor
  · intro h
    have ho := opening_eq_of_compact_eq h
    cases a with
    | array others => exact ⟨others, rfl, compact_array_inj.1 h⟩
    | _ => simp [opening] at ho
  · rintro ⟨others, rfl, h⟩
    exact compact_array_inj.2 h

/-- The members of an object, each value by its text. -/
def texts (members : List (String × Json)) : List (String × String) :=
  Members.mapValues (fun _ value => value.compact) members

theorem memberParts_eq_iff {as bs : List (String × Json)} :
    memberParts as = memberParts bs ↔ texts as = texts bs := by
  have hpart : ∀ (key key' : String) (a b : Json),
      quoted key ++ ':' :: a.chars = quoted key' ++ ':' :: b.chars ↔
        key = key' ∧ a.compact = b.compact := by
    intro key key' a b
    rw [compact_inj]
    constructor
    · intro h
      obtain ⟨hkey, htail⟩ := quoted_append_inj h
      exact ⟨hkey, (List.cons.inj htail).2⟩
    · rintro ⟨rfl, h⟩
      rw [h]
  induction as generalizing bs with
  | nil => cases bs <;> simp [memberParts, texts, Members.mapValues]
  | cons member rest ih =>
    cases bs with
    | nil => simp [memberParts, texts, Members.mapValues]
    | cons other rest' =>
      have htexts : texts (member :: rest) = texts (other :: rest') ↔
          (member.1 = other.1 ∧ member.2.compact = other.2.compact) ∧ texts rest = texts rest' := by
        simp [texts, Members.mapValues]
      rw [memberParts, memberParts, List.cons.injEq, hpart, htexts]
      exact and_congr_right fun _ => ih

/-- Objects of equal text have the same keys with values of equal text. -/
theorem compact_object_inj {as bs : List (String × Json)} :
    (Json.object as).compact = (Json.object bs).compact ↔ texts as = texts bs := by
  rw [compact_inj, ← memberParts_eq_iff]
  constructor
  · intro h
    have hchars : (Json.object as).chars ++ [] = (Json.object bs).chars ++ [] := by rw [h]
    exact (memberParts_append_inj (fun _ a _ => apart_chars a) hchars).1
  · intro h
    rw [chars, chars, h]

theorem compact_eq_object_iff {a : Json} {members : List (String × Json)} :
    a.compact = (Json.object members).compact ↔
      ∃ others, a = .object others ∧ texts others = texts members := by
  constructor
  · intro h
    have ho := opening_eq_of_compact_eq h
    cases a with
    | object others => exact ⟨others, rfl, compact_object_inj.1 h⟩
    | _ => simp [opening] at ho
  · rintro ⟨others, rfl, h⟩
    exact compact_object_inj.2 h

/-! ## Changing values of equal text -/

/-- Lists that agree in one way element by element agree in another. -/
theorem map_eq_map_of_imp {α β γ : Type} {f : α → β} {g : α → γ} {as bs : List α}
    (himp : ∀ a ∈ as, ∀ b ∈ bs, f a = f b → g a = g b) (h : as.map f = bs.map f) :
    as.map g = bs.map g := by
  induction as generalizing bs with
  | nil =>
    obtain rfl := List.map_eq_nil_iff.1 h.symm
    rfl
  | cons a as ih =>
    obtain ⟨b, bs, rfl, hb, hbs⟩ := List.map_eq_cons_iff.1 h.symm
    rw [List.map_cons, List.map_cons,
      himp a (List.mem_cons_self ..) b (List.mem_cons_self ..) hb.symm,
      ih (fun x hx y hy => himp x (List.mem_cons_of_mem _ hx) y (List.mem_cons_of_mem _ hy))
        hbs.symm]

/-- Members of equal text, changed in a way that respects equal text, have equal text. -/
theorem texts_mapValues_congr {change : String → Json → Json} {as bs : List (String × Json)}
    (hchange : ∀ key {a b : Json}, a.compact = b.compact →
      (change key a).compact = (change key b).compact) (h : texts as = texts bs) :
    texts (Members.mapValues change as) = texts (Members.mapValues change bs) := by
  rw [texts, texts, Members.mapValues, Members.mapValues, Members.mapValues, Members.mapValues,
    List.map_map, List.map_map]
  refine map_eq_map_of_imp ?_ h
  rintro ⟨key, a⟩ - ⟨key', b⟩ - heq
  obtain ⟨rfl, hcompact⟩ := Prod.mk.inj heq
  exact Prod.ext rfl (hchange key hcompact)

end Json

end CartoStyle
