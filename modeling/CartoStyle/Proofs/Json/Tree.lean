import CartoStyle.Json.Basic

set_option autoImplicit false

/-! # Induction over values

A value is a tree through lists of items and of members. `Json.tree_induction` gives the induction
hypothesis for every item and every member's value, and well-formedness is unfolded in the same
form. -/

namespace CartoStyle

namespace Json

section Induction

set_option linter.unusedSectionVars false

variable {motive : Json → Prop} (null : motive .null) (bool : ∀ b, motive (.bool b))
  (number : ∀ n, motive (.number n)) (string : ∀ s, motive (.string s))
  (array : ∀ items, (∀ item ∈ items, motive item) → motive (.array items))
  (object : ∀ members : List (String × Json),
    (∀ key value, (key, value) ∈ members → motive value) → motive (.object members))

include null bool number string array object

mutual

/-- Induction over a value: a fact holds of an array when it holds of its items, and of an object
    when it holds of its members' values. -/
@[elab_as_elim]
theorem tree_induction (value : Json) : motive value := by
  match value with
  | .null => exact null
  | .bool b => exact bool b
  | .number n => exact number n
  | .string s => exact string s
  | .array items => exact array items (items_induction items)
  | .object members => exact object members (members_induction members)

theorem items_induction (items : List Json) : ∀ item ∈ items, motive item := by
  match items with
  | [] => simp
  | first :: rest =>
    have hfirst := tree_induction first
    have hrest := items_induction rest
    intro item hm
    rcases List.mem_cons.1 hm with rfl | hm'
    · exact hfirst
    · exact hrest item hm'

theorem members_induction (members : List (String × Json)) :
    ∀ key value, (key, value) ∈ members → motive value := by
  match members with
  | [] => simp
  | (k, v) :: rest =>
    have hfirst := tree_induction v
    have hrest := members_induction rest
    intro key value hm
    rcases List.mem_cons.1 hm with he | hm'
    · obtain ⟨-, rfl⟩ := Prod.mk.inj he
      exact hfirst
    · exact hrest key value hm'

end

end Induction

/-! ## Well-formed values -/

theorem wellFormedItems_iff (items : List Json) :
    WellFormedItems items ↔ ∀ item ∈ items, item.WellFormed := by
  induction items with
  | nil => simp [WellFormedItems]
  | cons first rest ih => simp [WellFormedItems, ih]

theorem wellFormedMembers_iff (members : List (String × Json)) :
    WellFormedMembers members ↔ ∀ key value, (key, value) ∈ members → value.WellFormed := by
  induction members with
  | nil => simp [WellFormedMembers]
  | cons first rest ih =>
    obtain ⟨k, v⟩ := first
    simp only [WellFormedMembers, ih, List.mem_cons, Prod.mk.injEq]
    constructor
    · rintro ⟨hv, hrest⟩ key value (⟨-, rfl⟩ | hm)
      · exact hv
      · exact hrest key value hm
    · intro h
      exact ⟨h k v (Or.inl ⟨rfl, rfl⟩), fun key value hm => h key value (Or.inr hm)⟩

theorem WellFormed.item {items : List Json} (h : (Json.array items).WellFormed) {item : Json}
    (hm : item ∈ items) : item.WellFormed := by
  rw [WellFormed] at h
  exact (wellFormedItems_iff items).1 h item hm

theorem WellFormed.keys_nodup {members : List (String × Json)}
    (h : (Json.object members).WellFormed) : (Members.keys members).Nodup := by
  rw [WellFormed] at h
  exact h.1

theorem WellFormed.member {members : List (String × Json)} (h : (Json.object members).WellFormed)
    {key : String} {value : Json} (hm : (key, value) ∈ members) : value.WellFormed := by
  rw [WellFormed] at h
  exact (wellFormedMembers_iff members).1 h.2 key value hm

end Json

end CartoStyle
