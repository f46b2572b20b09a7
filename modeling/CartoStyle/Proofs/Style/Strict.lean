import CartoStyle.Proofs.Style.Containers

set_option autoImplicit false

/-! # What a strict reading accepts

A strict reading looks at every known field of the document, of its sources and of its layers. It
accepts a document when all of them are met (`Field.Met`), and then reads what the lenient reading
reads (`Style.ofJson_strict_object_iff`). A container that is there and not null is then one that can
be decoded, and its entries meet the fields of an entry. -/

namespace CartoStyle

/-! ## Fields -/

namespace Field

/-- Whether an object has what a field asks for. -/
def Met (field : Field) (members : List (String × Json)) : Prop :=
  match members.lookup field.key with
  | none => ¬field.required
  | some value => field.fits value ∨ (value.isNull ∧ ¬field.required)

/-- Whether there is a violation does not depend on where the object stands. -/
theorem violation?_eq_none_iff {base : Path} {members : List (String × Json)} {field : Field} :
    violation? base members field = none ↔ field.Met members := by
  unfold violation? Met
  cases members.lookup field.key with
  | none => simp
  | some value => simp only [ite_eq_left_iff, reduceCtorEq, imp_false, not_not]

/-- A field that must be there is met when it can be read. -/
theorem met_mandatory_iff {α : Type} {key : String} {shape : Shape α}
    {members : List (String × Json)} :
    (mandatory key shape).Met members ↔ (shape.get? key members).isSome := by
  unfold Met mandatory Shape.get?
  cases members.lookup key <;> simp [Shape.Fits]

end Field

/-! ## Sources and layers -/

namespace Style

/-- Whether an entry is an object with the fields of a layer. -/
def IsLayer (value : Json) : Prop :=
  ∃ members, value = .object members ∧ ∀ field ∈ Layer.fields, field.Met members

theorem entryViolation?_eq_none_iff {fields : List Field} {path : Path} {value : Json} :
    entryViolation? fields path value = none ↔
      ∃ members, value = .object members ∧ ∀ field ∈ fields, field.Met members := by
  cases value <;> simp [entryViolation?, Field.violation?_eq_none_iff]

theorem sourcesViolation?_object_eq_none_iff {entries : List (String × Json)} :
    sourcesViolation? (some (.object entries)) = none ↔
      ∀ entry ∈ entries, ∃ members, entry.2 = .object members ∧
        ∀ field ∈ Source.fields, field.Met members := by
  simp only [sourcesViolation?, List.findSome?_eq_none_iff, entryViolation?_eq_none_iff]

theorem layersViolation?_array_eq_none_iff {items : List Json} :
    layersViolation? (some (.array items)) = none ↔
      ∀ item ∈ items, IsLayer item := by
  simp only [layersViolation?, List.findSome?_eq_none_iff, entryViolation?_eq_none_iff, IsLayer]
  -- The position of a layer only enters the path of its violation.
  constructor
  · intro h item hi
    obtain ⟨position, hp, rfl⟩ := List.getElem_of_mem hi
    exact h (items[position], position) (List.mk_mem_zipIdx_iff_getElem?.2 (by simp))
  · rintro h ⟨item, position⟩ hm
    exact h item (List.mem_of_getElem? (List.mk_mem_zipIdx_iff_getElem?.1 hm))

/-- Accepted sources that are not null are an object of objects. -/
theorem eq_object_of_sourcesViolation? {value : Json} (hnull : value ≠ .null)
    (h : sourcesViolation? (some value) = none) :
    ∃ entries : List (String × List (String × Json)),
      value = .object (entries.map fun (key, members) => (key, .object members)) := by
  cases value with
  | object entries =>
    rw [sourcesViolation?_object_eq_none_iff] at h
    have hobjects : ∀ entry ∈ entries, entry.2.isObject := by
      intro entry he
      obtain ⟨members, hvalue, -⟩ := h entry he
      rw [hvalue]
      rfl
    obtain ⟨objects, rfl⟩ := exists_eq_map_object_entries hobjects
    exact ⟨objects, rfl⟩
  | null => exact absurd rfl hnull
  | _ => simp [sourcesViolation?] at h

/-- Accepted layers that are not null are an array of objects, each with the fields of a layer. -/
theorem eq_array_of_layersViolation? {value : Json} (hnull : value ≠ .null)
    (h : layersViolation? (some value) = none) :
    ∃ objects : List (List (String × Json)), value = .array (objects.map .object) ∧
      ∀ object ∈ objects, ∀ field ∈ Layer.fields, field.Met object := by
  cases value with
  | array items =>
    rw [layersViolation?_array_eq_none_iff] at h
    have hfrom : ∀ item ∈ items, ∃ members : List (String × Json),
        (∀ field ∈ Layer.fields, field.Met members) ∧ item = .object members := by
      intro item hi
      obtain ⟨members, hitem, hmet⟩ := h item hi
      exact ⟨members, hmet, hitem⟩
    obtain ⟨objects, hmet, rfl⟩ := exists_eq_map hfrom
    exact ⟨objects, rfl, hmet⟩
  | null => exact absurd rfl hnull
  | _ => simp [layersViolation?] at h

/-! ## Documents -/

theorem violation?_eq_none_iff {members : List (String × Json)} :
    violation? members = none ↔
      (∀ field ∈ [Field.optional "name" .text, .optional "glyphs" .text], field.Met members) ∧
      sourcesViolation? (members.lookup "sources") = none ∧
      layersViolation? (members.lookup "layers") = none := by
  simp only [violation?, Option.orElse_eq_orElse, Option.orElse_eq_or, Option.or_eq_none_iff,
    List.findSome?_eq_none_iff, Field.violation?_eq_none_iff]

/-- A strict reading reads what it accepts as a lenient one does. -/
theorem ofJson_strict_object_iff {members : List (String × Json)} {style : Style} :
    ofJson .strict (.object members) = .ok style ↔
      violation? members = none ∧ read members = style := by
  cases h : violation? members with
  | none => simp [ofJson, h]
  | some violation => simp [ofJson, h]

/-- What either reading accepts is an object, and both read the same of it. -/
theorem ofJson_eq_ok {mode : Mode} {value : Json} {style : Style}
    (h : ofJson mode value = .ok style) :
    ∃ members, value = .object members ∧ read members = style := by
  cases value with
  | object members =>
    cases mode with
    | lenient => exact ⟨members, rfl, Except.ok.inj h⟩
    | strict => exact ⟨members, rfl, (ofJson_strict_object_iff.1 h).2⟩
  | _ => simp [ofJson] at h

/-- Only objects are accepted. -/
theorem ofJson_strict_iff {value : Json} {style : Style} :
    ofJson .strict value = .ok style ↔
      ∃ members, value = .object members ∧ violation? members = none ∧ read members = style := by
  cases value with
  | object members => simp [ofJson_strict_object_iff]
  | _ => simp [ofJson]

end Style

end CartoStyle
