import CartoStyle.Proofs.Json.Injective
import CartoStyle.Proofs.Optimize.Account

set_option autoImplicit false

/-! # Which layers are duplicates

Layers are compared by a text, and values with finite floats are told apart by their text. So a layer
is dropped just when an earlier one holds the same members in the same order, the id apart
(`Pass.removeDuplicateLayers_exact`): no two layers are merged that differ in anything else. -/

namespace CartoStyle

/-- An object without its `id` member. -/
def Json.withoutId : Json → Json
  | .object members => .object (Members.erase "id" members)
  | value => value

theorem Json.FiniteFloats.withoutId {value : Json} (h : value.FiniteFloats) :
    value.withoutId.FiniteFloats := by
  cases value with
  | object members => exact h.erase "id"
  | _ => exact h

namespace Layer

theorem signature_eq (l : Layer) : l.signature = l.toJson.withoutId.compact := rfl

/-- The signatures of layers are the same just when the layers are, the id apart. -/
theorem signature_eq_iff {l m : Layer} (hl : l.toJson.FiniteFloats) (hm : m.toJson.FiniteFloats) :
    l.signature = m.signature ↔ l.toJson.withoutId = m.toJson.withoutId := by
  rw [signature_eq, signature_eq]
  exact ⟨Json.compact_injective hl.withoutId hm.withoutId, fun h => by rw [h]⟩

end Layer

namespace Style

variable {mode : Mode} {value : Json} {s : Style}

/-- The layers of a decoded style are those of the document. -/
theorem get?_layers (wf : value.WellFormed) (h : ofJson mode value = .ok s) {layers : List Layer}
    (hlayers : s.layers = some layers) :
    value.get? "layers" = some (.array (layers.map Layer.toJson)) := by
  obtain ⟨members, rfl, rfl⟩ := ofJson_eq_ok h
  obtain ⟨held, hheld, hread⟩ := Option.bind_eq_some_iff.1 hlayers
  have hwf := wf.member (Members.mem_of_lookup hheld)
  show members.lookup "layers" = some (layersToJson layers)
  rw [layersToJson_of_read hwf hread, hheld]

/-- The layers of a document with finite floats have finite floats. -/
theorem finiteFloats_of_mem_layerList (wf : value.WellFormed) (finite : value.FiniteFloats)
    (h : ofJson mode value = .ok s) {l : Layer} (hl : l ∈ s.layerList) : l.toJson.FiniteFloats := by
  cases hlayers : s.layers with
  | none => simp [layerList, hlayers] at hl
  | some layers =>
    have hget := get?_layers wf h hlayers
    obtain ⟨members, rfl, -⟩ := ofJson_eq_ok h
    have hmem : l.toJson ∈ layers.map Layer.toJson := by
      refine List.mem_map_of_mem ?_
      simpa [layerList, hlayers] using hl
    exact (finite.member (Members.mem_of_lookup hget)).item hmem

end Style

namespace Pass

open Style

/-- **Duplicate removal keeps exactly the first of each class.** In a style that either reading makes
    of a document, a layer is kept just when no earlier layer has the same members with the same values
    in the same order, once the `id` is deleted from both. The layers that are kept stand in their
    order, all else is as it was, and the count is the number of layers dropped. The layers in question
    are the very elements of the document's `layers`. -/
theorem removeDuplicateLayers_exact {mode : Style.Mode} {value : Json} {s : Style}
    (wf : value.WellFormed) (finite : value.FiniteFloats) (h : Style.ofJson mode value = .ok s) :
    let after := (removeDuplicateLayers.apply s).1
    let count := (removeDuplicateLayers.apply s).2
    after = { s with layers := s.layers.map (firstsBy fun l => l.toJson.withoutId) } ∧
      after.layerCount + count = s.layerCount ∧
      ∀ layers, s.layers = some layers →
        value.get? "layers" = some (.array (layers.map Layer.toJson)) := by
  intro after count
  refine ⟨?_, layerCount_apply removeDuplicateLayers s, fun layers => get?_layers wf h⟩
  show s.mapLayers (distinctBy Layer.signature []) = s.mapLayers _
  refine mapLayers_congr ?_
  rw [distinctBy_eq_firstsBy]
  refine firstsBy_congr fun l hl m hm => ?_
  exact Layer.signature_eq_iff (finiteFloats_of_mem_layerList wf finite h hm)
    (finiteFloats_of_mem_layerList wf finite h hl)

/-- Layers that are alike but for the place and the type of the id, the order of members, the form of
    a number, and a member that no field takes. -/
def lookalikes : List (String × Json) :=
  let type : String × Json := ("type", .string "fill")
  let minzoom : String × Json := ("minzoom", .number (.integer 1))
  [("layers", .array
    [.object [("id", .string "a"), type, minzoom],
      .object [type, minzoom, ("id", .number (.integer 7))],
      .object [("id", .string "c"), minzoom, type],
      .object [("id", .string "d"), type, ("minzoom", .number (.float 1))],
      .object [("id", .string "e"), type, minzoom, ("ref", .null)]])]

/-- Of the layers that look alike only the one that differs in its id is dropped. -/
theorem removeDuplicateLayers_lookalikes :
    let s := Style.read lookalikes
    (Json.object lookalikes).WellFormed ∧ (Json.object lookalikes).FiniteFloats ∧
      Style.ofJson .lenient (.object lookalikes) = .ok s ∧
      (removeDuplicateLayers.apply s).1.layerList.map (·.id) =
        [some "a", some "c", some "d", some "e"] ∧
      (removeDuplicateLayers.apply s).2 = 1 := by
  intro s
  have wf : (Json.object lookalikes).WellFormed := by
    simp [lookalikes, Json.WellFormed, Json.WellFormedMembers, Json.WellFormedItems, Members.keys,
      Number.InWord]
  have finite : (Json.object lookalikes).FiniteFloats := by decide +kernel
  have hread : Style.ofJson .lenient (.object lookalikes) = .ok s := rfl
  obtain ⟨hafter, hcount, -⟩ := removeDuplicateLayers_exact wf finite hread
  have hkept : (removeDuplicateLayers.apply s).1.layerList.map (·.id) =
      [some "a", some "c", some "d", some "e"] := by
    rw [hafter]
    decide +kernel
  have hleft : (removeDuplicateLayers.apply s).1.layerCount = 4 := by
    rw [layerCount, ← List.length_map (·.id), hkept]
    rfl
  have hall : s.layerCount = 5 := rfl
  rw [hleft, hall] at hcount
  exact ⟨wf, finite, hread, hkept, by omega⟩

end Pass

end CartoStyle
