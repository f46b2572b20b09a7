import CartoStyle.Proofs.Optimize.Trim

set_option autoImplicit false

/-! # What optimization leaves alone

The bound on an optimized document, stated on JSON values. The document keeps its members and their
order, and no member but `sources` and `layers` changes (`Json.DocumentMemberFrame`). Sources only
go, layers only go or are folded, and folding reaches nothing but the filter of a layer and the
arrays among its properties. A container that cannot be decoded is kept as it is. -/

namespace CartoStyle

/-! ## The frame -/

namespace Json

/-- Two objects with the same keys in the same order, whose values are related key by key. -/
def MembersRelated (related : String → Json → Json → Prop)
    (before after : List (String × Json)) : Prop :=
  List.Forall₂ (fun m n => n.1 = m.1 ∧ related m.1 m.2 n.2) before after

/-- A property stays as it is, or is an array and folded. -/
def PropertyFrame (before after : Json) : Prop :=
  after = before ∨ (∃ items, before = .array items) ∧ after = before.folded

/-- A block of properties, of which only values change. -/
def BlockFrame (before after : Json) : Prop :=
  ∃ properties properties', before = .object properties ∧ after = .object properties' ∧
    MembersRelated (fun _ => PropertyFrame) properties properties'

/-- A member of a layer stays as it is, or is the filter and folded, or is a block. -/
def LayerMemberFrame (key : String) (before after : Json) : Prop :=
  after = before ∨
    (key = "filter" ∧ before ≠ .null ∧ after = before.folded) ∨
    ((key = "layout" ∨ key = "paint") ∧ BlockFrame before after)

/-- A layer, of which only expressions change. -/
def LayerFrame (before after : Json) : Prop :=
  ∃ members members', before = .object members ∧ after = .object members' ∧
    MembersRelated LayerMemberFrame members members'

/-- An object of objects. -/
def IsSources (value : Json) : Prop :=
  ∃ entries, value = .object entries ∧ ∀ entry ∈ entries, entry.2.isObject

/-- An array of objects. -/
def IsLayers (value : Json) : Prop :=
  ∃ items, value = .array items ∧ ∀ item ∈ items, item.isObject

/-- Of sources that can be decoded some may go; anything else stays as it is. -/
def SourcesFrame (before after : Json) : Prop :=
  (IsSources before → ∃ entries kept, before = .object entries ∧ after = .object kept ∧
    kept.Sublist entries) ∧
  (¬IsSources before → after = before)

/-- Of layers that can be decoded some may go, and those that stay may be folded; anything else
    stays as it is. -/
def LayersFrame (before after : Json) : Prop :=
  (IsLayers before → ∃ items kept items', before = .array items ∧ after = .array items' ∧
    kept.Sublist items ∧ List.Forall₂ LayerFrame kept items') ∧
  (¬IsLayers before → after = before)

/-- Only sources and layers of a document change. -/
def DocumentMemberFrame (key : String) (before after : Json) : Prop :=
  (key = "sources" → SourcesFrame before after) ∧
  (key = "layers" → LayersFrame before after) ∧
  (key ≠ "sources" → key ≠ "layers" → after = before)

/-! ## Folding and the frame -/

/-- Changing values key by key relates the members. -/
theorem membersRelated_mapValues {related : String → Json → Json → Prop}
    {change : String → Json → Json} {members : List (String × Json)}
    (h : ∀ key value, (key, value) ∈ members → related key value (change key value)) :
    MembersRelated related members (Members.mapValues change members) := by
  rw [MembersRelated, Members.mapValues, List.forall₂_map_right_iff, List.forall₂_same]
  rintro ⟨key, value⟩ hm
  exact ⟨rfl, h key value hm⟩

theorem propertyFrame_folded (value : Json) : PropertyFrame value value.folded := by
  cases value with
  | array items => exact Or.inr ⟨⟨items, rfl⟩, rfl⟩
  | _ => exact Or.inl rfl

end Json

namespace Layer

theorem blockFrame_rewriteBlock (value : Json) :
    rewriteBlock (fun _ e => e.simplify) value = value ∨
      Json.BlockFrame value (rewriteBlock (fun _ e => e.simplify) value) := by
  cases value with
  | object properties =>
    right
    exact ⟨properties, _, rfl, rfl,
      Json.membersRelated_mapValues fun _ value _ => Json.propertyFrame_folded value⟩
  | _ => exact Or.inl rfl

theorem layerMemberFrame_foldMember (key : String) (value : Json) :
    Json.LayerMemberFrame key value (foldMember key value) := by
  refine rewriteMember_cases
    (motive := fun key change => Json.LayerMemberFrame key value (change value)) ?_ ?_ ?_ ?_ key
  · cases value with
    | null => exact Or.inl rfl
    | _ => exact Or.inr (Or.inl ⟨rfl, by simp, rfl⟩)
  · exact (blockFrame_rewriteBlock value).imp_right fun h => Or.inr ⟨Or.inl rfl, h⟩
  · exact (blockFrame_rewriteBlock value).imp_right fun h => Or.inr ⟨Or.inr rfl, h⟩
  · intro _ _ _ _
    exact Or.inl rfl

/-- A layer that stays, folded or not, keeps its frame. -/
theorem layerFrame_toJson {members : List (String × Json)} (nodup : (Members.keys members).Nodup)
    (change : LayerChange) :
    Json.LayerFrame (.object members) (change.apply (Layer.read members)).toJson := by
  cases change with
  | keep =>
    refine ⟨members, members, rfl, toJson_read nodup, ?_⟩
    exact List.forall₂_same.2 fun _ _ => ⟨rfl, Or.inl rfl⟩
  | fold =>
    refine ⟨members, _, rfl, toJson_folded nodup, ?_⟩
    exact Json.membersRelated_mapValues fun key value _ => layerMemberFrame_foldMember key value

end Layer

/-! ## The containers of a document -/

namespace Style

theorem isSome_read_sources {value : Json} (h : value.IsSources) :
    (Shape.sources.read value).isSome := by
  obtain ⟨entries, rfl, hobjects⟩ := h
  obtain ⟨objects, rfl⟩ := exists_eq_map_object_entries hobjects
  rw [Option.isSome_iff_exists]
  exact ⟨_, Shape.read_sources_iff.2 ⟨objects, rfl, rfl⟩⟩

theorem isSome_read_layers {value : Json} (h : value.IsLayers) :
    (Shape.layers.read value).isSome := by
  obtain ⟨items, rfl, hobjects⟩ := h
  obtain ⟨objects, rfl⟩ := exists_eq_map_object hobjects
  rw [Option.isSome_iff_exists]
  exact ⟨_, Shape.read_layers_iff.2 ⟨objects, rfl, rfl⟩⟩

section

variable {members : List (String × Json)} {s : Style} (h : (Style.read members).Trims s)
  (wf : (Json.object members).WellFormed)

include h wf

theorem sourcesFrame_replaceMember {value : Json} (hm : ("sources", value) ∈ members) :
    Json.SourcesFrame value (replaceMember s.sources s.layers "sources" value) := by
  obtain ⟨keep, hkeep, -⟩ := h.sources
  have hread : (Style.read members).sources = Shape.sources.read value :=
    Shape.get?_of_mem wf.keys_nodup hm
  rw [replaceMember_sources, hkeep, hread]
  cases hvalue : Shape.sources.read value with
  | none =>
    refine ⟨fun hsources => ?_, fun _ => rfl⟩
    simpa [hvalue] using isSome_read_sources hsources
  | some list =>
    -- Sources that stay are encoded as they were written, as none of them repeats a key.
    obtain ⟨entries, rfl, hobjects, hkept⟩ :=
      sourcesToJson_filter (wf.member hm) hvalue keep
    exact ⟨fun _ => ⟨entries, _, rfl, hkept, List.filter_sublist⟩,
      fun hnot => absurd ⟨entries, rfl, hobjects⟩ hnot⟩

theorem layersFrame_replaceMember {value : Json} (hm : ("layers", value) ∈ members) :
    Json.LayersFrame value (replaceMember s.sources s.layers "layers" value) := by
  obtain ⟨kept, change, hkept, hlayers⟩ := h.layers
  have hread : (Style.read members).layers = Shape.layers.read value :=
    Shape.get?_of_mem wf.keys_nodup hm
  rw [replaceMember_layers, hlayers, hread]
  cases hvalue : Shape.layers.read value with
  | none =>
    refine ⟨fun hitems => ?_, fun _ => rfl⟩
    simpa [hvalue] using isSome_read_layers hitems
  | some list =>
    obtain ⟨objects, rfl, rfl⟩ := Shape.read_layers_iff.1 hvalue
    rw [layerList, hread, hvalue] at hkept
    obtain ⟨objects', hsub, rfl⟩ := List.sublist_map_iff.1 hkept
    have hnodup : ∀ object ∈ objects', (Members.keys object).Nodup := by
      intro object ho
      have hobject : (Json.object object).WellFormed :=
        (wf.member hm).item (List.mem_map.2 ⟨object, hsub.subset ho, rfl⟩)
      exact hobject.keys_nodup
    refine ⟨fun _ => ⟨_, objects'.map .object, _, rfl, rfl, hsub.map _, ?_⟩,
      fun hnot => absurd ⟨_, rfl, ?_⟩ hnot⟩
    · rw [List.map_map, List.map_map, List.forall₂_map_left_iff, List.forall₂_map_right_iff,
        List.forall₂_same]
      intro object ho
      exact Layer.layerFrame_toJson (hnodup object ho) change
    · intro item hi
      obtain ⟨object, -, rfl⟩ := List.mem_map.1 hi
      rfl

theorem documentFrame :
    Json.MembersRelated Json.DocumentMemberFrame members
      (Members.mapValues (replaceMember s.sources s.layers) members) := by
  apply Json.membersRelated_mapValues
  intro key value hm
  refine ⟨?_, ?_, ?_⟩
  · rintro rfl
    exact sourcesFrame_replaceMember h wf hm
  · rintro rfl
    exact layersFrame_replaceMember h wf hm
  · intro hsources hlayers
    exact replaceMember_of_ne hsources hlayers value

end

end Style

/-! ## The document -/

namespace Optimization

/-- **Optimization changes sources and layers only, and of these only what passes may change.** The
    optimized document has the members of the document in the same order. -/
theorem document_frame (passes : List Pass) {members : List (String × Json)}
    (wf : (Json.object members).WellFormed) :
    ∃ members', (ofJson passes (.object members)).style = .object members' ∧
      Json.MembersRelated Json.DocumentMemberFrame members members' := by
  have h := trims_runPasses passes (Style.read members)
  exact ⟨_, h.toJson_eq wf, Style.documentFrame h wf⟩

/-- A document with a source to drop and a filter to fold keeps its frame. -/
theorem document_frame_folding :
    let members : List (String × Json) :=
      [("sources", .object [("a", .object [])]), ("version", .null),
        ("layers", .array [.object [("filter", .array [.string "!", .bool true])]])]
    (Json.object members).WellFormed ∧
      ∃ members', (ofJson Pass.all (.object members)).style = .object members' ∧
        Json.MembersRelated Json.DocumentMemberFrame members members' := by
  intro members
  have wf : (Json.object members).WellFormed := by
    simp [members, Json.WellFormed, Json.WellFormedMembers, Json.WellFormedItems, Members.keys]
  exact ⟨wf, document_frame Pass.all wf⟩

end Optimization

end CartoStyle
