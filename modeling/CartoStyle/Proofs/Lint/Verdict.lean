import CartoStyle.Proofs.Lint.NoErrors
import CartoStyle.Proofs.Style.Entries
import CartoStyle.Proofs.Style.Strict
import Mathlib.Data.List.Nodup

set_option autoImplicit false

/-! # What makes a style valid

The verdict of a report, read off the document: `Json.Conforms` says what a style must be without
decoding it, and a report is valid just when the document conforms
(`StyleReport.valid_iff_conforms`). A field that is null counts as one that is not there, for the part
of its source that a layer names no less than for sources and layers
(`StyleReport.null_part_is_absent`). -/

namespace CartoStyle

/-! ## Documents that conform -/

namespace Json

/-- Whether a member is there. -/
def HasMember (key : String) (value : Json) : Prop := ∃ v, value.get? key = some v

/-- Whether a member is there and not null. -/
def HasValue (key : String) (value : Json) : Prop := ∃ v, value.get? key = some v ∧ v ≠ .null

/-- The entries of the layers of a style. -/
def layerItems (style : Json) : List Json := ((style.get? "layers").bind asArray?).getD []

/-- The source that a style declares under a name. -/
def declared? (style : Json) (name : String) : Option Json :=
  (style.get? "sources").bind (·.get? name)

/-- Whether a layer or a source is of a type. -/
def IsOf (type : String) (value : Json) : Prop := value.get? "type" = some (.string type)

/-- The values of a layer that must be well-formed expressions: the filter, and the properties that
    are written as arrays. -/
def Writes (layer value : Json) : Prop :=
  layer.get? "filter" = some value ∨
    ∃ block properties key, (block = "layout" ∨ block = "paint") ∧
      layer.get? block = some (.object properties) ∧ (key, value) ∈ properties ∧
      ∃ items, value = .array items

/-- What a layer of a style must be. `named` says which layers name a part of their source. -/
structure LayerConforms (named : Json → Prop) (style layer : Json) : Prop where
  /-- A layer draws from a declared source, unless it is the background. -/
  source : ¬layer.IsOf "background" → ∃ name source,
    layer.get? "source" = some (.string name) ∧ style.declared? name = some source
  /-- It names a part of a tiled source, and no part of a source of one part. -/
  part : ¬layer.IsOf "background" → ∀ name, layer.get? "source" = some (.string name) →
    ∀ source, style.declared? name = some source →
      (source.IsOf "vector" ∨ source.IsOf "raster" → named layer) ∧
      (source.IsOf "geojson" → ¬named layer)
  expressions : ∀ value, layer.Writes value →
    Rule.SoundWithin ({} : Limits).walkDepth (.ofJson value)
  zoom : ∀ least greatest, layer.get? "minzoom" = some (.number least) →
    layer.get? "maxzoom" = some (.number greatest) → ¬greatest.toFloat < least.toFloat

/-- What a document must be to be a valid style. -/
structure Conforms (named : Json → Prop) (style : Json) : Prop where
  decodable : ∃ s, Style.ofJson .strict style = .ok s
  version : ∃ n, style.get? "version" = some (.number n) ∧ n.toFloat == 8
  sources : style.HasValue "sources"
  layers : style.HasValue "layers"
  ids : (style.layerItems.map (·.get? "id")).Nodup
  layer : ∀ layer ∈ style.layerItems, LayerConforms named style layer

end Json

/-! ## Sources and layers of the decoded style -/

namespace Source

variable {members : List (String × Json)}

theorem kind_read_eq_iff {kind : SourceKind} (h : kind ∈ SourceKind.known) :
    (Source.read members).kind = some kind ↔ (Json.object members).IsOf kind.text := by
  simp only [read, Option.map_eq_some_iff, Shape.get?_text_eq_some_iff, SourceKind.ofText_eq_iff h]
  simp [Json.IsOf, Json.get?]

theorem requiresSourceLayer_read_iff :
    (Source.read members).requiresSourceLayer ↔
      (Json.object members).IsOf "vector" ∨ (Json.object members).IsOf "raster" := by
  have hvector : (Source.read members).kind = some .vector ↔ (Json.object members).IsOf "vector" :=
    kind_read_eq_iff (by decide)
  have hraster : (Source.read members).kind = some .raster ↔ (Json.object members).IsOf "raster" :=
    kind_read_eq_iff (by decide)
  rw [← hvector, ← hraster, requiresSourceLayer]
  cases (Source.read members).kind with
  | none => simp
  | some kind => cases kind <;> simp [SourceKind.requiresSourceLayer]

theorem forbidsSourceLayer_read_iff :
    (Source.read members).forbidsSourceLayer ↔ (Json.object members).IsOf "geojson" := by
  have hgeojson :
      (Source.read members).kind = some .geojson ↔ (Json.object members).IsOf "geojson" :=
    kind_read_eq_iff (by decide)
  rw [← hgeojson, forbidsSourceLayer]
  cases (Source.read members).kind with
  | none => simp
  | some kind => cases kind <;> simp [SourceKind.forbidsSourceLayer]

end Source

namespace Layer

variable {members : List (String × Json)}

theorem isBackground_read_iff :
    (Layer.read members).isBackground ↔ (Json.object members).IsOf "background" := by
  have hkind : ∀ name, LayerKind.ofText name = .background ↔ name = "background" :=
    fun name => LayerKind.ofText_eq_iff (by decide)
  rw [isBackground, beq_iff_eq]
  simp only [read, Option.map_eq_some_iff, Shape.get?_text_eq_some_iff, hkind]
  simp [Json.IsOf, Json.get?]

variable {limit : Nat}

/-- A null filter is no filter, and nothing is wrong with null. -/
theorem forall_filter_read_iff :
    (∀ e, (Layer.read members).filter = some e → Rule.SoundWithin limit e) ↔
      ∀ value, members.lookup "filter" = some value →
        Rule.SoundWithin limit (.ofJson value) := by
  constructor
  · intro h value hv
    cases hnull : value.isNull with
    | false => exact h _ (Shape.get?_expression_eq_some_iff.2 ⟨value, hv, hnull, rfl⟩)
    | true =>
      obtain rfl : value = .null := by cases value <;> simp_all [Json.isNull]
      exact Rule.soundWithin_of_not_array rfl
  · intro h e he
    obtain ⟨value, hv, -, rfl⟩ := Shape.get?_expression_eq_some_iff.1 he
    exact h value hv

/-- A property that is not written as an array holds no array to be sound. -/
theorem forall_block_read_iff {key : String} :
    (∀ entry ∈ (Shape.block.get? key members).getD [], Rule.SoundWithin limit entry.2) ↔
      ∀ properties property value, members.lookup key = some (.object properties) →
        (property, value) ∈ properties → (∃ items, value = .array items) →
          Rule.SoundWithin limit (.ofJson value) := by
  constructor
  · intro h properties property value hv hm _
    rw [Shape.get?_block_eq_some_iff.2 ⟨properties, hv, rfl⟩] at h
    exact h _ (List.mem_map.2 ⟨(property, value), hm, rfl⟩)
  · rintro h ⟨property, e⟩ hm
    cases hb : Shape.block.get? key members with
    | none => simp [hb] at hm
    | some b =>
      obtain ⟨properties, hv, rfl⟩ := Shape.get?_block_eq_some_iff.1 hb
      rw [hb] at hm
      obtain ⟨⟨property', value⟩, hm', heq⟩ := List.mem_map.1 hm
      obtain ⟨rfl, rfl⟩ := Prod.mk.inj heq
      cases value with
      | array items => exact h properties _ _ hv hm' ⟨items, rfl⟩
      | _ => exact Rule.soundWithin_of_not_array rfl

/-- The expressions of a layer are sound when those are that must be. -/
theorem forall_expressions_read_iff :
    (∀ entry ∈ (Layer.read members).expressions, Rule.SoundWithin limit entry.2) ↔
      ∀ value, (Json.object members).Writes value → Rule.SoundWithin limit (.ofJson value) := by
  rw [forall_expressions_iff, forall_filter_read_iff]
  show _ ∧ (∀ entry ∈ (Shape.block.get? "layout" members).getD [], _) ∧
    (∀ entry ∈ (Shape.block.get? "paint" members).getD [], _) ↔ _
  rw [forall_block_read_iff, forall_block_read_iff]
  constructor
  · rintro ⟨hfilter, hlayout, hpaint⟩ value
      (h | ⟨_, properties, property, rfl | rfl, hv, hm, harray⟩)
    · exact hfilter value h
    · exact hlayout properties property value hv hm harray
    · exact hpaint properties property value hv hm harray
  · intro h
    refine ⟨fun value hv => h value (Or.inl hv), ?_, ?_⟩
    · intro properties property value hv hm harray
      exact h value (Or.inr ⟨"layout", properties, property, Or.inl rfl, hv, hm, harray⟩)
    · intro properties property value hv hm harray
      exact h value (Or.inr ⟨"paint", properties, property, Or.inr rfl, hv, hm, harray⟩)

/-- Of a layer that a strict reading accepts, a part is named when the field is there and not
    null. -/
theorem isSome_sourceLayer_read_iff (hmet : ∀ field ∈ fields, field.Met members) :
    (Layer.read members).sourceLayer.isSome ↔ (Json.object members).HasValue "source-layer" := by
  have hfield := hmet (.optional "source-layer" .text) (by simp [fields])
  unfold Field.Met Field.optional at hfield
  show (Shape.text.get? "source-layer" members).isSome ↔
    ∃ v, members.lookup "source-layer" = some v ∧ v ≠ .null
  unfold Shape.get?
  cases hv : members.lookup "source-layer" with
  | none => simp
  | some value => cases value <;> simp_all [Shape.Fits, Shape.text, Json.asString?, Json.isNull]

/-- A layer that a strict reading accepts has its id. -/
theorem lookup_id_of_met (hmet : ∀ field ∈ fields, field.Met members) :
    members.lookup "id" = some (.string (Layer.read members).name) := by
  have hfield := hmet (.mandatory "id" .text) (by simp [fields])
  obtain ⟨id, hid⟩ := Option.isSome_iff_exists.1 (Field.met_mandatory_iff.1 hfield)
  have hname : (Layer.read members).name = id := by
    show ((Shape.text.get? "id" members).getD "") = id
    rw [hid]
    rfl
  rw [hname]
  exact Shape.get?_text_eq_some_iff.1 hid

end Layer

/-! ## Styles that a strict reading accepts -/

section Accepted

variable {members : List (String × Json)} {entries : List (String × List (String × Json))}
  {objects : List (List (String × Json))}
  (hsources : members.lookup "sources" =
    some (.object (Members.mapValues (fun _ object => .object object) entries)))
  (hlayers : members.lookup "layers" = some (.array (objects.map .object)))
  (hmet : ∀ object ∈ objects, ∀ field ∈ Layer.fields, field.Met object)

include hlayers in
theorem layerItems_eq : (Json.object members).layerItems = objects.map .object := by
  show ((members.lookup "layers").bind Json.asArray?).getD [] = _
  rw [hlayers]
  rfl

include hsources in
theorem declared?_eq (name : String) :
    (Json.object members).declared? name = (entries.lookup name).map .object := by
  show (members.lookup "sources").bind (·.get? name) = _
  rw [hsources]
  exact Members.lookup_mapValues _ entries name

/-! ### Rules on each layer -/

variable {object : List (String × Json)}

theorem Layer.isBackground_read_eq_false_iff :
    (Layer.read object).isBackground = false ↔ ¬(Json.object object).IsOf "background" := by
  rw [← isBackground_read_iff, Bool.not_eq_true]

theorem Layer.source_read_eq_some_iff {name : String} :
    (Layer.read object).source = some name ↔
      (Json.object object).get? "source" = some (.string name) :=
  Shape.get?_text_eq_some_iff

include hsources in
theorem referenceErrors_read_iff :
    Rule.referenceErrors (Style.read members) (Layer.read object) = 0 ↔
      (¬(Json.object object).IsOf "background" → ∃ name source,
        (Json.object object).get? "source" = some (.string name) ∧
          (Json.object members).declared? name = some source) := by
  rw [Rule.referenceErrors_eq_zero_iff, Layer.isBackground_read_eq_false_iff]
  simp [Layer.source_read_eq_some_iff, Style.source?_read hsources, declared?_eq hsources]

include hsources in
theorem partErrors_read_iff (hobject : ∀ field ∈ Layer.fields, field.Met object) :
    Rule.partErrors (Style.read members) (Layer.read object) = 0 ↔
      (¬(Json.object object).IsOf "background" → ∀ name,
        (Json.object object).get? "source" = some (.string name) → ∀ source,
        (Json.object members).declared? name = some source →
          (source.IsOf "vector" ∨ source.IsOf "raster" →
            (Json.object object).HasValue "source-layer") ∧
          (source.IsOf "geojson" → ¬(Json.object object).HasValue "source-layer")) := by
  rw [Rule.partErrors_eq_zero_iff, Layer.isBackground_read_eq_false_iff,
    ← Layer.isSome_sourceLayer_read_iff hobject]
  simp only [Layer.source_read_eq_some_iff, Style.source?_read hsources, declared?_eq hsources,
    Option.map_eq_some_iff, forall_exists_index, and_imp, forall_apply_eq_imp_iff₂,
    Source.requiresSourceLayer_read_iff, Source.forbidsSourceLayer_read_iff]

theorem zoomErrors_read_iff :
    Rule.zoomErrors (Layer.read object) = 0 ↔ ∀ least greatest,
      (Json.object object).get? "minzoom" = some (.number least) →
      (Json.object object).get? "maxzoom" = some (.number greatest) →
        ¬greatest.toFloat < least.toFloat := by
  have hleast : ∀ n, (Layer.read object).minzoom = some n ↔
      (Json.object object).get? "minzoom" = some (.number n) :=
    fun n => Shape.get?_number_eq_some_iff
  have hgreatest : ∀ n, (Layer.read object).maxzoom = some n ↔
      (Json.object object).get? "maxzoom" = some (.number n) :=
    fun n => Shape.get?_number_eq_some_iff
  rw [Rule.zoomErrors_eq_zero_iff]
  simp only [hleast, hgreatest]

include hsources in
/-- A layer reports no errors when it conforms. -/
theorem layerConforms_iff (hobject : ∀ field ∈ Layer.fields, field.Met object) :
    Json.LayerConforms (Json.HasValue "source-layer") (.object members) (.object object) ↔
      Rule.referenceErrors (Style.read members) (Layer.read object) = 0 ∧
      Rule.partErrors (Style.read members) (Layer.read object) = 0 ∧
      Rule.expressionErrors {} (Layer.read object) = 0 ∧
      Rule.zoomErrors (Layer.read object) = 0 := by
  rw [referenceErrors_read_iff hsources, partErrors_read_iff hsources hobject,
    Rule.expressionErrors_eq_zero_iff, Layer.forall_expressions_read_iff, zoomErrors_read_iff]
  constructor
  · intro h
    exact ⟨h.source, h.part, h.expressions, h.zoom⟩
  · rintro ⟨source, part, expressions, zoom⟩
    exact ⟨source, part, expressions, zoom⟩

/-! ### Rules on the document -/

theorem errorCount_checkVersion_read_iff :
    errorCount (Rule.checkVersion (Style.read members)) = 0 ↔
      ∃ n, (Json.object members).get? "version" = some (.number n) ∧ n.toFloat == 8 := by
  have hversion : (Style.read members).version = (Json.object members).get? "version" := by
    show (members.lookup "version").bind some = members.lookup "version"
    cases members.lookup "version" <;> rfl
  rw [Rule.errorCount_checkVersion_eq_zero_iff, hversion]
  constructor
  · rintro ⟨v, hv, hformat⟩
    cases v with
    | number n => exact ⟨n, hv, hformat⟩
    | _ => simp [Rule.isFormatVersion, Json.asFloat?] at hformat
  · rintro ⟨n, hv, hformat⟩
    exact ⟨.number n, hv, hformat⟩

include hlayers hmet in
theorem errorCount_checkDuplicateLayerId_read_iff :
    errorCount (Rule.checkDuplicateLayerId (Style.read members)) = 0 ↔
      ((Json.object members).layerItems.map (·.get? "id")).Nodup := by
  have hids : (objects.map .object).map (Json.get? "id") =
      (objects.map fun object => (Layer.read object).name).map fun name => some (.string name) := by
    rw [List.map_map, List.map_map]
    exact List.map_congr_left fun object ho => Layer.lookup_id_of_met (hmet object ho)
  have hinjective : Function.Injective fun name : String => some (Json.string name) := by
    intro name name' h
    exact Json.string.inj (Option.some.inj h)
  rw [Rule.errorCount_checkDuplicateLayerId_eq_zero_iff, Style.layerList_read hlayers,
    layerItems_eq hlayers, hids, List.nodup_map_iff hinjective, List.map_map]
  exact Iff.rfl

include hlayers in
/-- A rule on each layer finds no error when none of the layers costs one. -/
theorem errorCount_layers_read_iff {found : List Diagnostic} {cost : Layer → Nat}
    (h : errorCount found = ((Style.read members).layerList.map cost).sum) :
    errorCount found = 0 ↔ ∀ object ∈ objects, cost (Layer.read object) = 0 := by
  rw [h, Style.layerList_read hlayers, Rule.sum_map_eq_zero_iff, List.forall_mem_map]

include hsources hlayers in
theorem errorCount_checkRequiredFields_read :
    errorCount (Rule.checkRequiredFields (Style.read members)) = 0 := by
  rw [Rule.errorCount_checkRequiredFields_eq_zero_iff]
  have hsome : (Shape.sources.get? "sources" members).isSome ∧
      (Shape.layers.get? "layers" members).isSome := by
    rw [Shape.get?, Shape.get?, hsources, hlayers]
    exact ⟨Option.isSome_of_eq_some (Shape.read_sources_iff.2 ⟨entries, rfl, rfl⟩),
      Option.isSome_of_eq_some (Shape.read_layers_iff.2 ⟨objects, rfl, rfl⟩)⟩
  exact hsome

include hsources hlayers hmet in
/-- No rule finds an error when the version is right, no id is repeated and every layer conforms. -/
theorem errorCount_check_read_iff :
    (∀ rule : Rule, errorCount (rule.check {} (Style.read members)) = 0) ↔
      (∃ n, (Json.object members).get? "version" = some (.number n) ∧ n.toFloat == 8) ∧
      ((Json.object members).layerItems.map (·.get? "id")).Nodup ∧
      ∀ layer ∈ (Json.object members).layerItems,
        Json.LayerConforms (Json.HasValue "source-layer") (.object members) layer := by
  rw [← errorCount_checkVersion_read_iff, ← errorCount_checkDuplicateLayerId_read_iff hlayers hmet,
    layerItems_eq hlayers, List.forall_mem_map]
  have hreference := errorCount_layers_read_iff hlayers
    (Rule.errorCount_checkSourceReference (Style.read members))
  have hpart := errorCount_layers_read_iff hlayers
    (Rule.errorCount_checkSourceLayer (Style.read members))
  have hexpressions := errorCount_layers_read_iff hlayers
    (Rule.errorCount_checkLayerExpressions {} (Style.read members))
  have hzoom := errorCount_layers_read_iff hlayers
    (Rule.errorCount_checkZoomRange (Style.read members))
  constructor
  · intro h
    refine ⟨h .version, h .duplicateLayerId, fun object ho => ?_⟩
    rw [layerConforms_iff hsources (hmet object ho)]
    exact ⟨hreference.1 (h .sourceReference) object ho, hpart.1 (h .sourceLayer) object ho,
      hexpressions.1 (h .layerExpressions) object ho, hzoom.1 (h .zoomRange) object ho⟩
  · rintro ⟨hversion, hids, hconforms⟩ rule
    have herrors := fun object ho =>
      (layerConforms_iff hsources (hmet object ho)).1 (hconforms object ho)
    cases rule with
    | version => exact hversion
    | requiredFields => exact errorCount_checkRequiredFields_read hsources hlayers
    | duplicateLayerId => exact hids
    | sourceReference => exact hreference.2 fun object ho => (herrors object ho).1
    | sourceLayer => exact hpart.2 fun object ho => (herrors object ho).2.1
    | layerExpressions => exact hexpressions.2 fun object ho => (herrors object ho).2.2.1
    | zoomRange => exact hzoom.2 fun object ho => (herrors object ho).2.2.2
    | emptyLayer => exact Rule.errorCount_checkEmptyLayer _
    | layerType => exact Rule.errorCount_checkLayerType _

end Accepted

/-- A document that a strict reading accepts conforms when no rule finds an error in it. -/
theorem conforms_iff {members : List (String × Json)} (hok : Style.violation? members = none) :
    Json.Conforms (Json.HasValue "source-layer") (.object members) ↔
      ∀ rule : Rule, errorCount (rule.check {} (Style.read members)) = 0 := by
  have ⟨_, hsourcesOk, hlayersOk⟩ := Style.violation?_eq_none_iff.1 hok
  constructor
  · intro h
    obtain ⟨sources, hsources, hsourcesNull⟩ : ∃ v, members.lookup "sources" = some v ∧ v ≠ .null :=
      h.sources
    obtain ⟨layers, hlayers, hlayersNull⟩ : ∃ v, members.lookup "layers" = some v ∧ v ≠ .null :=
      h.layers
    rw [hsources] at hsourcesOk
    rw [hlayers] at hlayersOk
    obtain ⟨entries, rfl⟩ := Style.eq_object_of_sourcesViolation? hsourcesNull hsourcesOk
    obtain ⟨objects, rfl, hmet⟩ := Style.eq_array_of_layersViolation? hlayersNull hlayersOk
    exact (errorCount_check_read_iff hsources hlayers hmet).2 ⟨h.version, h.ids, h.layer⟩
  · intro h
    obtain ⟨hsourcesSome, hlayersSome⟩ : (Shape.sources.get? "sources" members).isSome ∧
        (Shape.layers.get? "layers" members).isSome :=
      Rule.errorCount_checkRequiredFields_eq_zero_iff.1 (h .requiredFields)
    obtain ⟨_, hread⟩ := Option.isSome_iff_exists.1 hsourcesSome
    obtain ⟨sources, hsources, hread⟩ := Option.bind_eq_some_iff.1 hread
    obtain ⟨entries, rfl, -⟩ := Shape.read_sources_iff.1 hread
    obtain ⟨_, hread⟩ := Option.isSome_iff_exists.1 hlayersSome
    obtain ⟨layers, hlayers, hread⟩ := Option.bind_eq_some_iff.1 hread
    obtain ⟨objects, rfl, -⟩ := Shape.read_layers_iff.1 hread
    rw [hlayers, Style.layersViolation?_array_eq_none_iff, List.forall_mem_map] at hlayersOk
    have hmet : ∀ object ∈ objects, ∀ field ∈ Layer.fields, field.Met object := by
      intro object ho
      obtain ⟨_, heq, hmet⟩ := hlayersOk object ho
      obtain rfl := Json.object.inj heq
      exact hmet
    obtain ⟨version, ids, layer⟩ := (errorCount_check_read_iff hsources hlayers hmet).1 h
    exact
      { decodable := ⟨_, Style.ofJson_strict_object_iff.2 ⟨hok, rfl⟩⟩
        version := version
        sources := ⟨_, hsources, Json.noConfusion⟩
        layers := ⟨_, hlayers, Json.noConfusion⟩
        ids := ids
        layer := layer }

/-! ## The verdict -/

namespace StyleReport

/-- **A style is valid when it conforms,** unless the cap stopped the run: it can be decoded, has the
    version of the format, its sources and its layers, and no two layers of one id; and every layer
    draws from a declared source of which it names a part as the type of the source has it, holds only
    well-formed expressions and has its zoom bounds in order. -/
theorem valid_iff_conforms {value : Json}
    (complete : ∀ d ∈ (ofDocument {} (.value value)).findings.warnings,
      d.code ≠ .custom "diagnostic-limit-exceeded") :
    (ofDocument {} (.value value)).findings.valid ↔
      Json.Conforms (Json.HasValue "source-layer") value := by
  refine (valid_iff complete).trans ?_
  constructor
  · rintro ⟨s, hs, h⟩
    obtain ⟨members, rfl, hok, rfl⟩ := Style.ofJson_strict_iff.1 hs
    exact (conforms_iff hok).2 h
  · intro h
    obtain ⟨s, hs⟩ := h.decodable
    obtain ⟨members, rfl, hok, rfl⟩ := Style.ofJson_strict_iff.1 hs
    exact ⟨_, hs, (conforms_iff hok).1 h⟩

/-- Roads that are drawn from one part of a tiled source. -/
def roads (part : Json) : Json :=
  .object
    [("version", .ofNat 8),
      ("sources", .object [("tiles", .object [("type", .string "vector")])]),
      ("layers", .array
        [.object
          [("id", .string "roads"), ("type", .string "line"), ("source", .string "tiles"),
            ("source-layer", part), ("filter", .array [.string "has", .string "class"]),
            ("paint", .object [("line-color", .string "#000")])]])]

theorem conforms_roads :
    (∀ d ∈ (ofDocument {} (.value (roads (.string "road")))).findings.warnings,
      d.code ≠ .custom "diagnostic-limit-exceeded") ∧
    Json.Conforms (Json.HasValue "source-layer") (roads (.string "road")) := by
  have complete : ∀ d ∈ (ofDocument {} (.value (roads (.string "road")))).findings.warnings,
      d.code ≠ .custom "diagnostic-limit-exceeded" := by decide +kernel
  exact ⟨complete, (valid_iff_conforms complete).1 (by decide +kernel)⟩

/-- A part that is null is no part: the field is there, and still the style is not valid. -/
theorem null_part_is_absent :
    (∀ d ∈ (ofDocument {} (.value (roads .null))).findings.warnings,
      d.code ≠ .custom "diagnostic-limit-exceeded") ∧
    Json.Conforms (Json.HasMember "source-layer") (roads .null) ∧
    (ofDocument {} (.value (roads .null))).findings.valid = false := by
  refine ⟨by decide +kernel, ?_, by decide +kernel⟩
  refine
    { decodable := ⟨_, Style.ofJson_strict_object_iff.2 ⟨by decide +kernel, rfl⟩⟩
      version := ⟨.integer 8, rfl, by decide +kernel⟩
      sources := ⟨_, rfl, Json.noConfusion⟩
      layers := ⟨_, rfl, Json.noConfusion⟩
      ids := List.nodup_singleton _
      layer := ?_ }
  intro layer hl
  obtain rfl := List.mem_singleton.1 hl
  refine
    { source := fun _ => ⟨"tiles", _, rfl, rfl⟩
      part := ?_
      expressions := ?_
      zoom := nofun }
  · intro _ name hname source hsource
    obtain rfl : "tiles" = name := Json.string.inj (Option.some.inj hname)
    obtain rfl := Option.some.inj hsource
    exact ⟨fun _ => ⟨.null, rfl⟩, fun h => absurd h (by simp [Json.IsOf, Json.get?])⟩
  · rintro value (hfilter | ⟨_, properties, key, rfl | rfl, hblock, hm, items, rfl⟩)
    · obtain rfl := Option.some.inj hfilter
      rw [Rule.SoundWithin, ← Expression.faults_walk_eq_nil_iff]
      decide +kernel
    · cases hblock
    · obtain rfl := Json.object.inj (Option.some.inj hblock)
      simp at hm

end StyleReport

end CartoStyle
