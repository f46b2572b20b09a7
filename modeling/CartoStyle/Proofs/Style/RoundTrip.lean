import CartoStyle.Proofs.Style.Entries
import CartoStyle.Proofs.Style.Strict

set_option autoImplicit false

/-! # Decoding and encoding a style

A style that was decoded from an object, with its sources and layers replaced, is encoded as that
object with just the values of `sources` and `layers` replaced (`Style.toJson_replace`), and is read
back as it is (`Style.read_replace`). A container that could not be decoded stays what it was. With
nothing replaced, what comes out is what went in (`Style.toJson_read`). -/

namespace CartoStyle

variable {members : List (String × Json)}

namespace Style

/-! ## Containers of decoded entries -/

theorem sourcesToJson_read {entries : List (String × List (String × Json))}
    (h : ∀ entry ∈ entries, (Members.keys entry.2).Nodup) :
    sourcesToJson (entries.map fun (key, members) => (key, Source.read members)) =
      .object (entries.map fun (key, members) => (key, .object members)) := by
  rw [sourcesToJson, List.map_map, Json.object.injEq]
  apply List.map_congr_left
  rintro ⟨key, members⟩ hm
  exact Prod.ext rfl (Source.toJson_read (h _ hm))

theorem layersToJson_read {objects : List (List (String × Json))}
    (h : ∀ members ∈ objects, (Members.keys members).Nodup) :
    layersToJson (objects.map Layer.read) = .array (objects.map .object) := by
  rw [layersToJson, List.map_map, Json.array.injEq]
  apply List.map_congr_left
  intro members hm
  exact Layer.toJson_read (h members hm)

theorem read_sourcesToJson {list : List (String × Source)}
    (h : ∀ key source, (key, source) ∈ list → source.Decoded) :
    Shape.sources.read (sourcesToJson list) = some list := by
  have hfrom : ∀ entry ∈ list, ∃ object : String × List (String × Json),
      (Members.keys object.2).Nodup ∧ entry = (object.1, Source.read object.2) := by
    rintro ⟨key, source⟩ hm
    obtain ⟨members, nodup, rfl⟩ := h key source hm
    exact ⟨(key, members), nodup, rfl⟩
  obtain ⟨entries, hentries, rfl⟩ := exists_eq_map hfrom
  rw [Shape.read_sources_iff]
  exact ⟨entries, sourcesToJson_read hentries, rfl⟩

theorem read_layersToJson {list : List Layer} (h : ∀ layer ∈ list, layer.Decoded) :
    Shape.layers.read (layersToJson list) = some list := by
  obtain ⟨objects, hobjects, rfl⟩ := exists_eq_map h
  rw [Shape.read_layers_iff]
  exact ⟨objects, layersToJson_read hobjects, rfl⟩

/-! ## Entries of a decoded style -/

theorem decoded_of_mem_sourceList (h : (Json.object members).WellFormed) {key : String}
    {source : Source} (hm : (key, source) ∈ (read members).sourceList) : source.Decoded := by
  unfold sourceList at hm
  cases hs : (read members).sources with
  | none => simp [hs] at hm
  | some list =>
    rw [hs] at hm
    obtain ⟨value, hv, hread⟩ := Option.bind_eq_some_iff.1 hs
    obtain ⟨entries, rfl, rfl⟩ := Shape.read_sources_iff.1 hread
    obtain ⟨⟨k, object⟩, he, heq⟩ := List.mem_map.1 hm
    obtain ⟨rfl, rfl⟩ := Prod.mk.inj heq
    have hwf : (Json.object object).WellFormed :=
      (h.member (Members.mem_of_lookup hv)).member (List.mem_map.2 ⟨(k, object), he, rfl⟩)
    exact ⟨object, hwf.keys_nodup, rfl⟩

theorem decoded_of_mem_layerList (h : (Json.object members).WellFormed) {layer : Layer}
    (hm : layer ∈ (read members).layerList) : layer.Decoded := by
  unfold layerList at hm
  cases hl : (read members).layers with
  | none => simp [hl] at hm
  | some list =>
    rw [hl] at hm
    obtain ⟨value, hv, hread⟩ := Option.bind_eq_some_iff.1 hl
    obtain ⟨objects, rfl, rfl⟩ := Shape.read_layers_iff.1 hread
    obtain ⟨object, ho, rfl⟩ := List.mem_map.1 hm
    have hwf : (Json.object object).WellFormed :=
      (h.member (Members.mem_of_lookup hv)).item (List.mem_map.2 ⟨object, ho, rfl⟩)
    exact ⟨object, hwf.keys_nodup, rfl⟩

/-! ## Replacing sources and layers -/

theorem fields_distinct : (fields.map (·.key)).Nodup := by decide

/-- The members of a document with other sources and layers, where it has any. -/
def replaceMember (sources : Option (List (String × Source))) (layers : Option (List Layer))
    (key : String) (value : Json) : Json :=
  if key = "sources" then (sources.map sourcesToJson).getD value
  else if key = "layers" then (layers.map layersToJson).getD value
  else value

variable {sources : Option (List (String × Source))} {layers : Option (List Layer)}

theorem replaceMember_sources (value : Json) :
    replaceMember sources layers "sources" value = (sources.map sourcesToJson).getD value := rfl

theorem replaceMember_layers (value : Json) :
    replaceMember sources layers "layers" value = (layers.map layersToJson).getD value := rfl

theorem replaceMember_of_ne {key : String} (hs : key ≠ "sources") (hl : key ≠ "layers")
    (value : Json) : replaceMember sources layers key value = value := by
  rw [replaceMember, if_neg hs, if_neg hl]

theorem container_slot {α : Type} {shape : Shape α} {key : String} {encode : α → Json}
    {new : Option α} (h : new.isSome = (shape.get? key members).isSome) :
    ((members.lookup key).filter shape.Fits).map (fun value => (new.map encode).getD value) =
      new.map encode := by
  unfold Shape.get? at h
  cases hv : members.lookup key with
  | none =>
    obtain rfl : new = none := by simpa [hv] using h
    rfl
  | some value =>
    cases hr : shape.read value with
    | none =>
      obtain rfl : new = none := by simpa [hv, hr] using h
      simp [Option.filter_some, Shape.Fits, hr]
    | some a =>
      obtain ⟨b, rfl⟩ : ∃ b, new = some b := Option.isSome_iff_exists.1 (by simp [h, hv, hr])
      simp [Option.filter_some, Shape.Fits, hr]

theorem any_slot (key : String) :
    (members.lookup key).filter Shape.any.Fits = Shape.any.get? key members := by
  cases hv : members.lookup key <;> simp [Shape.get?, Shape.any, Shape.Fits, hv, Option.filter_some]

theorem takes_sources (value : Json) :
    Field.takes fields "sources" value = Shape.sources.Fits value :=
  Field.takes_of_mem fields_distinct (.optional "sources" .sources) (by simp [fields]) value

theorem takes_layers (value : Json) :
    Field.takes fields "layers" value = Shape.layers.Fits value :=
  Field.takes_of_mem fields_distinct (.optional "layers" .layers) (by simp [fields]) value

/-- A replaced container is read back. -/
theorem get?_container {α : Type} {shape : Shape α} {key : String} {encode : α → Json}
    {new : Option α} {change : String → Json → Json}
    (h : new.isSome = (shape.get? key members).isSome)
    (hread : ∀ a, new = some a → shape.read (encode a) = some a)
    (hchange : ∀ value, change key value = (new.map encode).getD value) :
    shape.get? key (Members.mapValues change members) = new := by
  rw [Shape.get?, Members.lookup_mapValues, funext hchange]
  cases new with
  | none =>
    have hnone : shape.get? key members = none := by simpa using h
    show (((members.lookup key).map id).bind shape.read) = none
    rwa [Option.map_id]
  | some a =>
    have hsome : (shape.get? key members).isSome := by simpa using h
    obtain ⟨b, hb⟩ := Option.isSome_iff_exists.1 hsome
    obtain ⟨value, hv, -⟩ := Option.bind_eq_some_iff.1 hb
    simp [hv, hread a rfl]

section Replace

variable (hs : sources.isSome = (read members).sources.isSome)
  (hl : layers.isSome = (read members).layers.isSome)

include hs hl

theorem map_slot_fields_perm :
    (fields.map (Field.slot (replaceMember sources layers) members)).Perm
      { read members with sources, layers }.slots := by
  have htext : ∀ key, key ≠ "sources" → key ≠ "layers" →
      ((members.lookup key).filter Shape.text.Fits).map (replaceMember sources layers key) =
        (Shape.text.get? key members).map Json.string := by
    intro key h1 h2
    rw [funext (replaceMember_of_ne h1 h2), Option.map_id', Shape.text_slot]
  have hany : ∀ key, key ≠ "sources" → key ≠ "layers" →
      ((members.lookup key).filter Shape.any.Fits).map (replaceMember sources layers key) =
        Shape.any.get? key members := by
    intro key h1 h2
    rw [funext (replaceMember_of_ne h1 h2), Option.map_id', any_slot]
  have hsources : ((members.lookup "sources").filter Shape.sources.Fits).map
      (replaceMember sources layers "sources") = sources.map sourcesToJson :=
    container_slot hs
  have hlayers : ((members.lookup "layers").filter Shape.layers.Fits).map
      (replaceMember sources layers "layers") = layers.map layersToJson :=
    container_slot hl
  simp only [fields, Field.slot, Field.optional, List.map_cons, List.map_nil, slots, read]
  rw [hsources, hlayers, htext "name" (by decide) (by decide),
    htext "glyphs" (by decide) (by decide), hany "version" (by decide) (by decide),
    hany "metadata" (by decide) (by decide), hany "sprite" (by decide) (by decide)]
  -- Only the sources stand elsewhere among what is written: before the sprite and the glyphs.
  have hmove : ∀ a b c d : String × Option Json, [a, b, c, d].Perm [c, a, b, d] :=
    fun a b c d => ((List.Perm.swap c b [d]).cons a).trans (List.Perm.swap c a [b, d])
  exact (((hmove _ _ _ _).cons _).cons _).cons _

theorem replaceMember_of_not_taken (nodup : (Members.keys members).Nodup) (key : String)
    (value : Json) (hm : (key, value) ∈ members) (h : Field.takes fields key value = false) :
    replaceMember sources layers key value = value := by
  by_cases hsources : key = "sources"
  · subst hsources
    rw [takes_sources] at h
    have hnone : (read members).sources = none :=
      (Shape.get?_of_mem nodup hm).trans (by simpa [Shape.Fits] using h)
    obtain rfl : sources = none := by simpa [hnone] using hs
    rfl
  by_cases hlayers : key = "layers"
  · subst hlayers
    rw [takes_layers] at h
    have hnone : (read members).layers = none :=
      (Shape.get?_of_mem nodup hm).trans (by simpa [Shape.Fits] using h)
    obtain rfl : layers = none := by simpa [hnone] using hl
    rfl
  exact replaceMember_of_ne hsources hlayers value

/-- **A style with replaced sources and layers is encoded as it was written,** these apart. -/
theorem toJson_replace (nodup : (Members.keys members).Nodup) :
    { read members with sources, layers }.toJson =
      .object (Members.mapValues (replaceMember sources layers) members) := by
  rw [toJson]
  show Json.object (writeFields (Members.keys members) (Field.leftover fields members) _) = _
  rw [writeFields_leftover nodup fields_distinct (map_slot_fields_perm hs hl)
    (replaceMember_of_not_taken hs hl nodup)]

variable (hsources : ∀ list, sources = some list → Shape.sources.read (sourcesToJson list) = some list)
  (hlayers : ∀ list, layers = some list → Shape.layers.read (layersToJson list) = some list)

include hsources hlayers

theorem takes_replaceMember (nodup : (Members.keys members).Nodup) (key : String) (value : Json)
    (hm : (key, value) ∈ members) (h : Field.takes fields key value) :
    Field.takes fields key (replaceMember sources layers key value) := by
  by_cases h1 : key = "sources"
  · subst h1
    rw [takes_sources, Shape.Fits, ← Shape.get?_of_mem nodup hm] at h
    rw [takes_sources, Shape.Fits]
    have hsome : sources.isSome := hs.trans h
    obtain ⟨list, rfl⟩ := Option.isSome_iff_exists.1 hsome
    simp [replaceMember_sources, hsources list rfl]
  by_cases h2 : key = "layers"
  · subst h2
    rw [takes_layers, Shape.Fits, ← Shape.get?_of_mem nodup hm] at h
    rw [takes_layers, Shape.Fits]
    have hsome : layers.isSome := hl.trans h
    obtain ⟨list, rfl⟩ := Option.isSome_iff_exists.1 hsome
    simp [replaceMember_layers, hlayers list rfl]
  rw [replaceMember_of_ne h1 h2]
  exact h

/-- **A style with replaced sources and layers is read back as it is.** -/
theorem read_replace (nodup : (Members.keys members).Nodup) :
    read (Members.mapValues (replaceMember sources layers) members) =
      { read members with sources, layers } := by
  have hfixed : ∀ {α : Type} (shape : Shape α) (key : String), key ≠ "sources" →
      key ≠ "layers" →
      shape.get? key (Members.mapValues (replaceMember sources layers) members) =
        shape.get? key members :=
    fun shape key h1 h2 => Shape.get?_mapValues_of_fixed (replaceMember_of_ne h1 h2)
  have hextra : Field.leftover fields
      (Members.mapValues (replaceMember sources layers) members) =
        Field.leftover fields members :=
    Field.leftover_mapValues fields_distinct
      (takes_replaceMember hs hl hsources hlayers nodup)
      (replaceMember_of_not_taken hs hl nodup)
  simp only [read]
  rw [get?_container hs hsources replaceMember_sources,
    get?_container hl hlayers replaceMember_layers, hextra, Members.keys_mapValues,
    hfixed Shape.any "version" (by decide) (by decide),
    hfixed Shape.text "name" (by decide) (by decide),
    hfixed Shape.any "metadata" (by decide) (by decide),
    hfixed Shape.any "sprite" (by decide) (by decide),
    hfixed Shape.text "glyphs" (by decide) (by decide)]

end Replace

/-! ## Nothing replaced -/

theorem sourcesToJson_of_read {value : Json} {list : List (String × Source)}
    (wf : value.WellFormed) (h : Shape.sources.read value = some list) :
    sourcesToJson list = value := by
  obtain ⟨entries, rfl, rfl⟩ := Shape.read_sources_iff.1 h
  apply sourcesToJson_read
  rintro ⟨key, object⟩ he
  exact (wf.member (List.mem_map.2 ⟨(key, object), he, rfl⟩)).keys_nodup

/-- Sources that are kept by name are encoded as they were written. -/
theorem sourcesToJson_filter {value : Json} {list : List (String × Source)}
    (wf : value.WellFormed) (h : Shape.sources.read value = some list) (keep : String → Bool) :
    ∃ entries, value = .object entries ∧ (∀ entry ∈ entries, entry.2.isObject) ∧
      sourcesToJson (list.filter fun entry => keep entry.1) =
        .object (entries.filter fun entry => keep entry.1) := by
  obtain ⟨entries, rfl, rfl⟩ := Shape.read_sources_iff.1 h
  refine ⟨_, rfl, ?_, ?_⟩
  · intro entry he
    obtain ⟨⟨key, object⟩, -, rfl⟩ := List.mem_map.1 he
    rfl
  · rw [List.filter_map, List.filter_map]
    apply sourcesToJson_read
    rintro ⟨key, object⟩ he
    exact (wf.member (List.mem_map.2 ⟨(key, object), List.mem_of_mem_filter he, rfl⟩)).keys_nodup

theorem layersToJson_of_read {value : Json} {list : List Layer}
    (wf : value.WellFormed) (h : Shape.layers.read value = some list) :
    layersToJson list = value := by
  obtain ⟨objects, rfl, rfl⟩ := Shape.read_layers_iff.1 h
  apply layersToJson_read
  intro object ho
  exact (wf.item (List.mem_map.2 ⟨object, ho, rfl⟩)).keys_nodup

/-- A container is written back, whether it was read or left aside. -/
theorem getD_map_read {α : Type} {shape : Shape α} {encode : α → Json} {value : Json}
    (h : ∀ a, shape.read value = some a → encode a = value) :
    ((shape.read value).map encode).getD value = value := by
  cases hr : shape.read value with
  | none => rfl
  | some a => exact h a hr

theorem replaceMember_read (wf : (Json.object members).WellFormed) {key : String} {value : Json}
    (hm : (key, value) ∈ members) :
    replaceMember (read members).sources (read members).layers key value = value := by
  have wf' : value.WellFormed := wf.member hm
  by_cases hsources : key = "sources"
  · subst hsources
    have hread : (read members).sources = Shape.sources.read value :=
      Shape.get?_of_mem wf.keys_nodup hm
    rw [replaceMember_sources, hread]
    exact getD_map_read fun list => sourcesToJson_of_read wf'
  by_cases hlayers : key = "layers"
  · subst hlayers
    have hread : (read members).layers = Shape.layers.read value :=
      Shape.get?_of_mem wf.keys_nodup hm
    rw [replaceMember_layers, hread]
    exact getD_map_read fun list => layersToJson_of_read wf'
  exact replaceMember_of_ne hsources hlayers value

/-- **A style is encoded as it was written.** -/
theorem toJson_read (wf : (Json.object members).WellFormed) :
    (read members).toJson = .object members := by
  calc (read members).toJson
      = .object (Members.mapValues
          (replaceMember (read members).sources (read members).layers) members) :=
        toJson_replace rfl rfl wf.keys_nodup
    _ = .object members := by
        rw [Members.mapValues_eq_self fun _ _ hm => replaceMember_read wf hm]

/-- **Decoding loses and moves nothing.** Every object is a style to a lenient reading, and what
    either reading accepts is encoded as the very document: every member of it, of its sources and
    of its layers, with its value and in its place, whether or not a field took it. -/
theorem decode_lossless (wf : (Json.object members).WellFormed) :
    (∃ s, ofJson .lenient (.object members) = .ok s ∧ s.toJson = .object members) ∧
      ∀ s, ofJson .strict (.object members) = .ok s → s.toJson = .object members := by
  refine ⟨⟨read members, rfl, toJson_read wf⟩, ?_⟩
  intro s hs
  obtain ⟨-, rfl⟩ := ofJson_strict_object_iff.1 hs
  exact toJson_read wf

/-- A style that both readings accept, with nulls, unknown keys and an array that is no call. -/
theorem decode_lossless_nulls :
    let members : List (String × Json) :=
      [("zoom", .number (.integer 2)),
        ("layers", .array [.object
          [("paint", .object [("fill-color", .array [.null])]), ("x", .null), ("filter", .null),
            ("type", .string "fill"), ("id", .string "l")]]),
        ("name", .null),
        ("sources", .object [("a", .object [("url", .null), ("type", .string "")])])]
    (Json.object members).WellFormed ∧
      (∃ s, ofJson .lenient (.object members) = .ok s ∧ s.toJson = .object members) ∧
      ∃ s, ofJson .strict (.object members) = .ok s ∧ s.toJson = .object members := by
  intro members
  have wf : (Json.object members).WellFormed := by
    simp [members, Json.WellFormed, Json.WellFormedMembers, Json.WellFormedItems, Members.keys,
      Number.InWord]
  have strict : ofJson .strict (.object members) = .ok (read members) :=
    ofJson_strict_object_iff.2 ⟨by decide +kernel, rfl⟩
  exact ⟨wf, (decode_lossless wf).1, read members, strict, (decode_lossless wf).2 _ strict⟩

end Style

end CartoStyle
