import CartoStyle.Proofs.Style.RoundTrip
import CartoStyle.Style.Edit

set_option autoImplicit false

/-! # Writing an edited style

What a style that was decoded from an object and then edited is written as, told from the object and
the edits alone (`Style.edited`). On both levels, the members that were there keep their order and new
ones come after them in the order of the fields (`Members.edited`); what a member holds is decided by
the last edit of it (`Members.outcome`). The main result is
`Style.edits_keep_document`.

A change is a key with the value that it is given, or none when it is removed. -/

namespace CartoStyle

/-! ## Changed members -/

namespace Members

variable {α : Type}

/-- What a key holds after changes to members: what it did when nothing changed it, the value that it
    was last given, or, when it was last removed, what is hidden behind it. -/
def outcome (hidden : String → Option α) (before : List (String × α))
    (changes : List (String × Option α)) (key : String) : Option α :=
  match last? key changes with
  | none => before.lookup key
  | some (some value) => some value
  | some none => hidden key

/-- The members after changes: first the keys that were there, in their order, then those of `known`
    that were not, in the order of these. -/
def edited (known : List String) (hidden : String → Option α) (before : List (String × α))
    (changes : List (String × Option α)) : List (String × α) :=
  (keys before ++ known.filter fun key => !(keys before).contains key).filterMap fun key =>
    (outcome hidden before changes key).map (key, ·)

end Members

namespace Field

variable {fields : List Field} {members : List (String × Json)}

/-- What is left over comes from the members. -/
theorem mem_keys_of_mem_leftover (distinct : (fields.map (·.key)).Nodup) {key : String}
    (h : key ∈ Members.keys (leftover fields members)) : key ∈ Members.keys members := by
  by_contra hnot
  have hnone : (leftover fields members).lookup key = none := by
    rw [lookup_leftover distinct, Members.lookup_eq_none hnot]
    rfl
  obtain ⟨member, hm, rfl⟩ := List.mem_map.1 h
  rw [List.lookup_eq_none_iff] at hnone
  simpa using hnone member hm

end Field

/-- **Writing fields that were changed** changes what was written before. What the fields left over
    stands behind them and shows again where a field holds nothing. -/
theorem writeFields_putAll {fields : List Field} {members before : List (String × Json)}
    {slots changes : List (String × Option Json)} (fieldsDistinct : (fields.map (·.key)).Nodup)
    (distinct : (Members.keys slots).Nodup)
    (known : ∀ change ∈ changes, change.1 ∈ Members.keys slots)
    (sameKeys : Members.keys before = Members.keys members)
    (base : writeFields (Members.keys members) (Field.leftover fields members) slots = before) :
    writeFields (Members.keys members) (Field.leftover fields members)
        (Members.putAll changes slots) =
      Members.edited (Members.keys slots)
        (fun key => (members.lookup key).filter (!Field.takes fields key ·)) before changes := by
  have hkeys : Members.keys (Members.putAll changes slots) = Members.keys slots :=
    Members.keys_putAll known
  have inside : ∀ key ∈ Members.keys (Field.leftover fields members), key ∈ Members.keys members :=
    fun _ => Field.mem_keys_of_mem_leftover fieldsDistinct
  have houtcome : ∀ key, (((Members.putAll changes slots).lookup key).join).or
      ((Field.leftover fields members).lookup key) =
        Members.outcome (fun key => (members.lookup key).filter (!Field.takes fields key ·)) before
          changes key := by
    intro key
    rw [Members.lookup_putAll, Members.outcome]
    cases Members.last? key changes with
    | none => rw [Option.none_or, ← lookup_writeFields distinct, base]
    | some change =>
      cases change with
      | none => exact Field.lookup_leftover fieldsDistinct key
      | some value => rfl
  rw [writeFields_eq (hkeys ▸ distinct) inside, hkeys]
  simp only [houtcome, Members.edited, sameKeys]

/-! ## Values that fit -/

namespace Shape

theorem fits_text (value : Json) : text.Fits value = value.asString?.isSome := rfl

theorem fits_number (value : Json) : number.Fits value = value.asNumber?.isSome := rfl

theorem fits_any (value : Json) : any.Fits value = true := rfl

theorem fits_expression (value : Json) : expression.Fits value = !value.isNull := by
  cases value <;> rfl

theorem fits_block (value : Json) : block.Fits value = value.isObject := by
  cases value <;> rfl

theorem fits_sources (value : Json) :
    sources.Fits value = value.asObject?.any (·.all (·.2.isObject)) := by
  rw [Bool.eq_iff_iff, Fits, Option.isSome_iff_exists]
  constructor
  · rintro ⟨list, h⟩
    obtain ⟨entries, rfl, -⟩ := read_sources_iff.1 h
    simp [Json.asObject?, Json.isObject]
  · intro h
    cases value with
    | object entries =>
      have hobjects : ∀ entry ∈ entries, entry.2.isObject := List.all_eq_true.1 h
      obtain ⟨objects, rfl⟩ := exists_eq_map_object_entries hobjects
      exact ⟨_, read_sources_iff.2 ⟨objects, rfl, rfl⟩⟩
    | _ => simp [Json.asObject?] at h

theorem fits_layers (value : Json) :
    layers.Fits value = value.asArray?.any (·.all (·.isObject)) := by
  rw [Bool.eq_iff_iff, Fits, Option.isSome_iff_exists]
  constructor
  · rintro ⟨list, h⟩
    obtain ⟨objects, rfl, -⟩ := read_layers_iff.1 h
    simp [Json.asArray?, Json.isObject]
  · intro h
    cases value with
    | array items =>
      have hobjects : ∀ item ∈ items, item.isObject := List.all_eq_true.1 h
      obtain ⟨objects, rfl⟩ := exists_eq_map_object hobjects
      exact ⟨_, read_layers_iff.2 ⟨objects, rfl, rfl⟩⟩
    | _ => simp [Json.asArray?] at h

end Shape

/-! ## Edited layers -/

namespace Layer

/-- The member that an edit changes. -/
def Edit.change : Edit → String × Option Json
  | .id new => ("id", new.map .string)
  | .kind new => ("type", new.map fun kind => .string kind.text)
  | .source new => ("source", new.map .string)
  | .sourceLayer new => ("source-layer", new.map .string)
  | .minzoom new => ("minzoom", new.map .number)
  | .maxzoom new => ("maxzoom", new.map .number)
  | .filter new => ("filter", new.map Expression.toJson)
  | .layout new => ("layout", new.map blockToJson)
  | .paint new => ("paint", new.map blockToJson)

/-- The known members of a layer, in the order in which new ones are written. -/
def written : List String :=
  ["id", "type", "source", "source-layer", "minzoom", "maxzoom", "filter", "layout", "paint"]

/-- Whether the value of a member has the shape that its field asks for. No other member has a field. -/
def accepts (key : String) (value : Json) : Bool :=
  match key with
  | "id" | "type" | "source" | "source-layer" => value.asString?.isSome
  | "minzoom" | "maxzoom" => value.asNumber?.isSome
  | "filter" => !value.isNull
  | "layout" | "paint" => value.isObject
  | _ => false

/-- The members of a layer after edits. A removed member shows again what was no value of its field. -/
def edited (members : List (String × Json)) (edits : List Edit) : List (String × Json) :=
  Members.edited written (fun key => (members.lookup key).filter (!accepts key ·)) members
    (edits.map Edit.change)

/-- A layer in a document after edits. -/
def editedValue (edits : List Edit) : Json → Json
  | .object members => .object (edited members edits)
  | value => value

theorem takes_eq_accepts : Field.takes fields = accepts := by
  funext key value
  unfold accepts
  split
  case h_10 =>
    apply Field.takes_eq_false
    simp_all [fields, Field.mandatory, Field.optional]
  all_goals
    simp [Field.takes, fields, Field.mandatory, Field.optional, Shape.fits_text, Shape.fits_number,
      Shape.fits_expression, Shape.fits_block]

variable {members : List (String × Json)}

/-- One edit changes one slot. -/
theorem slots_apply (l : Layer) (e : Edit) :
    (l.apply e).slots = Members.put e.change.1 e.change.2 l.slots := by
  cases e <;> rfl

theorem slots_edit (l : Layer) (edits : List Edit) :
    (l.edit edits).slots = Members.putAll (edits.map Edit.change) l.slots := by
  induction edits generalizing l with
  | nil => rfl
  | cons e rest ih =>
    calc (l.edit (e :: rest)).slots
        = Members.putAll (rest.map Edit.change) (l.apply e).slots := ih (l.apply e)
      _ = Members.putAll ((e :: rest).map Edit.change) l.slots := by
        rw [slots_apply]
        rfl

/-- Edits keep what the fields left over and the order of the keys. -/
theorem edit_frame (l : Layer) (edits : List Edit) :
    (l.edit edits).extra = l.extra ∧ (l.edit edits).order = l.order := by
  induction edits generalizing l with
  | nil => exact ⟨rfl, rfl⟩
  | cons e rest ih =>
    have hstep : (l.apply e).extra = l.extra ∧ (l.apply e).order = l.order := by
      cases e <;> exact ⟨rfl, rfl⟩
    exact ⟨(ih (l.apply e)).1.trans hstep.1, (ih (l.apply e)).2.trans hstep.2⟩

theorem Edit.change_mem_written (e : Edit) : e.change.1 ∈ written := by
  cases e <;> simp [change, written]

/-- **An edited layer is written as its members after the edits.** -/
theorem toJson_edit (nodup : (Members.keys members).Nodup) (edits : List Edit) :
    ((Layer.read members).edit edits).toJson = .object (edited members edits) := by
  obtain ⟨hextra, horder⟩ := edit_frame (Layer.read members) edits
  have base : writeFields (Members.keys members) (Field.leftover fields members)
      (Layer.read members).slots = members := Json.object.inj (toJson_read nodup)
  have known : ∀ change ∈ edits.map Edit.change,
      change.1 ∈ Members.keys (Layer.read members).slots := by
    intro change hc
    obtain ⟨e, -, rfl⟩ := List.mem_map.1 hc
    exact e.change_mem_written
  have distinct : (Members.keys (Layer.read members).slots).Nodup :=
    show written.Nodup by decide
  rw [toJson, slots_edit, hextra, horder, edited, ← takes_eq_accepts]
  exact congrArg Json.object (writeFields_putAll fields_distinct distinct known rfl base)

end Layer

/-! ## Edited styles -/

namespace Style

/-- The edits of the layer at a position. -/
def layerEdits (position : Nat) (edits : List Edit) : List Layer.Edit :=
  edits.filterMap fun
    | .layer place edit => if place = position then some edit else none
    | _ => none

/-- Layers after the edits of each. -/
def editLayers (edits : List Edit) (layers : List Layer) : List Layer :=
  layers.mapIdx fun position layer => layer.edit (layerEdits position edits)

/-- The top-level member that an edit changes, where others come later: the layers that it assigns are
    written as those leave them. An edit of a layer changes no member of the style. -/
def Edit.change? (later : List Edit) : Edit → Option (String × Option Json)
  | .version new => some ("version", new)
  | .name new => some ("name", new.map .string)
  | .metadata new => some ("metadata", new)
  | .sources new => some ("sources", new.map sourcesToJson)
  | .sprite new => some ("sprite", new)
  | .glyphs new => some ("glyphs", new.map .string)
  | .layers new => some ("layers", (new.map (editLayers later)).map layersToJson)
  | .layer _ _ => none

/-- What edits change at the top level. -/
def changes : List Edit → List (String × Option Json)
  | [] => []
  | edit :: later => (edit.change? later).toList ++ changes later

/-- The known members of a style, in the order in which new ones are written. -/
def written : List String :=
  ["version", "name", "metadata", "sources", "sprite", "glyphs", "layers"]

/-- Whether the value of a member has the shape that its field asks for. No other member has a field. -/
def accepts (key : String) (value : Json) : Bool :=
  match key with
  | "version" | "metadata" | "sprite" => true
  | "name" | "glyphs" => value.asString?.isSome
  | "sources" => value.asObject?.any (·.all (·.2.isObject))
  | "layers" => value.asArray?.any (·.all (·.isObject))
  | _ => false

/-- Layers in a document after the edits of each. A value that holds no layers is left alone. -/
def editedLayers (edits : List Edit) (value : Json) : Json :=
  match value with
  | .array items =>
    if items.all (·.isObject) then
      .array (items.mapIdx fun position => Layer.editedValue (layerEdits position edits))
    else value
  | _ => value

/-- The members of a style after the edits of its layers. -/
def editedMember (edits : List Edit) (key : String) (value : Json) : Json :=
  if key = "layers" then editedLayers edits value else value

/-- The members of a style after edits. A removed member shows again what was no value of its field. -/
def edited (members : List (String × Json)) (edits : List Edit) : List (String × Json) :=
  Members.edited written (fun key => (members.lookup key).filter (!accepts key ·))
    (Members.mapValues (editedMember edits) members) (changes edits)

variable {members : List (String × Json)}

theorem takes_eq_accepts : Field.takes fields = accepts := by
  funext key value
  unfold accepts
  split
  case h_8 =>
    apply Field.takes_eq_false
    simp_all [fields, Field.optional]
  all_goals
    simp [Field.takes, fields, Field.optional, Shape.fits_text, Shape.fits_any, Shape.fits_sources,
      Shape.fits_layers]

/-! ### Edits of layers -/

theorem editLayers_nil (layers : List Layer) : editLayers [] layers = layers := by
  apply List.ext_getElem?
  intro position
  simp [editLayers, layerEdits, Layer.edit]

/-- Edits of layers can be put off. -/
theorem editLayers_modify (position : Nat) (e : Layer.Edit) (later : List Edit)
    (layers : List Layer) :
    editLayers later (layers.modify position (·.apply e)) =
      editLayers (.layer position e :: later) layers := by
  apply List.ext_getElem?
  intro place
  rw [editLayers, editLayers, List.getElem?_mapIdx, List.getElem?_mapIdx, List.getElem?_modify]
  by_cases h : position = place
  · subst h
    cases layers[position]? <;> simp [layerEdits, Layer.edit]
  · cases layers[place]? <;> simp [layerEdits, h]

/-- Edited layers are written as they are edited in their document. -/
theorem layersToJson_editLayers {edits : List Edit} {value : Json} {layers : List Layer}
    (wf : value.WellFormed) (h : Shape.layers.read value = some layers) :
    layersToJson (editLayers edits layers) = editedLayers edits value := by
  obtain ⟨objects, rfl, rfl⟩ := Shape.read_layers_iff.1 h
  have hall : (objects.map Json.object).all (·.isObject) = true := by simp [Json.isObject]
  rw [editedLayers, if_pos hall, layersToJson, editLayers, Json.array.injEq]
  apply List.ext_getElem?
  intro position
  simp only [List.getElem?_map, List.getElem?_mapIdx, Option.map_map]
  cases ho : objects[position]? with
  | none => rfl
  | some object =>
    have nodup : (Members.keys object).Nodup :=
      (wf.item (List.mem_map_of_mem (List.mem_of_getElem? ho))).keys_nodup
    exact congrArg some (Layer.toJson_edit nodup _)

theorem editedLayers_of_misfit (edits : List Edit) {value : Json}
    (h : Shape.layers.read value = none) : editedLayers edits value = value := by
  have hfits : Shape.layers.Fits value = false := by simp [Shape.Fits, h]
  rw [Shape.fits_layers] at hfits
  unfold editedLayers
  split
  · exact if_neg (by simpa [Json.asArray?] using hfits)
  · rfl

/-! ### Edits of a style -/

/-- The style with its layers as edits leave them. -/
def settle (edits : List Edit) (s : Style) : Style :=
  { s with layers := s.layers.map (editLayers edits) }

/-- One edit changes one slot, or a layer. -/
theorem slots_settle_apply (later : List Edit) (s : Style) (e : Edit) :
    (settle later (s.apply e)).slots =
      Members.putAll (e.change? later).toList (settle (e :: later) s).slots := by
  cases e with
  | layer position e =>
    have hlayers : (settle later (s.apply (.layer position e))).layers =
        (settle (.layer position e :: later) s).layers := by
      simp only [settle, apply, modifyLayer, Option.map_map]
      congr 1
      funext layers
      exact editLayers_modify position e later layers
    simp only [slots, hlayers]
    rfl
  | _ => rfl

theorem slots_edit (s : Style) (edits : List Edit) :
    (s.edit edits).slots = Members.putAll (changes edits) (settle edits s).slots := by
  induction edits generalizing s with
  | nil =>
    have hsettle : settle [] s = s := by simp [settle, funext editLayers_nil]
    rw [hsettle]
    rfl
  | cons e later ih =>
    calc (s.edit (e :: later)).slots
        = Members.putAll (changes later) (settle later (s.apply e)).slots := ih (s.apply e)
      _ = Members.putAll (changes (e :: later)) (settle (e :: later) s).slots := by
        rw [slots_settle_apply, changes, Members.putAll_append]

/-- Edits keep what the fields left over and the order of the keys. -/
theorem edit_frame (s : Style) (edits : List Edit) :
    (s.edit edits).extra = s.extra ∧ (s.edit edits).order = s.order := by
  induction edits generalizing s with
  | nil => exact ⟨rfl, rfl⟩
  | cons e rest ih =>
    have hstep : (s.apply e).extra = s.extra ∧ (s.apply e).order = s.order := by
      cases e <;> exact ⟨rfl, rfl⟩
    exact ⟨(ih (s.apply e)).1.trans hstep.1, (ih (s.apply e)).2.trans hstep.2⟩

theorem mem_written_of_mem_changes {edits : List Edit} {change : String × Option Json}
    (h : change ∈ changes edits) : change.1 ∈ written := by
  induction edits with
  | nil => simp [changes] at h
  | cons e later ih =>
    rw [changes, List.mem_append] at h
    rcases h with h | h
    · cases e <;> simp_all [Edit.change?, written]
    · exact ih h

/-- A style of which just the layers were edited is written with these in their places. -/
theorem toJson_settle (wf : (Json.object members).WellFormed) (edits : List Edit) :
    (settle edits (read members)).toJson =
      .object (Members.mapValues (editedMember edits) members) := by
  calc (settle edits (read members)).toJson
      = .object (Members.mapValues (replaceMember (read members).sources
          ((read members).layers.map (editLayers edits))) members) :=
        toJson_replace rfl (by simp) wf.keys_nodup
    _ = .object (Members.mapValues (editedMember edits) members) := by
        rw [Members.mapValues_congr]
        intro key value hm
        by_cases hlayers : key = "layers"
        · subst hlayers
          have hread : (read members).layers = Shape.layers.read value :=
            Shape.get?_of_mem wf.keys_nodup hm
          rw [replaceMember_layers, hread, editedMember, if_pos rfl]
          cases hr : Shape.layers.read value with
          | none => exact (editedLayers_of_misfit edits hr).symm
          | some list => exact layersToJson_editLayers (wf.member hm) hr
        -- Every other member is written back as if nothing were replaced.
        have hback := replaceMember_read wf hm
        simp only [replaceMember, if_neg hlayers] at hback ⊢
        rw [hback, editedMember, if_neg hlayers]

/-- **An edited style is written as its document after the edits.** -/
theorem toJson_edit {mode : Mode} {s : Style} (wf : (Json.object members).WellFormed)
    (h : ofJson mode (.object members) = .ok s) (edits : List Edit) :
    (s.edit edits).toJson = .object (edited members edits) := by
  obtain ⟨_, hmembers, rfl⟩ := ofJson_eq_ok h
  obtain rfl := Json.object.inj hmembers
  obtain ⟨hextra, horder⟩ := edit_frame (read members) edits
  have base : writeFields (Members.keys members) (Field.leftover fields members)
      (settle edits (read members)).slots = Members.mapValues (editedMember edits) members :=
    Json.object.inj (toJson_settle wf edits)
  have known : ∀ change ∈ changes edits,
      change.1 ∈ Members.keys (settle edits (read members)).slots :=
    fun _ => mem_written_of_mem_changes
  have distinct : (Members.keys (settle edits (read members)).slots).Nodup :=
    show written.Nodup by decide
  rw [toJson, slots_edit, hextra, horder, edited, ← takes_eq_accepts]
  exact congrArg Json.object (writeFields_putAll fields_distinct distinct known
    (Members.keys_mapValues _ members) base)

/-- **Edits keep the order of a document.** However a style was decoded and then edited, it is written
    as its document after the edits. So is a layer that an edit brings in as it was read elsewhere. -/
theorem edits_keep_document {mode : Mode} {s : Style} (wf : (Json.object members).WellFormed)
    (h : ofJson mode (.object members) = .ok s) (edits : List Edit) :
    (s.edit edits).toJson = .object (edited members edits) ∧
      ∀ object, (Members.keys object).Nodup → ∀ edits : List Layer.Edit,
        ((Layer.read object).edit edits).toJson = .object (Layer.edited object edits) :=
  ⟨toJson_edit wf h edits, fun _ nodup => Layer.toJson_edit nodup⟩

/-- A name and an id of the wrong shape and a filter that is null are removed or replaced, a null for
    metadata is removed, and new members come last, in the order of the fields. -/
theorem edits_keep_document_misshaped :
    let layer : List (String × Json) :=
      [("paint", .object []), ("id", .number (.integer 7)), ("x", .null), ("filter", .null),
        ("type", .string "line")]
    let members : List (String × Json) :=
      [("zoom", .null), ("layers", .array [.object layer]), ("version", .null),
        ("name", .number (.integer 3)), ("metadata", .null), ("glyphs", .null)]
    let layerEdits : List Layer.Edit :=
      [.minzoom (some (.integer 5)), .id (some "l"), .filter (some (.literal (.bool true))),
        .filter none, .source (some "s"), .kind none, .paint none]
    let edits : List Edit :=
      [.sprite (some .null), .name (some "n"), .metadata none, .glyphs (some "g"),
        .sources (some [])] ++ layerEdits.map (.layer 0) ++ [.name none, .layer 1 (.id none)]
    let layer' : List (String × Json) :=
      [("id", .string "l"), ("x", .null), ("filter", .null), ("source", .string "s"),
        ("minzoom", .number (.integer 5))]
    (Json.object members).WellFormed ∧ (Members.keys layer).Nodup ∧
      ((read members).edit edits).toJson = .object
        [("zoom", .null), ("layers", .array [.object layer']), ("version", .null),
          ("name", .number (.integer 3)), ("glyphs", .string "g"), ("sources", .object []),
          ("sprite", .null)] ∧
      ((Layer.read layer).edit layerEdits).toJson = .object layer' := by
  intro layer members layerEdits edits layer'
  have wf : (Json.object members).WellFormed := by
    simp [members, layer, Json.WellFormed, Json.WellFormedMembers, Json.WellFormedItems,
      Members.keys, Number.InWord]
  have nodup : (Members.keys layer).Nodup := by decide
  have hlenient : ofJson .lenient (.object members) = .ok (read members) := rfl
  obtain ⟨hstyle, hlayer⟩ := edits_keep_document wf hlenient edits
  refine ⟨wf, nodup, hstyle.trans ?_, (hlayer layer nodup layerEdits).trans ?_⟩
  · decide +kernel
  · decide +kernel

end Style

end CartoStyle
