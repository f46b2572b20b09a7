import CartoStyle.Proofs.Expression.Simplify
import CartoStyle.Proofs.Style.Containers

set_option autoImplicit false

/-! # Decoding and encoding sources and layers

A source or a layer that was decoded from an object without repeated keys is encoded as that object.
For layers this is proved with their expressions rewritten, as the plain round trip is the rewriting
that changes nothing: the layer comes out as the members it was read from with just the expressions
changed (`Layer.toJson_mapExpressions`), and it is read back as it is (`Layer.read_mapValues`). -/

namespace CartoStyle

variable {members : List (String × Json)}

/-! ## Shapes and their encodings -/

namespace Shape

theorem read_text_iff {value : Json} {s : String} :
    text.read value = some s ↔ value = .string s := by
  cases value <;> simp [text, Json.asString?]

theorem read_number_iff {value : Json} {n : Number} :
    number.read value = some n ↔ value = .number n := by
  cases value <;> simp [number, Json.asNumber?]

theorem read_expression_iff {value : Json} {e : Expression} :
    expression.read value = some e ↔ value.isNull = false ∧ Expression.ofJson value = e := by
  unfold expression
  cases h : value.isNull <;> simp [h]

theorem read_block_iff {value : Json} {b : Block} :
    block.read value = some b ↔
      ∃ properties, value = .object properties ∧
        b = Members.mapValues (fun _ v => Expression.ofJson v) properties := by
  cases value <;> simp [block, Json.asObject?, Members.mapValues, eq_comm]

theorem get?_text_eq_some_iff {key : String} {s : String} :
    text.get? key members = some s ↔ members.lookup key = some (.string s) := by
  simp [get?, Option.bind_eq_some_iff, read_text_iff]

theorem get?_number_eq_some_iff {key : String} {n : Number} :
    number.get? key members = some n ↔ members.lookup key = some (.number n) := by
  simp [get?, Option.bind_eq_some_iff, read_number_iff]

theorem get?_expression_eq_some_iff {key : String} {e : Expression} :
    expression.get? key members = some e ↔
      ∃ value, members.lookup key = some value ∧ value.isNull = false ∧ .ofJson value = e := by
  simp [get?, Option.bind_eq_some_iff, read_expression_iff]

theorem get?_block_eq_some_iff {key : String} {b : Block} :
    block.get? key members = some b ↔
      ∃ properties, members.lookup key = some (.object properties) ∧
        b = Members.mapValues (fun _ v => Expression.ofJson v) properties := by
  simp [get?, Option.bind_eq_some_iff, read_block_iff]

theorem text_slot (key : String) :
    (members.lookup key).filter text.Fits = (text.get? key members).map Json.string := by
  rw [← filter_fits_map (fun value s h => read_text_iff.1 h), Option.map_id']

theorem number_slot (key : String) :
    (members.lookup key).filter number.Fits = (number.get? key members).map Json.number := by
  rw [← filter_fits_map (fun value n h => read_number_iff.1 h), Option.map_id']

end Shape

/-! ## Sources -/

namespace Source

/-- A source as it is read from an object. -/
def Decoded (s : Source) : Prop :=
  ∃ members, (Members.keys members).Nodup ∧ s = Source.read members

theorem fields_distinct : (fields.map (·.key)).Nodup := by decide

/-- **A source is encoded as it was written.** -/
theorem toJson_read (nodup : (Members.keys members).Nodup) :
    (Source.read members).toJson = .object members := by
  have hslots : fields.map (Field.slot (fun _ value => value) members) =
      (Source.read members).slots := by
    simp [fields, Field.slot, Field.mandatory, slots, read, Shape.text_slot, Function.comp_def]
  rw [toJson]
  show Json.object (writeFields (Members.keys members) (Field.leftover fields members) _) = _
  rw [writeFields_leftover nodup fields_distinct (List.Perm.of_eq hslots) (fun _ _ _ _ => rfl),
    Members.mapValues_eq_self (fun _ _ _ => rfl)]

end Source

/-! ## Layers -/

namespace Layer

/-- A layer as it is read from an object. -/
def Decoded (l : Layer) : Prop :=
  ∃ members, (Members.keys members).Nodup ∧ l = Layer.read members

/-- What rewriting its expressions makes of the value of a block. -/
def rewriteBlock (rule : String → Expression → Expression) : Json → Json
  | .object properties =>
    .object (Members.mapValues (fun property v => (rule property (.ofJson v)).toJson) properties)
  | value => value

/-- What rewriting its expressions makes of the members of a layer. -/
def rewriteMember (rule : Place → Expression → Expression) (key : String) (value : Json) : Json :=
  if key = "filter" then if value.isNull then value else (rule .filter (.ofJson value)).toJson
  else if key = "layout" then rewriteBlock (fun property => rule (.layout property)) value
  else if key = "paint" then rewriteBlock (fun property => rule (.paint property)) value
  else value

theorem fields_distinct : (fields.map (·.key)).Nodup := by decide

variable {rule : Place → Expression → Expression}

theorem rewriteMember_filter (value : Json) :
    rewriteMember rule "filter" value =
      if value.isNull then value else (rule .filter (.ofJson value)).toJson := rfl

theorem rewriteMember_layout :
    rewriteMember rule "layout" = rewriteBlock fun property => rule (.layout property) := rfl

theorem rewriteMember_paint :
    rewriteMember rule "paint" = rewriteBlock fun property => rule (.paint property) := rfl

theorem rewriteMember_of_ne {key : String} (hfilter : key ≠ "filter") (hlayout : key ≠ "layout")
    (hpaint : key ≠ "paint") (value : Json) : rewriteMember rule key value = value := by
  rw [rewriteMember, if_neg hfilter, if_neg hlayout, if_neg hpaint]

/-- The members that are rewritten, and those that are not. -/
theorem rewriteMember_cases {motive : String → (Json → Json) → Prop}
    (filter : motive "filter" (rewriteMember rule "filter"))
    (layout : motive "layout" (rewriteBlock fun property => rule (.layout property)))
    (paint : motive "paint" (rewriteBlock fun property => rule (.paint property)))
    (other : ∀ key, key ≠ "filter" → key ≠ "layout" → key ≠ "paint" → motive key fun value => value)
    (key : String) : motive key (rewriteMember rule key) := by
  by_cases hfilter : key = "filter"
  · exact hfilter ▸ filter
  by_cases hlayout : key = "layout"
  · exact hlayout ▸ layout
  by_cases hpaint : key = "paint"
  · exact hpaint ▸ paint
  rw [funext (rewriteMember_of_ne hfilter hlayout hpaint)]
  exact other key hfilter hlayout hpaint

theorem rewriteBlock_of_misfit (rule : String → Expression → Expression) {value : Json}
    (h : Shape.block.Fits value = false) : rewriteBlock rule value = value := by
  cases value with
  | object _ => simp [Shape.Fits, Shape.block, Json.asObject?] at h
  | _ => rfl

theorem takes_filter (value : Json) :
    Field.takes fields "filter" value = Shape.expression.Fits value :=
  Field.takes_of_mem fields_distinct (.optional "filter" .expression) (by simp [fields]) value

theorem takes_layout (value : Json) :
    Field.takes fields "layout" value = Shape.block.Fits value :=
  Field.takes_of_mem fields_distinct (.optional "layout" .block) (by simp [fields]) value

theorem takes_paint (value : Json) :
    Field.takes fields "paint" value = Shape.block.Fits value :=
  Field.takes_of_mem fields_distinct (.optional "paint" .block) (by simp [fields]) value

/-! ### What the fields of a layer write -/

theorem filter_slot :
    ((members.lookup "filter").filter Shape.expression.Fits).map (rewriteMember rule "filter") =
      ((Shape.expression.get? "filter" members).map (rule .filter)).map Expression.toJson := by
  rw [Option.map_map]
  apply Shape.filter_fits_map
  intro value e h
  obtain ⟨hnull, rfl⟩ := Shape.read_expression_iff.1 h
  simp [rewriteMember_filter, hnull]

theorem block_slot (rule : String → Expression → Expression) (key : String) :
    ((members.lookup key).filter Shape.block.Fits).map (rewriteBlock rule) =
      ((Shape.block.get? key members).map
        (·.map fun (property, e) => (property, rule property e))).map blockToJson := by
  rw [Option.map_map]
  apply Shape.filter_fits_map
  intro value b h
  obtain ⟨properties, rfl, rfl⟩ := Shape.read_block_iff.1 h
  simp [rewriteBlock, blockToJson, Members.mapValues, Function.comp_def]

theorem map_slot_fields :
    fields.map (Field.slot (rewriteMember rule) members) =
      ((Layer.read members).mapExpressions rule).slots := by
  have htext : ∀ key, key ≠ "filter" → key ≠ "layout" → key ≠ "paint" →
      ((members.lookup key).filter Shape.text.Fits).map (rewriteMember rule key) =
        (Shape.text.get? key members).map Json.string := by
    intro key h1 h2 h3
    rw [funext (rewriteMember_of_ne h1 h2 h3), Option.map_id', Shape.text_slot]
  have hnumber : ∀ key, key ≠ "filter" → key ≠ "layout" → key ≠ "paint" →
      ((members.lookup key).filter Shape.number.Fits).map (rewriteMember rule key) =
        (Shape.number.get? key members).map Json.number := by
    intro key h1 h2 h3
    rw [funext (rewriteMember_of_ne h1 h2 h3), Option.map_id', Shape.number_slot]
  simp only [fields, Field.slot, Field.optional, Field.mandatory, List.map_cons, List.map_nil,
    slots, mapExpressions, read]
  rw [htext "id" (by decide) (by decide) (by decide),
    htext "type" (by decide) (by decide) (by decide),
    htext "source" (by decide) (by decide) (by decide),
    htext "source-layer" (by decide) (by decide) (by decide),
    hnumber "minzoom" (by decide) (by decide) (by decide),
    hnumber "maxzoom" (by decide) (by decide) (by decide),
    filter_slot, rewriteMember_layout, rewriteMember_paint, block_slot, block_slot]
  simp [Function.comp_def]

theorem rewriteMember_of_not_taken (key : String) (value : Json)
    (h : Field.takes fields key value = false) : rewriteMember rule key value = value := by
  revert h
  refine rewriteMember_cases
    (motive := fun key change => Field.takes fields key value = false → change value = value)
    ?_ ?_ ?_ ?_ key
  · intro h
    rw [takes_filter] at h
    have hnull : value.isNull = true := by simpa [Shape.Fits, Shape.expression] using h
    exact if_pos hnull
  · intro h
    rw [takes_layout] at h
    exact rewriteBlock_of_misfit _ h
  · intro h
    rw [takes_paint] at h
    exact rewriteBlock_of_misfit _ h
  · intro _ _ _ _ _
    rfl

/-- **A layer with rewritten expressions is encoded as it was written,** the expressions apart. -/
theorem toJson_mapExpressions (nodup : (Members.keys members).Nodup) :
    ((Layer.read members).mapExpressions rule).toJson =
      .object (Members.mapValues (rewriteMember rule) members) := by
  rw [toJson]
  show Json.object (writeFields (Members.keys members) (Field.leftover fields members) _) = _
  rw [writeFields_leftover nodup fields_distinct (List.Perm.of_eq map_slot_fields)
    (fun key value _ => rewriteMember_of_not_taken key value)]

/-! ### Reading a rewritten layer -/

/-- Whether a rewriting of expressions gives what is read back as it is: expressions in written
    form, and no filter that reads as the absence of one. -/
structure Faithful (rule : Place → Expression → Expression) : Prop where
  written : ∀ place value, (rule place (.ofJson value)).Written
  filter_not_null : ∀ value, value.isNull = false →
    (rule .filter (.ofJson value)).toJson.isNull = false

variable (faithful : Faithful rule)

include faithful

theorem Faithful.read_filter (value : Json) :
    Shape.expression.read (rewriteMember rule "filter" value) =
      (Shape.expression.read value).map (rule .filter) := by
  rw [rewriteMember_filter]
  cases hnull : value.isNull with
  | true => simp [Shape.expression, hnull]
  | false =>
    have hnull' := faithful.filter_not_null value hnull
    have hwritten : Expression.ofJson (rule .filter (.ofJson value)).toJson = _ :=
      faithful.written .filter value
    simp [Shape.expression, hnull, hnull', hwritten]

theorem Faithful.read_block (place : String → Place) (value : Json) :
    Shape.block.read (rewriteBlock (fun property => rule (place property)) value) =
      (Shape.block.read value).map
        (·.map fun (property, e) => (property, rule (place property) e)) := by
  cases value with
  | object properties =>
    have hwritten : ∀ property value, Expression.ofJson (rule (place property) (.ofJson value)).toJson =
        rule (place property) (.ofJson value) :=
      fun property value => faithful.written (place property) value
    simp [rewriteBlock, Shape.block, Json.asObject?, Members.mapValues, hwritten]
  | _ => rfl

theorem Faithful.takes (key : String) (value : Json) (h : Field.takes fields key value) :
    Field.takes fields key (rewriteMember rule key value) := by
  revert h
  refine rewriteMember_cases
    (motive := fun key change => Field.takes fields key value → Field.takes fields key (change value))
    ?_ ?_ ?_ ?_ key
  · intro h
    rw [takes_filter, Shape.Fits] at h ⊢
    rw [faithful.read_filter, Option.isSome_map]
    exact h
  · intro h
    rw [takes_layout, Shape.Fits] at h ⊢
    rw [faithful.read_block, Option.isSome_map]
    exact h
  · intro h
    rw [takes_paint, Shape.Fits] at h ⊢
    rw [faithful.read_block, Option.isSome_map]
    exact h
  · intro _ _ _ _ h
    exact h

/-- **A layer with rewritten expressions is read back as it is.** -/
theorem Faithful.read_mapValues (members : List (String × Json)) :
    Layer.read (Members.mapValues (rewriteMember rule) members) =
      (Layer.read members).mapExpressions rule := by
  have hfixed : ∀ {α : Type} (shape : Shape α) (key : String), key ≠ "filter" → key ≠ "layout" →
      key ≠ "paint" →
      shape.get? key (Members.mapValues (rewriteMember rule) members) = shape.get? key members :=
    fun shape key h1 h2 h3 => Shape.get?_mapValues_of_fixed (rewriteMember_of_ne h1 h2 h3)
  have hfilter : Shape.expression.get? "filter" (Members.mapValues (rewriteMember rule) members) =
      (Shape.expression.get? "filter" members).map (rule .filter) :=
    Shape.get?_mapValues fun value _ => faithful.read_filter value
  have hlayout : Shape.block.get? "layout" (Members.mapValues (rewriteMember rule) members) =
      (Shape.block.get? "layout" members).map
        (·.map fun (property, e) => (property, rule (.layout property) e)) :=
    Shape.get?_mapValues fun value _ => faithful.read_block .layout value
  have hpaint : Shape.block.get? "paint" (Members.mapValues (rewriteMember rule) members) =
      (Shape.block.get? "paint" members).map
        (·.map fun (property, e) => (property, rule (.paint property) e)) :=
    Shape.get?_mapValues fun value _ => faithful.read_block .paint value
  have hextra : Field.leftover fields (Members.mapValues (rewriteMember rule) members) =
      Field.leftover fields members :=
    Field.leftover_mapValues fields_distinct (fun key value _ => faithful.takes key value)
      (fun key value _ => rewriteMember_of_not_taken key value)
  simp only [read, mapExpressions]
  rw [hfilter, hlayout, hpaint, hextra, Members.keys_mapValues,
    hfixed Shape.text "id" (by decide) (by decide) (by decide),
    hfixed Shape.text "type" (by decide) (by decide) (by decide),
    hfixed Shape.text "source" (by decide) (by decide) (by decide),
    hfixed Shape.text "source-layer" (by decide) (by decide) (by decide),
    hfixed Shape.number "minzoom" (by decide) (by decide) (by decide),
    hfixed Shape.number "maxzoom" (by decide) (by decide) (by decide)]

omit faithful

/-! ### All expressions of a layer -/

theorem forall_expressions_iff {l : Layer} {p : Expression → Prop} :
    (∀ entry ∈ l.expressions, p entry.2) ↔
      (∀ e, l.filter = some e → p e) ∧ (∀ entry ∈ l.layout.getD [], p entry.2) ∧
        ∀ entry ∈ l.paint.getD [], p entry.2 := by
  rw [expressions, List.forall_mem_append, List.forall_mem_append, List.forall_mem_map,
    List.forall_mem_map, and_assoc]
  cases l.filter <;> simp

/-! ### Reading and writing with nothing changed -/

theorem mapExpressions_id (l : Layer) : l.mapExpressions (fun _ e => e) = l := by
  simp [mapExpressions]

theorem rewriteMember_id (key : String) (value : Json) :
    rewriteMember (fun _ e => e) key value = value := by
  have hblock : ∀ v, rewriteBlock (fun _ e => e) v = v := by
    intro v
    cases v with
    | object properties => simp [rewriteBlock, Members.mapValues]
    | _ => rfl
  simp [rewriteMember, hblock]

/-- **A layer is encoded as it was written.** -/
theorem toJson_read (nodup : (Members.keys members).Nodup) :
    (Layer.read members).toJson = .object members := by
  have h : ((Layer.read members).mapExpressions fun _ e => e).toJson = _ :=
    toJson_mapExpressions nodup
  rwa [mapExpressions_id, Members.mapValues_eq_self fun key value _ =>
    rewriteMember_id key value] at h

end Layer

end CartoStyle
