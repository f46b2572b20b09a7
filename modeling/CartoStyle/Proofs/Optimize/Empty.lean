import CartoStyle.Proofs.Lint.Verdict
import CartoStyle.Proofs.Optimize.Frame

set_option autoImplicit false

/-! # Which layers are empty

A run that drops no duplicates drops the layers that do not draw, and folds those that stay, in
whatever order its passes stand (`Optimization.layers_runPasses`). On the document a layer is empty
when it is not the background and leaves its blocks out, or writes them without properties. These are
dropped (`Optimization.drawing_layers_kept`), but not only these: a block of another shape is read as
if it was not there, and with the layer that is dropped for it goes what it holds
(`Optimization.layer_of_misshapen_paint`). -/

namespace CartoStyle

/-! ## Empty layers -/

namespace Json

/-- Whether a layer leaves a block out, or writes it without properties. -/
def leavesOut (layer : Json) (block : String) : Bool :=
  match layer.get? block with
  | none | some .null | some (.object []) => true
  | _ => false

/-- Whether a block of a layer is there and is no block. -/
def misshapes (layer : Json) (block : String) : Bool :=
  match layer.get? block with
  | none | some .null | some (.object _) => false
  | _ => true

/-- Whether a layer is empty: it is not the background, and both blocks are left out. -/
def isEmptyLayer (layer : Json) : Bool :=
  layer.get? "type" != some (.string "background") && ["paint", "layout"].all layer.leavesOut

/-- Whether a layer reads as empty: a block that is misshapen counts as one that is left out. -/
def readsAsEmptyLayer (layer : Json) : Bool :=
  layer.get? "type" != some (.string "background") &&
    ["paint", "layout"].all fun block => layer.leavesOut block || layer.misshapes block

/-- What folding makes of a layer. -/
def foldedLayer : Json → Json
  | .object members => .object (Members.mapValues Layer.foldMember members)
  | value => value

end Json

namespace Layer

variable {members : List (String × Json)}

theorem hasEntries_get? (block : String) :
    hasEntries (Shape.block.get? block members) =
      !((Json.object members).leavesOut block || (Json.object members).misshapes block) := by
  rw [Shape.get?, Json.leavesOut, Json.misshapes, Json.get?]
  cases members.lookup block with
  | none => rfl
  | some value =>
    cases value with
    | object properties => cases properties <;> rfl
    | _ => rfl

/-- A layer draws unless it reads as empty. -/
theorem draws_read : (Layer.read members).Draws = !(Json.object members).readsAsEmptyLayer := by
  have hbackground : (Layer.read members).isBackground =
      ((Json.object members).get? "type" == some (.string "background")) := by
    rw [Bool.eq_iff_iff, beq_iff_eq]
    exact isBackground_read_iff
  have hpaint : hasEntries (Layer.read members).paint = _ := hasEntries_get? "paint"
  have hlayout : hasEntries (Layer.read members).layout = _ := hasEntries_get? "layout"
  rw [Draws, hasProperties, hbackground, hpaint, hlayout, Json.readsAsEmptyLayer]
  simp [Bool.not_and, bne]

end Layer

/-! ## Runs -/

namespace Optimization

/-- **A run that drops no duplicates drops the layers that do not draw,** and folds the others. -/
theorem layers_runPasses {passes : List Pass} (h : .removeDuplicateLayers ∉ passes) (s : Style) :
    (runPasses passes s).1.layers = s.layers.map fun layers =>
      (if .removeEmptyLayers ∈ passes then layers.filter Layer.Draws else layers).map
        (if .simplifyExpressions ∈ passes then Layer.folded else id) := by
  induction passes generalizing s with
  | nil => simp [runPasses]
  | cons pass rest ih =>
    rw [List.mem_cons, not_or] at h
    obtain ⟨hpass, hrest⟩ := h
    show (runPasses rest (pass.apply s).1).1.layers = _
    rw [ih hrest]
    cases pass with
    | removeUnusedSources => simp [Pass.apply, Style.withoutUnusedSources]
    | removeDuplicateLayers => exact absurd rfl hpass
    | simplifyExpressions =>
      -- Folding first or last is the same, as it neither empties a layer nor fills one.
      show (s.layers.map (·.map Layer.folded)).map _ = _
      rw [Option.map_map]
      by_cases hempty : .removeEmptyLayers ∈ rest <;>
        by_cases hfold : .simplifyExpressions ∈ rest <;>
        simp [hempty, hfold, Function.comp_def, List.filter_map]
    | removeEmptyLayers =>
      show (s.layers.map (·.filter Layer.Draws)).map _ = _
      rw [Option.map_map]
      simp [Function.comp_def, List.filter_filter]
    | consolidateFilters => simp [Pass.apply]

end Optimization

/-! ## The document -/

namespace Style

/-- Layers that stay are encoded as they were written, folded or not. -/
theorem layersToJson_drawing {objects : List (List (String × Json))} (fold : Bool)
    (h : ∀ object ∈ objects, (Members.keys object).Nodup) :
    layersToJson (((objects.map Layer.read).filter Layer.Draws).map
        (if fold then Layer.folded else id)) =
      .array (((objects.map .object).filter (!·.readsAsEmptyLayer)).map
        (if fold then Json.foldedLayer else id)) := by
  have hdraws : Layer.Draws ∘ Layer.read = (!·.readsAsEmptyLayer) ∘ Json.object :=
    funext fun _ => Layer.draws_read
  rw [layersToJson, List.filter_map, List.filter_map, hdraws, List.map_map, List.map_map,
    List.map_map, Json.array.injEq]
  apply List.map_congr_left
  intro object ho
  have nodup := h object (List.mem_of_mem_filter ho)
  cases fold with
  | true => exact Layer.toJson_folded nodup
  | false => exact Layer.toJson_read nodup

end Style

namespace Optimization

/-- **Optimization drops the layers that read as empty,** and keeps the others, folded or as they are,
    in their order. A layer with a misshapen block is among those that are dropped when its other
    block is left out or misshapen as well. -/
theorem drawing_layers_kept {passes : List Pass} (hempty : .removeEmptyLayers ∈ passes)
    (hduplicate : .removeDuplicateLayers ∉ passes) {members : List (String × Json)}
    (wf : (Json.object members).WellFormed) {items : List Json}
    (harray : (Json.object members).get? "layers" = some (.array items))
    (hobjects : ∀ item ∈ items, item.isObject) :
    (ofJson passes (.object members)).style.get? "layers" =
      some (.array ((items.filter (!·.readsAsEmptyLayer)).map
        (if .simplifyExpressions ∈ passes then Json.foldedLayer else id))) := by
  obtain ⟨objects, rfl⟩ := exists_eq_map_object hobjects
  have hlookup : members.lookup "layers" = some (.array (objects.map .object)) := harray
  have hread : (Style.read members).layers = some (objects.map Layer.read) := by
    show (members.lookup "layers").bind Shape.layers.read = _
    rw [hlookup]
    exact Shape.read_layers_iff.2 ⟨objects, rfl, rfl⟩
  have hkept : (runPasses passes (Style.read members)).1.layers =
      some (((objects.map Layer.read).filter Layer.Draws).map
        (if .simplifyExpressions ∈ passes then Layer.folded else id)) := by
    rw [layers_runPasses hduplicate, hread, Option.map_some]
    simp only [hempty, if_true]
  have hnodup : ∀ object ∈ objects, (Members.keys object).Nodup := by
    intro object ho
    have hobject : (Json.object object).WellFormed :=
      (wf.member (Members.mem_of_lookup hlookup)).item (List.mem_map.2 ⟨object, ho, rfl⟩)
    exact hobject.keys_nodup
  have hencoded := Style.layersToJson_drawing (decide (.simplifyExpressions ∈ passes)) hnodup
  simp only [decide_eq_true_eq] at hencoded
  rw [get?_ofJson passes wf hlookup, Style.replaceMember_layers, hkept, Option.map_some,
    Option.getD_some, hencoded]

/-- Of four layers two stay: the background, and one that draws a line. -/
theorem drawing_layers_kept_of_four :
    let passes : List Pass := [.consolidateFilters, .removeEmptyLayers]
    let back : Json := .object [("type", .string "background")]
    let line : Json := .object [("layout", .null), ("paint", .object [("line-width", .ofNat 2)])]
    let items : List Json :=
      [.object [("paint", .object []), ("layout", .null)], back, line,
        .object [("type", .ofNat 1), ("layout", .array [])]]
    let members : List (String × Json) := [("layers", .array items)]
    (Json.object members).WellFormed ∧ .removeEmptyLayers ∈ passes ∧
      .removeDuplicateLayers ∉ passes ∧ (∀ item ∈ items, item.isObject) ∧
      (ofJson passes (.object members)).style.get? "layers" = some (.array [back, line]) := by
  intro passes back line items members
  have wf : (Json.object members).WellFormed := by
    simp [members, items, back, line, Json.WellFormed, Json.WellFormedMembers,
      Json.WellFormedItems, Members.keys, Json.ofNat, Number.InWord]
  have hempty : .removeEmptyLayers ∈ passes := by decide
  have hduplicate : .removeDuplicateLayers ∉ passes := by decide
  have hobjects : ∀ item ∈ items, item.isObject := by decide
  exact ⟨wf, hempty, hduplicate, hobjects, drawing_layers_kept hempty hduplicate wf rfl hobjects⟩

/-- The paint of a layer is a text: the layer is not empty, and is dropped. -/
theorem layer_of_misshapen_paint :
    let layer : Json :=
      .object
        [("id", .string "x"), ("type", .string "fill"), ("source", .string "a"),
          ("paint", .string "red")]
    let members : List (String × Json) :=
      [("version", .ofNat 8), ("sources", .object [("a", .object [("type", .string "geojson")])]),
        ("layers", .array [layer])]
    layer.isEmptyLayer = false ∧
      (ofJson [.removeEmptyLayers] (.object members)).style.get? "layers" = some (.array []) := by
  decide +kernel

end Optimization

end CartoStyle
