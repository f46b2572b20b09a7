import CartoStyle.Proofs.Optimize.Frame
import CartoStyle.Proofs.Optimize.Settle

set_option autoImplicit false

/-! # Which sources stay

Passes that drop no layers do not change what layers draw from, so that a run of them drops the
sources that no layer of the style it started with draws from, wherever in the run the pass for
sources stands (`Optimization.sources_runPasses`). On the document these are the sources that no layer
names, as long as the layers can be decoded (`Optimization.sources_kept`). An entry among the layers
that is no object hides all of them, and then every source is dropped, also one that a layer names
(`Optimization.sources_of_hidden_layers`). -/

namespace CartoStyle

/-! ## Steps -/

namespace Pass

/-- Whether a pass drops layers. -/
def dropsLayers : Pass → Bool
  | .removeDuplicateLayers | .removeEmptyLayers => true
  | .removeUnusedSources | .simplifyExpressions | .consolidateFilters => false

/-- A pass that drops no layers does not change what layers draw from. -/
theorem uses_apply {pass : Pass} (h : pass.dropsLayers = false) (s : Style) :
    (pass.apply s).1.uses = s.uses := by
  funext name
  cases pass with
  | removeUnusedSources | consolidateFilters => rfl
  | simplifyExpressions =>
    show (s.mapLayers (·.map Layer.folded)).layerList.any _ = _
    rw [Style.layerList_folded, List.any_map]
    rfl
  | removeDuplicateLayers | removeEmptyLayers => cases h

/-- Sources are dropped by the one pass for them. -/
theorem sources_apply (pass : Pass) (s : Style) :
    (pass.apply s).1.sources =
      if pass = .removeUnusedSources then s.withoutUnusedSources.sources else s.sources := by
  cases pass <;> rfl

end Pass

/-! ## Runs -/

namespace Style

theorem sources_withoutUnusedSources (s : Style) :
    s.withoutUnusedSources.sources = s.sources.map (·.filter fun entry => s.uses entry.1) := rfl

end Style

namespace Optimization

/-- **A run that drops no layers drops the sources that are not drawn from at its start.** -/
theorem sources_runPasses {passes : List Pass} (h : ∀ pass ∈ passes, pass.dropsLayers = false)
    (s : Style) :
    (runPasses passes s).1.sources =
      if .removeUnusedSources ∈ passes then
        s.sources.map (·.filter fun entry => s.uses entry.1)
      else s.sources := by
  induction passes generalizing s with
  | nil => rfl
  | cons pass rest ih =>
    obtain ⟨hpass, hrest⟩ := List.forall_mem_cons.1 h
    show (runPasses rest (pass.apply s).1).1.sources = _
    rw [ih hrest, Pass.uses_apply hpass, Pass.sources_apply]
    by_cases hsources : pass = .removeUnusedSources
    · -- Dropping unused sources a second time drops nothing more.
      subst hsources
      simp [Style.sources_withoutUnusedSources, Function.comp_def, List.filter_filter]
    · simp [hsources, Ne.symm hsources]

end Optimization

/-! ## Layers and sources of a document -/

namespace Json

/-- Whether a layer of a list names a source. -/
def named (layers : List Json) (source : String) : Bool :=
  layers.any fun layer => layer.get? "source" == some (.string source)

theorem named_map_object {objects : List (List (String × Json))} {source : String} :
    named (objects.map .object) source =
      (objects.map Layer.read).any (·.source == some source) := by
  rw [named, List.any_map, List.any_map]
  congr 1
  funext object
  rw [Bool.eq_iff_iff, Function.comp_apply, Function.comp_apply, beq_iff_eq, beq_iff_eq]
  exact Shape.get?_text_eq_some_iff.symm

end Json

namespace Style

variable {members : List (String × Json)} {items : List Json}

/-- Layers draw from what they name, unless an entry that is no object hides them. -/
theorem uses_read (h : members.lookup "layers" = some (.array items)) (source : String) :
    (read members).uses source = (items.all Json.isObject && Json.named items source) := by
  by_cases hobjects : ∀ item ∈ items, item.isObject
  · obtain ⟨objects, rfl⟩ := exists_eq_map_object hobjects
    rw [uses, layerList_read h, List.all_eq_true.2 hobjects, Bool.true_and, Json.named_map_object]
  · have hhidden : (read members).layers = none := by
      rw [Option.eq_none_iff_forall_ne_some]
      intro list hlist
      obtain ⟨value, hvalue, hread⟩ := Option.bind_eq_some_iff.1 hlist
      obtain rfl := Option.some.inj (h.symm.trans hvalue)
      obtain ⟨objects, heq, -⟩ := Shape.read_layers_iff.1 hread
      obtain rfl := Json.array.inj heq
      exact hobjects (List.forall_mem_map.2 fun _ _ => rfl)
    rw [← List.all_eq_true, Bool.not_eq_true] at hobjects
    rw [uses, layerList, hhidden, hobjects]
    rfl

end Style

/-! ## The document -/

namespace Optimization

section

variable {passes : List Pass} (hsources : .removeUnusedSources ∈ passes)
  (hlayers : ∀ pass ∈ passes, pass.dropsLayers = false) {members : List (String × Json)}
  (wf : (Json.object members).WellFormed) {items : List Json}
  (harray : (Json.object members).get? "layers" = some (.array items)) {value : Json}
  (hvalue : (Json.object members).get? "sources" = some value)

include hsources hlayers wf harray hvalue

/-- The sources of an optimized document, as they are encoded. -/
theorem get?_sources_ofJson :
    (ofJson passes (.object members)).style.get? "sources" =
      some ((((Shape.sources.read value).map
        (·.filter fun entry => items.all Json.isObject && Json.named items entry.1)).map
          Style.sourcesToJson).getD value) := by
  have hlookup : members.lookup "sources" = some value := hvalue
  have hread : (Style.read members).sources = Shape.sources.read value := by
    show (members.lookup "sources").bind Shape.sources.read = _
    rw [hlookup, Option.bind_some]
  have hkept : (runPasses passes (Style.read members)).1.sources = (Shape.sources.read value).map
      (·.filter fun entry => items.all Json.isObject && Json.named items entry.1) := by
    rw [sources_runPasses hlayers, if_pos hsources, hread]
    simp only [Style.uses_read harray]
  rw [get?_ofJson passes wf hlookup, Style.replaceMember_sources, hkept]

/-- **Optimization keeps the sources that layers name,** as they are and in their order, and drops the
    others. This takes layers that can be decoded: an entry among them that is no object hides them
    all, and no source is left. Sources that cannot be decoded stay. -/
theorem sources_kept :
    (¬value.IsSources → (ofJson passes (.object members)).style.get? "sources" = some value) ∧
    (value.IsSources → ∃ entries, value = .object entries ∧
      (ofJson passes (.object members)).style.get? "sources" =
        some (.object (if items.all Json.isObject then
          entries.filter fun entry => Json.named items entry.1 else []))) := by
  rw [get?_sources_ofJson hsources hlayers wf harray hvalue]
  cases hread : Shape.sources.read value with
  | none =>
    refine ⟨fun _ => rfl, fun hobjects => ?_⟩
    simpa [hread] using Style.isSome_read_sources hobjects
  | some list =>
    obtain ⟨entries, rfl, hobjects, hfilter⟩ :=
      Style.sourcesToJson_filter (wf.member (Members.mem_of_lookup hvalue)) hread
        fun name => items.all Json.isObject && Json.named items name
    refine ⟨fun hnot => absurd ⟨entries, rfl, hobjects⟩ hnot, fun _ => ⟨entries, rfl, ?_⟩⟩
    rw [Option.map_some, Option.map_some, Option.getD_some, hfilter]
    cases items.all Json.isObject <;> simp

end

/-- A map that draws from one of its two sources. -/
theorem sources_kept_of_two :
    let passes : List Pass := [.simplifyExpressions, .removeUnusedSources, .consolidateFilters]
    let items : List Json := [.object [("id", .string "x"), ("source", .string "a")]]
    let members : List (String × Json) :=
      [("sources", .object [("b", .object []), ("a", .object [("type", .string "vector")])]),
        ("layers", .array items)]
    (Json.object members).WellFormed ∧
      .removeUnusedSources ∈ passes ∧ (∀ pass ∈ passes, pass.dropsLayers = false) ∧
      (ofJson passes (.object members)).style.get? "sources" =
        some (.object [("a", .object [("type", .string "vector")])]) := by
  intro passes items members
  have wf : (Json.object members).WellFormed := by
    simp [members, items, Json.WellFormed, Json.WellFormedMembers, Json.WellFormedItems,
      Members.keys]
  have hsources : .removeUnusedSources ∈ passes := by decide
  have hlayers : ∀ pass ∈ passes, pass.dropsLayers = false := by decide
  have hobjects : Json.IsSources
      (.object [("b", .object []), ("a", .object [("type", .string "vector")])]) :=
    ⟨_, rfl, by simp [Json.isObject]⟩
  obtain ⟨entries, heq, hkept⟩ := (sources_kept hsources hlayers wf rfl rfl).2 hobjects
  obtain rfl := Json.object.inj heq
  exact ⟨wf, hsources, hlayers, hkept⟩

/-- A text among the layers: the source goes although a layer names it. -/
theorem sources_of_hidden_layers :
    let items : List Json :=
      [.object [("id", .string "x"), ("type", .string "fill"), ("source", .string "a")],
        .string "oops"]
    let members : List (String × Json) :=
      [("version", .ofNat 8), ("sources", .object [("a", .object [("type", .string "geojson")])]),
        ("layers", .array items)]
    Json.named items "a" = true ∧
      (ofJson [.removeUnusedSources] (.object members)).style.get? "sources" =
        some (.object []) := by
  decide +kernel

end Optimization

end CartoStyle
