import CartoStyle.Optimize.Run
import CartoStyle.Proofs.Optimize.Distinct
import CartoStyle.Proofs.Optimize.Fold
import CartoStyle.Proofs.Style.RoundTrip

set_option autoImplicit false

/-! # What passes may do to a style

`Style.Trims before after` bounds what optimization does: it takes sources and layers away, never one
that a remaining layer draws from, and either folds all the layers that stay or none. Every pass keeps
to it (`Pass.trims_apply`), the relation composes, and so every run of passes keeps to it
(`Optimization.trims_runPasses`). What is proved of `Trims` holds after any passes in any order. -/

namespace CartoStyle

/-! ## What happens to layers that stay -/

/-- What a run does to all layers that stay. -/
inductive LayerChange where
  | keep
  | fold

namespace LayerChange

/-- The changed layer. -/
def apply : LayerChange → Layer → Layer
  | .keep, l => l
  | .fold, l => l.folded

/-- One change after another. -/
def andThen : LayerChange → LayerChange → LayerChange
  | .keep, next => next
  | .fold, _ => .fold

@[simp]
theorem map_apply_keep (layers : List Layer) : layers.map keep.apply = layers := List.map_id layers

theorem apply_andThen (first next : LayerChange) :
    (first.andThen next).apply = next.apply ∘ first.apply := by
  funext l
  cases first with
  | keep => rfl
  | fold =>
    cases next with
    | keep => rfl
    | fold => exact (Layer.folded_folded l).symm

@[simp]
theorem source_apply (change : LayerChange) (l : Layer) : (change.apply l).source = l.source := by
  cases change <;> rfl

theorem decoded_apply (change : LayerChange) {l : Layer} (h : l.Decoded) :
    (change.apply l).Decoded := by
  cases change with
  | keep => exact h
  | fold => exact h.folded

end LayerChange

namespace Style

/-! ## The relation -/

/-- `after` is `before` without some of its sources and layers, the layers that stay folded or as they
    were. No layer that stays has lost its source. -/
structure Trims (before after : Style) : Prop where
  frame : after = { before with sources := after.sources, layers := after.layers }
  sources : ∃ keep : String → Bool,
    after.sources = before.sources.map (·.filter fun entry => keep entry.1) ∧
    ∀ name, after.uses name → keep name
  layers : ∃ (kept : List Layer) (change : LayerChange),
    kept.Sublist before.layerList ∧ after.layers = before.layers.map fun _ => kept.map change.apply

namespace Trims

variable {a b c : Style}

theorem refl (s : Style) : s.Trims s where
  frame := rfl
  sources := ⟨fun _ => true, by simp, fun _ _ => rfl⟩
  layers := by
    refine ⟨s.layerList, .keep, List.Sublist.refl _, ?_⟩
    cases h : s.layers <;> simp [layerList, h]

/-- The layers of the trimmed style, with what they were before. -/
theorem exists_layerList (h : a.Trims b) : ∃ (kept : List Layer) (change : LayerChange),
    kept.Sublist a.layerList ∧ b.layerList = kept.map change.apply := by
  obtain ⟨kept, change, hkept, hlayers⟩ := h.layers
  cases ha : a.layers with
  | none =>
    rw [ha, Option.map_none] at hlayers
    exact ⟨[], change, List.nil_sublist _, by simp [layerList, hlayers]⟩
  | some list => exact ⟨kept, change, hkept, by simp [layerList, hlayers, ha]⟩

/-- What draws from a source after trimming drew from it before. -/
theorem uses (h : a.Trims b) {name : String} (hb : b.uses name) : a.uses name := by
  obtain ⟨kept, change, hkept, hlist⟩ := h.exists_layerList
  rw [Style.uses, hlist, List.any_eq_true] at hb
  obtain ⟨l, hl, hsource⟩ := hb
  obtain ⟨l₀, hl₀, rfl⟩ := List.mem_map.1 hl
  rw [change.source_apply] at hsource
  exact List.any_eq_true.2 ⟨l₀, hkept.subset hl₀, hsource⟩

/-- **Trimming composes.** -/
theorem trans (hab : a.Trims b) (hbc : b.Trims c) : a.Trims c where
  frame := by
    rw [hbc.frame, hab.frame]
  sources := by
    obtain ⟨keep, hb, hkeep⟩ := hab.sources
    obtain ⟨keep', hc, hkeep'⟩ := hbc.sources
    refine ⟨fun name => keep name && keep' name, ?_, ?_⟩
    · rw [hc, hb, Option.map_map]
      simp [Function.comp_def, List.filter_filter, Bool.and_comm]
    · -- What is used at the end was used in between, so the first step kept it as well.
      intro name huses
      simp [hkeep name (hbc.uses huses), hkeep' name huses]
  layers := by
    obtain ⟨kept', next, hkept', hc⟩ := hbc.layers
    obtain ⟨kept, change, hkept, hb⟩ := hab.exists_layerList
    rw [hb] at hkept'
    -- What the second step keeps is what the first made of some of the layers that it kept.
    obtain ⟨kept'', hkept'', rfl⟩ := List.sublist_map_iff.1 hkept'
    refine ⟨kept'', change.andThen next, hkept''.trans hkept, ?_⟩
    obtain ⟨_, _, -, hb'⟩ := hab.layers
    rw [hc, hb', Option.map_map, LayerChange.apply_andThen]
    simp [Function.comp_def]

/-! ## Trimming a decoded style -/

theorem isSome_sources (h : a.Trims b) : b.sources.isSome = a.sources.isSome := by
  obtain ⟨keep, hb, -⟩ := h.sources
  rw [hb, Option.isSome_map]

theorem isSome_layers (h : a.Trims b) : b.layers.isSome = a.layers.isSome := by
  obtain ⟨kept, change, -, hb⟩ := h.layers
  rw [hb, Option.isSome_map]

theorem subset_sourceList (h : a.Trims b) : b.sourceList.Sublist a.sourceList := by
  obtain ⟨keep, hb, -⟩ := h.sources
  cases ha : a.sources with
  | none => simp [sourceList, hb, ha]
  | some list => simp [sourceList, hb, ha, List.filter_sublist]

section Decoded

variable {members : List (String × Json)} {s : Style} (h : (Style.read members).Trims s)
  (wf : (Json.object members).WellFormed)

include h wf

theorem read_sourcesToJson (list : List (String × Source)) (hlist : s.sources = some list) :
    Shape.sources.read (sourcesToJson list) = some list := by
  apply Style.read_sourcesToJson
  intro key source hm
  have hm' : (key, source) ∈ s.sourceList := by simpa [sourceList, hlist] using hm
  exact decoded_of_mem_sourceList wf (h.subset_sourceList.subset hm')

theorem decoded_of_mem_layerList {layer : Layer} (hm : layer ∈ s.layerList) : layer.Decoded := by
  obtain ⟨kept, change, hkept, hlist⟩ := h.exists_layerList
  rw [hlist] at hm
  obtain ⟨l, hl, rfl⟩ := List.mem_map.1 hm
  exact change.decoded_apply (Style.decoded_of_mem_layerList wf (hkept.subset hl))

theorem read_layersToJson (list : List Layer) (hlist : s.layers = some list) :
    Shape.layers.read (layersToJson list) = some list := by
  apply Style.read_layersToJson
  intro layer hm
  exact h.decoded_of_mem_layerList wf (by simpa [layerList, hlist] using hm)

/-- **A trimmed style is encoded as it was written,** its sources and layers apart. -/
theorem toJson_eq :
    s.toJson = .object (Members.mapValues (replaceMember s.sources s.layers) members) := by
  rw [← toJson_replace h.isSome_sources h.isSome_layers wf.keys_nodup, ← h.frame]

/-- **A trimmed style is read back as it is.** -/
theorem read_eq :
    Style.read (Members.mapValues (replaceMember s.sources s.layers) members) = s := by
  rw [read_replace h.isSome_sources h.isSome_layers (h.read_sourcesToJson wf)
    (h.read_layersToJson wf) wf.keys_nodup, ← h.frame]

end Decoded

end Trims

/-! ## Steps -/

/-- A style with fewer layers. -/
theorem trims_mapLayers {change : List Layer → List Layer} (s : Style)
    (h : (change s.layerList).Sublist s.layerList) : s.Trims (s.mapLayers change) where
  frame := rfl
  sources := ⟨fun _ => true, by simp [mapLayers], fun _ _ => rfl⟩
  layers := by
    refine ⟨change s.layerList, .keep, h, ?_⟩
    cases hl : s.layers <;> simp [mapLayers, layerList, hl]

theorem trims_withoutUnusedSources (s : Style) : s.Trims s.withoutUnusedSources where
  frame := rfl
  sources := ⟨s.uses, rfl, fun _ h => h⟩
  layers := (Trims.refl s).layers

theorem trims_folded (s : Style) : s.Trims (s.mapLayers (·.map Layer.folded)) where
  frame := rfl
  sources := ⟨fun _ => true, by simp [mapLayers], fun _ _ => rfl⟩
  layers := by
    refine ⟨s.layerList, .fold, List.Sublist.refl _, ?_⟩
    cases hl : s.layers <;> simp [mapLayers, layerList, hl, LayerChange.apply]

end Style

/-- **Every pass trims.** -/
theorem Pass.trims_apply (pass : Pass) (s : Style) : s.Trims (pass.apply s).1 := by
  cases pass with
  | removeUnusedSources => exact s.trims_withoutUnusedSources
  | removeDuplicateLayers => exact s.trims_mapLayers (distinctBy_sublist [] _)
  | simplifyExpressions => exact s.trims_folded
  | removeEmptyLayers => exact s.trims_mapLayers List.filter_sublist
  | consolidateFilters => exact Style.Trims.refl s

/-- **Every run of passes trims.** -/
theorem Optimization.trims_runPasses (passes : List Pass) (s : Style) :
    s.Trims (runPasses passes s).1 := by
  induction passes generalizing s with
  | nil => exact Style.Trims.refl s
  | cons pass rest ih => exact (pass.trims_apply s).trans (ih (pass.apply s).1)

/-- A member of an optimized document is the old one, unless the run has other sources or layers. -/
theorem Optimization.get?_ofJson (passes : List Pass) {members : List (String × Json)}
    (wf : (Json.object members).WellFormed) {key : String} {value : Json}
    (hvalue : members.lookup key = some value) :
    (ofJson passes (.object members)).style.get? key =
      some (Style.replaceMember (runPasses passes (Style.read members)).1.sources
        (runPasses passes (Style.read members)).1.layers key value) := by
  show (runPasses passes (Style.read members)).1.toJson.get? key = _
  rw [(trims_runPasses passes (Style.read members)).toJson_eq wf, Json.get?,
    Members.lookup_mapValues, hvalue, Option.map_some]

end CartoStyle
