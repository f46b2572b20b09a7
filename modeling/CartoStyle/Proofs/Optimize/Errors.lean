import CartoStyle.Proofs.Lint.ErrorCount
import CartoStyle.Proofs.Optimize.Accept
import Mathlib.Algebra.Order.Group.Nat

set_option autoImplicit false

/-! # Optimization adds no errors

No lint rule reports more errors on a trimmed style than on the style (`Style.Trims.errorCount_le`).
Layers that stay find their sources as before, folding keeps the errors of expressions, and what is
repeated among fewer layers was repeated before. -/

namespace CartoStyle

/-! ## Layers that stay -/

namespace LayerChange

variable (change : LayerChange) (l : Layer)

@[simp]
theorem name_apply : (change.apply l).name = l.name := by
  cases change <;> rfl

@[simp]
theorem isBackground_apply : (change.apply l).isBackground = l.isBackground := by
  cases change <;> rfl

@[simp]
theorem sourceLayer_apply : (change.apply l).sourceLayer = l.sourceLayer := by
  cases change <;> rfl

@[simp]
theorem zoomErrors_apply : Rule.zoomErrors (change.apply l) = Rule.zoomErrors l := by
  cases change <;> rfl

@[simp]
theorem expressionErrors_apply (limits : Limits) :
    Rule.expressionErrors limits (change.apply l) = Rule.expressionErrors limits l := by
  cases change with
  | keep => rfl
  | fold =>
    rw [apply, Layer.folded_eq, Rule.expressionErrors, Rule.expressionErrors,
      Layer.expressions_mapExpressions, List.map_map]
    simp only [Function.comp_def, Expression.faults_walk_simplify]

end LayerChange

namespace Style

namespace Trims

variable {a b : Style} (h : a.Trims b)

include h

theorem source?_eq {name : String} (huses : b.uses name) : b.source? name = a.source? name := by
  obtain ⟨keep, hsources, hkeep⟩ := h.sources
  have hlist : b.sourceList = a.sourceList.filter fun entry => keep entry.1 := by
    cases ha : a.sources <;> simp [sourceList, hsources, ha]
  rw [source?, source?, hlist, Members.lookup_filter, if_pos (hkeep name huses)]

/-- A layer that stays finds its source as before. -/
theorem source?_eq_of_mem {l : Layer} {change : LayerChange} (hl : change.apply l ∈ b.layerList)
    {name : String} (hsource : l.source = some name) : b.source? name = a.source? name :=
  h.source?_eq (List.any_eq_true.2 ⟨change.apply l, hl, by simp [hsource]⟩)

/-- What layers cost in sum, when those that stay do not cost more. -/
theorem sum_layerList_le {cost cost' : Layer → Nat}
    (hle : ∀ l, ∀ change : LayerChange, change.apply l ∈ b.layerList →
      cost' (change.apply l) ≤ cost l) :
    (b.layerList.map cost').sum ≤ (a.layerList.map cost).sum := by
  obtain ⟨kept, change, hkept, hlist⟩ := h.exists_layerList
  rw [hlist, List.map_map]
  calc (kept.map (cost' ∘ change.apply)).sum
      ≤ (kept.map cost).sum := by
        refine List.sum_le_sum fun l hl => hle l change ?_
        rw [hlist]
        exact List.mem_map_of_mem hl
    _ ≤ (a.layerList.map cost).sum :=
        (hkept.map cost).sum_le_sum fun _ _ => Nat.zero_le _

theorem referenceErrors_eq {l : Layer} {change : LayerChange}
    (hl : change.apply l ∈ b.layerList) :
    Rule.referenceErrors b (change.apply l) = Rule.referenceErrors a l := by
  rw [Rule.referenceErrors, Rule.referenceErrors, change.isBackground_apply, change.source_apply]
  cases hs : l.source with
  | none => rfl
  | some name =>
    dsimp only
    rw [h.source?_eq_of_mem hl hs]

theorem partErrors_eq {l : Layer} {change : LayerChange} (hl : change.apply l ∈ b.layerList) :
    Rule.partErrors b (change.apply l) = Rule.partErrors a l := by
  rw [Rule.partErrors, Rule.partErrors, change.isBackground_apply, change.source_apply,
    change.sourceLayer_apply]
  cases hs : l.source with
  | none => rfl
  | some name =>
    dsimp only
    rw [h.source?_eq_of_mem hl hs]

/-- **Trimming adds no errors.** -/
theorem errorCount_le (limits : Limits) (rule : Rule) :
    errorCount (rule.check limits b) ≤ errorCount (rule.check limits a) := by
  cases rule with
  | version =>
    have hversion : b.version = a.version := by rw [h.frame]
    rw [Rule.check, Rule.check, Rule.checkVersion, Rule.checkVersion, hversion]
  | requiredFields =>
    rw [Rule.check, Rule.check, Rule.errorCount_checkRequiredFields,
      Rule.errorCount_checkRequiredFields, ← Option.not_isSome, ← Option.not_isSome,
      ← Option.not_isSome, ← Option.not_isSome, h.isSome_sources, h.isSome_layers]
  | duplicateLayerId =>
    rw [Rule.check, Rule.check, Rule.errorCount_checkDuplicateLayerId,
      Rule.errorCount_checkDuplicateLayerId]
    obtain ⟨kept, change, hkept, hlist⟩ := h.exists_layerList
    have hnames : b.layerList.map Layer.name = kept.map Layer.name := by
      rw [hlist, List.map_map]
      exact List.map_congr_left fun l _ => change.name_apply l
    rw [hnames]
    exact Rule.repeats_le_of_sublist (hkept.map Layer.name) (List.Subset.refl [])
  | sourceReference =>
    rw [Rule.check, Rule.check, Rule.errorCount_checkSourceReference,
      Rule.errorCount_checkSourceReference]
    exact h.sum_layerList_le fun l change hl => (h.referenceErrors_eq hl).le
  | sourceLayer =>
    rw [Rule.check, Rule.check, Rule.errorCount_checkSourceLayer, Rule.errorCount_checkSourceLayer]
    exact h.sum_layerList_le fun l change hl => (h.partErrors_eq hl).le
  | layerExpressions =>
    rw [Rule.check, Rule.check, Rule.errorCount_checkLayerExpressions,
      Rule.errorCount_checkLayerExpressions]
    exact h.sum_layerList_le fun l change _ => (change.expressionErrors_apply l limits).le
  | zoomRange =>
    rw [Rule.check, Rule.check, Rule.errorCount_checkZoomRange, Rule.errorCount_checkZoomRange]
    exact h.sum_layerList_le fun l change _ => (change.zoomErrors_apply l).le
  | emptyLayer =>
    rw [Rule.check, Rule.check, Rule.errorCount_checkEmptyLayer, Rule.errorCount_checkEmptyLayer]
  | layerType =>
    rw [Rule.check, Rule.check, Rule.errorCount_checkLayerType, Rule.errorCount_checkLayerType]

end Trims

end Style

/-! ## Runs -/

namespace Optimization

/-- **Optimization keeps a style accepted and adds no errors.** A style without errors stays without
    errors. -/
theorem errors_le {value : Json} (wf : value.WellFormed) {style : Style}
    (accepted : Style.ofJson .strict value = .ok style) (passes : List Pass) :
    ∃ optimized, Style.ofJson .strict (ofJson passes value).style = .ok optimized ∧
      (∀ (limits : Limits) (rule : Rule),
        errorCount (rule.check limits optimized) ≤ errorCount (rule.check limits style)) ∧
      ∀ limits : Limits, (∀ rule : Rule, errorCount (rule.check limits style) = 0) →
        ∀ rule : Rule, errorCount (rule.check limits optimized) = 0 := by
  cases value with
  | object members =>
    obtain ⟨-, rfl⟩ := Style.ofJson_strict_object_iff.1 accepted
    have h := trims_runPasses passes (Style.read members)
    refine ⟨(runPasses passes (Style.read members)).1, ofJson_strict_of_trims h wf accepted,
      h.errorCount_le, ?_⟩
    intro limits hzero rule
    exact Nat.le_zero.1 (hzero rule ▸ h.errorCount_le limits rule)
  | _ => simp [Style.ofJson] at accepted

/-- A layer without source and without properties: dropping it drops its error. -/
theorem errors_le_without_source :
    let members : List (String × Json) :=
      [("version", .ofNat 8), ("sources", .object []),
        ("layers", .array
          [.object
            [("id", .string "x"), ("type", .string "line"),
              ("filter", .array [.string "all", .bool true])]])]
    (Json.object members).WellFormed ∧
      Style.ofJson .strict (.object members) = .ok (Style.read members) ∧
      ∃ optimized, Style.ofJson .strict (ofJson Pass.all (.object members)).style = .ok optimized ∧
        errorCount (Rule.sourceReference.check {} optimized) ≤
          errorCount (Rule.sourceReference.check {} (Style.read members)) := by
  intro members
  have wf : (Json.object members).WellFormed := by
    simp [members, Json.ofNat, Json.WellFormed, Json.WellFormedMembers, Json.WellFormedItems,
      Members.keys, Number.InWord]
  have accepted : Style.ofJson .strict (.object members) = .ok (Style.read members) := rfl
  obtain ⟨optimized, hoptimized, hle, -⟩ := errors_le wf accepted Pass.all
  exact ⟨wf, accepted, optimized, hoptimized, hle {} .sourceReference⟩

end Optimization

end CartoStyle
