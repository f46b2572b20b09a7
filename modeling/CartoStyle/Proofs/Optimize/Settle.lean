import CartoStyle.Proofs.Optimize.Signature
import CartoStyle.Proofs.Optimize.Trim

set_option autoImplicit false

/-! # Styles that optimization leaves alone

A style is `Settled` when each of the rewriting passes finds nothing to do. Any run of passes leaves
such a style as it is, and none of them counts anything (`Settled.runPasses_eq`). Below that, what
the count of a pass says about the style it ran on. -/

namespace CartoStyle

namespace Style

/-! ## Counts -/

theorem layerList_mapLayers {change : List Layer → List Layer} (hnil : change [] = []) (s : Style) :
    (s.mapLayers change).layerList = change s.layerList := by
  cases h : s.layers with
  | none => simp [mapLayers, layerList, h, hnil]
  | some list => simp [mapLayers, layerList, h]

theorem layerList_withoutDuplicateLayers (s : Style) :
    s.withoutDuplicateLayers.layerList = distinctBy Layer.signature [] s.layerList :=
  layerList_mapLayers rfl s

theorem layerList_folded (s : Style) :
    (s.mapLayers (·.map Layer.folded)).layerList = s.layerList.map Layer.folded :=
  layerList_mapLayers rfl s

theorem layerList_withoutEmptyLayers (s : Style) :
    s.withoutEmptyLayers.layerList = s.layerList.filter Layer.Draws :=
  layerList_mapLayers rfl s

theorem sourceList_withoutUnusedSources (s : Style) :
    s.withoutUnusedSources.sourceList = s.sourceList.filter fun entry => s.uses entry.1 := by
  cases h : s.sources <;> simp [withoutUnusedSources, sourceList, h]

end Style

namespace Pass

open Style

variable (s : Style)

/-- Nothing is dropped from a list exactly when its sublist is as long. -/
theorem length_sub_eq_zero_iff {α : Type} {kept all : List α} (h : kept.Sublist all) :
    all.length - kept.length = 0 ↔ kept = all := by
  constructor
  · intro hsub
    exact h.eq_of_length_le (by omega)
  · rintro rfl
    exact Nat.sub_self _

theorem count_removeUnusedSources_eq_zero_iff :
    (removeUnusedSources.apply s).2 = 0 ↔ ∀ entry ∈ s.sourceList, s.uses entry.1 := by
  show s.sourceCount - s.withoutUnusedSources.sourceCount = 0 ↔ _
  rw [sourceCount, sourceCount, sourceList_withoutUnusedSources,
    length_sub_eq_zero_iff List.filter_sublist, List.filter_eq_self]

theorem count_removeDuplicateLayers_eq_zero_iff :
    (removeDuplicateLayers.apply s).2 = 0 ↔
      s.layerList.Pairwise fun l m => l.signature ≠ m.signature := by
  show s.layerCount - s.withoutDuplicateLayers.layerCount = 0 ↔ _
  rw [layerCount, layerCount, layerList_withoutDuplicateLayers,
    length_sub_eq_zero_iff (distinctBy_sublist [] _)]
  constructor
  · intro h
    exact h ▸ pairwise_distinctBy [] _
  · intro h
    exact distinctBy_eq_self (by simp) h

theorem count_removeEmptyLayers_eq_zero_iff :
    (removeEmptyLayers.apply s).2 = 0 ↔ ∀ l ∈ s.layerList, l.Draws := by
  show s.layerCount - s.withoutEmptyLayers.layerCount = 0 ↔ _
  rw [layerCount, layerCount, layerList_withoutEmptyLayers,
    length_sub_eq_zero_iff List.filter_sublist, List.filter_eq_self]

/-- Folded layers have nothing left to fold. -/
theorem count_simplifyExpressions_eq_zero (h : ∀ l ∈ s.layerList, l.folded = l) :
    (simplifyExpressions.apply s).2 = 0 := by
  show (s.layerList.map Layer.foldCount).sum = 0
  rw [List.sum_eq_zero_iff_forall_eq_nat]
  intro n hn
  obtain ⟨l, hl, rfl⟩ := List.mem_map.1 hn
  rw [← h l hl, Layer.foldCount_folded]

end Pass

/-! ## Settled styles -/

namespace Style

variable {s : Style}

theorem mapLayers_eq_self {change : List Layer → List Layer}
    (hchange : change s.layerList = s.layerList) : s.mapLayers change = s := by
  have hlayers : s.layers.map change = s.layers := by
    cases hl : s.layers with
    | none => rfl
    | some list =>
      rw [layerList, hl] at hchange
      exact congrArg some hchange
  rw [mapLayers, hlayers]

theorem withoutUnusedSources_eq_self (hused : ∀ entry ∈ s.sourceList, s.uses entry.1) :
    s.withoutUnusedSources = s := by
  have hsources : s.sources.map (·.filter fun entry => s.uses entry.1) = s.sources := by
    cases hs : s.sources with
    | none => rfl
    | some list =>
      rw [sourceList, hs] at hused
      exact congrArg some (List.filter_eq_self.2 hused)
  rw [withoutUnusedSources, hsources]

/-- A style in which the rewriting passes find nothing to do. -/
structure Settled (s : Style) : Prop where
  used : ∀ entry ∈ s.sourceList, s.uses entry.1
  distinct : s.layerList.Pairwise fun l m => l.signature ≠ m.signature
  folded : ∀ l ∈ s.layerList, l.folded = l
  draws : ∀ l ∈ s.layerList, l.Draws

namespace Settled

variable (h : s.Settled)

include h

theorem count_eq_zero {pass : Pass} (hpass : pass ≠ .consolidateFilters) :
    (pass.apply s).2 = 0 := by
  cases pass with
  | removeUnusedSources => exact (Pass.count_removeUnusedSources_eq_zero_iff s).2 h.used
  | removeDuplicateLayers => exact (Pass.count_removeDuplicateLayers_eq_zero_iff s).2 h.distinct
  | simplifyExpressions => exact Pass.count_simplifyExpressions_eq_zero s h.folded
  | removeEmptyLayers => exact (Pass.count_removeEmptyLayers_eq_zero_iff s).2 h.draws
  | consolidateFilters => exact absurd rfl hpass

theorem apply_eq (pass : Pass) : (pass.apply s).1 = s := by
  cases pass with
  | removeUnusedSources => exact withoutUnusedSources_eq_self h.used
  | removeDuplicateLayers => exact mapLayers_eq_self (distinctBy_eq_self (by simp) h.distinct)
  | simplifyExpressions =>
    exact mapLayers_eq_self ((List.map_congr_left h.folded).trans (List.map_id _))
  | removeEmptyLayers => exact mapLayers_eq_self (List.filter_eq_self.2 h.draws)
  | consolidateFilters => rfl

/-- **No run of passes changes a settled style.** Each pass counts as if it ran first. -/
theorem runPasses_eq (passes : List Pass) :
    Optimization.runPasses passes s = (s, passes.map fun pass => ⟨pass, (pass.apply s).2⟩) := by
  induction passes with
  | nil => rfl
  | cons pass rest ih =>
    have hpass := h.apply_eq pass
    rw [Optimization.runPasses]
    simp only [hpass, ih, List.map_cons]

end Settled

end Style

end CartoStyle
