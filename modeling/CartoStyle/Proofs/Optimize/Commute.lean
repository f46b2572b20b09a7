import CartoStyle.Proofs.Optimize.Rerun

set_option autoImplicit false

/-! # Passes in another order

A pass finds nothing to do right after itself (`Pass.apply_apply`). Which of two passes runs first does
not matter for most pairs: dropping duplicates and folding keep what layers draw from, duplicates draw
alike, and folding neither empties a layer nor fills one (`Pass.commute`). Two pairs interfere, as one of
them makes work for the other: a layer that is dropped as empty may leave a source unused, and folding
may make duplicates (`Pass.not_commute`). -/

namespace CartoStyle

namespace Style

/-! ## Changes to layers -/

theorem mapLayers_mapLayers (first second : List Layer → List Layer) (s : Style) :
    (s.mapLayers first).mapLayers second = s.mapLayers (second ∘ first) := by
  simp [mapLayers, Option.map_map]

/-- Changes that make the same of the layers of a style make the same of the style. -/
theorem mapLayers_congr {change other : List Layer → List Layer} {s : Style}
    (h : change s.layerList = other s.layerList) : s.mapLayers change = s.mapLayers other := by
  cases hl : s.layers with
  | none => simp [mapLayers, hl]
  | some list =>
    rw [layerList, hl, Option.getD_some] at h
    simp [mapLayers, hl, h]

/-- Unused sources can be dropped before or after a change that keeps what layers draw from. -/
theorem withoutUnusedSources_mapLayers {change : List Layer → List Layer} {s : Style}
    (h : (s.mapLayers change).uses = s.uses) :
    (s.mapLayers change).withoutUnusedSources = s.withoutUnusedSources.mapLayers change := by
  rw [withoutUnusedSources, h]
  rfl

theorem uses_mapLayers_folded (s : Style) : (s.mapLayers (·.map Layer.folded)).uses = s.uses := by
  funext name
  rw [uses, layerList_folded, List.any_map]
  rfl

variable {s : Style} (decoded : ∀ l ∈ s.layerList, l.Decoded)

include decoded

/-- Of the layers that draw from a source, one is left when duplicates are dropped. -/
theorem uses_withoutDuplicateLayers : s.withoutDuplicateLayers.uses = s.uses := by
  funext name
  rw [Bool.eq_iff_iff, uses, uses, layerList_withoutDuplicateLayers, List.any_eq_true,
    List.any_eq_true]
  constructor
  · rintro ⟨l, hl, hsource⟩
    exact ⟨l, (distinctBy_sublist [] _).subset hl, hsource⟩
  · rintro ⟨l, hl, hsource⟩
    obtain ⟨m, hm, hsignature⟩ := exists_kept hl
    have hsame := Layer.source_eq_of_signature_eq
      (decoded m ((distinctBy_sublist [] _).subset hm)) (decoded l hl) hsignature
    exact ⟨m, hm, by rwa [hsame]⟩

/-- Empty layers can be dropped before or after duplicates, as duplicates draw alike. -/
theorem withoutDuplicateLayers_withoutEmptyLayers :
    s.withoutEmptyLayers.withoutDuplicateLayers = s.withoutDuplicateLayers.withoutEmptyLayers := by
  rw [withoutEmptyLayers, withoutDuplicateLayers, mapLayers_mapLayers, withoutDuplicateLayers,
    withoutEmptyLayers, mapLayers_mapLayers]
  refine mapLayers_congr (distinctBy_filter [] fun l hl m hm hsignature => ?_)
  exact Layer.draws_eq_of_signature_eq (decoded l hl) (decoded m hm) hsignature

omit decoded in
/-- Empty layers can be dropped before or after folding. -/
theorem mapLayers_folded_withoutEmptyLayers :
    s.withoutEmptyLayers.mapLayers (·.map Layer.folded) =
      (s.mapLayers (·.map Layer.folded)).withoutEmptyLayers := by
  rw [withoutEmptyLayers, withoutEmptyLayers, mapLayers_mapLayers, mapLayers_mapLayers]
  refine mapLayers_congr ?_
  show (s.layerList.filter Layer.Draws).map _ = (s.layerList.map _).filter Layer.Draws
  rw [List.filter_map]
  congr 2
  funext l
  exact l.draws_folded.symm

end Style

namespace Pass

open Style

/-! ## One pass twice -/

/-- Right after itself a pass changes nothing. -/
theorem apply_apply_fst (pass : Pass) (s : Style) :
    (pass.apply (pass.apply s).1).1 = (pass.apply s).1 := by
  cases pass with
  | removeUnusedSources =>
    refine withoutUnusedSources_eq_self fun entry hm => ?_
    have hm' : entry ∈ s.withoutUnusedSources.sourceList := hm
    rw [sourceList_withoutUnusedSources] at hm'
    exact (List.mem_filter.1 hm').2
  | removeDuplicateLayers =>
    refine mapLayers_eq_self ?_
    show distinctBy _ _ s.withoutDuplicateLayers.layerList = s.withoutDuplicateLayers.layerList
    rw [layerList_withoutDuplicateLayers, distinctBy_distinctBy]
  | simplifyExpressions =>
    refine mapLayers_eq_self ?_
    show (s.mapLayers (·.map Layer.folded)).layerList.map _ =
      (s.mapLayers (·.map Layer.folded)).layerList
    rw [layerList_folded]
    simp [Function.comp_def]
  | removeEmptyLayers =>
    refine mapLayers_eq_self ?_
    show s.withoutEmptyLayers.layerList.filter Layer.Draws = s.withoutEmptyLayers.layerList
    rw [layerList_withoutEmptyLayers]
    simp
  | consolidateFilters => rfl

/-- What a rewriting pass counts is nothing when it changes nothing. -/
theorem count_eq_zero_of_apply_eq {pass : Pass} (hpass : pass ≠ .consolidateFilters) {s : Style}
    (h : (pass.apply s).1 = s) : (pass.apply s).2 = 0 := by
  cases pass with
  | removeUnusedSources =>
    show s.sourceCount - s.withoutUnusedSources.sourceCount = 0
    rw [show s.withoutUnusedSources = s from h, Nat.sub_self]
  | removeDuplicateLayers =>
    show s.layerCount - s.withoutDuplicateLayers.layerCount = 0
    rw [show s.withoutDuplicateLayers = s from h, Nat.sub_self]
  | simplifyExpressions =>
    have hlayers := congrArg layerList h
    rw [show (simplifyExpressions.apply s).1 = s.mapLayers (·.map Layer.folded) from rfl,
      layerList_folded] at hlayers
    refine count_simplifyExpressions_eq_zero s fun l hl => ?_
    exact List.map_inj_left.1 (hlayers.trans (List.map_id _).symm) l hl
  | removeEmptyLayers =>
    show s.layerCount - s.withoutEmptyLayers.layerCount = 0
    rw [show s.withoutEmptyLayers = s from h, Nat.sub_self]
  | consolidateFilters => exact absurd rfl hpass

/-- **Right after itself a pass finds nothing and changes nothing.** -/
theorem apply_apply {pass : Pass} (hpass : pass ≠ .consolidateFilters) (s : Style) :
    pass.apply (pass.apply s).1 = ((pass.apply s).1, 0) := by
  have hfst := apply_apply_fst pass s
  exact Prod.ext hfst (count_eq_zero_of_apply_eq hpass hfst)

/-! ## Two passes -/

/-- Whether one of two passes makes work for the other, so that it matters which runs first. -/
def interferes : Pass → Pass → Bool
  | .removeUnusedSources, .removeEmptyLayers | .removeEmptyLayers, .removeUnusedSources => true
  | .removeDuplicateLayers, .simplifyExpressions | .simplifyExpressions, .removeDuplicateLayers => true
  | _, _ => false

/-- Passes that do not interfere can run in either order on a style that was decoded. -/
theorem commute {first second : Pass} (h : first.interferes second = false) {s : Style}
    (decoded : ∀ l ∈ s.layerList, l.Decoded) :
    (second.apply (first.apply s).1).1 = (first.apply (second.apply s).1).1 := by
  have hduplicates : s.withoutUnusedSources.withoutDuplicateLayers =
      s.withoutDuplicateLayers.withoutUnusedSources :=
    (withoutUnusedSources_mapLayers (uses_withoutDuplicateLayers decoded)).symm
  have hfolded : s.withoutUnusedSources.mapLayers (·.map Layer.folded) =
      (s.mapLayers (·.map Layer.folded)).withoutUnusedSources :=
    (withoutUnusedSources_mapLayers s.uses_mapLayers_folded).symm
  have hempty := withoutDuplicateLayers_withoutEmptyLayers decoded
  have hdraws := mapLayers_folded_withoutEmptyLayers (s := s)
  cases first with
  | removeUnusedSources =>
    cases second with
    | removeUnusedSources | consolidateFilters => rfl
    | removeDuplicateLayers => exact hduplicates
    | simplifyExpressions => exact hfolded
    | removeEmptyLayers => simp [interferes] at h
  | removeDuplicateLayers =>
    cases second with
    | removeDuplicateLayers | consolidateFilters => rfl
    | removeUnusedSources => exact hduplicates.symm
    | simplifyExpressions => simp [interferes] at h
    | removeEmptyLayers => exact hempty.symm
  | simplifyExpressions =>
    cases second with
    | simplifyExpressions | consolidateFilters => rfl
    | removeUnusedSources => exact hfolded.symm
    | removeDuplicateLayers => simp [interferes] at h
    | removeEmptyLayers => exact hdraws.symm
  | removeEmptyLayers =>
    cases second with
    | removeEmptyLayers | consolidateFilters => rfl
    | removeUnusedSources => simp [interferes] at h
    | removeDuplicateLayers => exact hempty
    | simplifyExpressions => exact hdraws
  | consolidateFilters => rfl

/-- Passes that interfere tell a style apart in which a layer is emptied, or two are merged. -/
theorem not_commute {first second : Pass} (h : first.interferes second = true) :
    ∃ value : Json, value.WellFormed ∧ ∃ s, Style.ofJson .lenient value = .ok s ∧
      (second.apply (first.apply s).1).1 ≠ (first.apply (second.apply s).1).1 := by
  have hsources : ∃ s, Style.ofJson .lenient Optimization.emptied = .ok s ∧
      s.withoutUnusedSources.withoutEmptyLayers ≠ s.withoutEmptyLayers.withoutUnusedSources := by
    refine ⟨_, rfl, fun h => ?_⟩
    exact absurd (congrArg Style.sourceCount h) (by decide +kernel)
  have hlayers : ∃ s, Style.ofJson .lenient Optimization.mergedByFolding = .ok s ∧
      s.withoutDuplicateLayers.mapLayers (·.map Layer.folded) ≠
        (s.mapLayers (·.map Layer.folded)).withoutDuplicateLayers := by
    refine ⟨_, rfl, fun h => ?_⟩
    exact absurd (congrArg Style.layerCount h) (by decide +kernel)
  obtain ⟨s, hs, hnes⟩ := hsources
  obtain ⟨t, ht, hnet⟩ := hlayers
  unfold interferes at h
  split at h
  · exact ⟨_, Optimization.emptied_wellFormed, s, hs, hnes⟩
  · exact ⟨_, Optimization.emptied_wellFormed, s, hs, hnes.symm⟩
  · exact ⟨_, Optimization.mergedByFolding_wellFormed, t, ht, hnet⟩
  · exact ⟨_, Optimization.mergedByFolding_wellFormed, t, ht, hnet.symm⟩
  · simp at h

/-- **The algebra of the passes.** Right after itself a pass finds nothing and changes nothing, the
    pass that only reports apart. Two passes make the same of every decoded style in either order
    exactly when they do not interfere. -/
theorem twice_and_commute_iff (first second : Pass) :
    (first ≠ .consolidateFilters → ∀ s : Style,
      first.apply (first.apply s).1 = ((first.apply s).1, 0)) ∧
    ((∀ mode value s, value.WellFormed → Style.ofJson mode value = .ok s →
      (second.apply (first.apply s).1).1 = (first.apply (second.apply s).1).1) ↔
        first.interferes second = false) := by
  refine ⟨apply_apply, fun h => ?_, fun h mode value s wf hs => ?_⟩
  · by_contra hinterferes
    obtain ⟨value, wf, s, hs, hne⟩ := not_commute (by simpa using hinterferes)
    exact hne (h .lenient value s wf hs)
  · obtain ⟨members, rfl, rfl⟩ := ofJson_eq_ok hs
    exact commute h fun _ => decoded_of_mem_layerList wf

end Pass

end CartoStyle
