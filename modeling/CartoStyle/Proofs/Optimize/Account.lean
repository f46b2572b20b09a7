import CartoStyle.Proofs.Expression.Text
import CartoStyle.Proofs.Optimize.Commute

set_option autoImplicit false

/-! # What the records of a run account for

A rewriting pass counts nothing exactly when it changes nothing (`Pass.count_eq_zero_iff`): a fold that
changes an expression changes its text as well. What passes count for layers and for sources adds up to
what the whole run took away (`Optimization.countOf_runPasses`), and every record belongs to one step
of the run (`Optimization.records_account`). -/

namespace CartoStyle

-- The empty sum is the numeral, also where monoids have a zero too.
attribute [local instance (high)] Zero.ofOfNat0

/-! ## One pass -/

namespace Layer

/-- No fold is counted just when folding leaves the layer as it is. -/
theorem folded_eq_of_foldCount {l : Layer} (h : l.foldCount = 0) : l.folded = l := by
  refine folded_eq_self fun entry hm => ?_
  rw [foldCount, List.countP_eq_zero] at h
  have htext : (foldAt entry.1 entry.2).text = entry.2.text := by simpa using h entry hm
  rw [foldAt_eq_simplify] at htext
  exact Expression.simplify_eq_self_iff_text.2 htext

end Layer

namespace Pass

open Style

/-- A rewriting pass that counts nothing changes nothing. -/
theorem apply_eq_of_count_eq_zero {pass : Pass} (hpass : pass ≠ .consolidateFilters) {s : Style}
    (h : (pass.apply s).2 = 0) : (pass.apply s).1 = s := by
  cases pass with
  | removeUnusedSources =>
    exact withoutUnusedSources_eq_self ((count_removeUnusedSources_eq_zero_iff s).1 h)
  | removeDuplicateLayers =>
    have hdistinct := (count_removeDuplicateLayers_eq_zero_iff s).1 h
    exact mapLayers_eq_self (distinctBy_eq_self (by simp) hdistinct)
  | simplifyExpressions =>
    have hcounts : ∀ n ∈ s.layerList.map Layer.foldCount, n = 0 :=
      List.sum_eq_zero_iff_forall_eq_nat.1 h
    refine mapLayers_eq_self ((List.map_congr_left fun l hl => ?_).trans (List.map_id _))
    exact Layer.folded_eq_of_foldCount (hcounts _ (List.mem_map_of_mem hl))
  | removeEmptyLayers =>
    exact mapLayers_eq_self (List.filter_eq_self.2 ((count_removeEmptyLayers_eq_zero_iff s).1 h))
  | consolidateFilters => exact absurd rfl hpass

/-- **A rewriting pass counts nothing exactly when it changes nothing.** -/
theorem count_eq_zero_iff {pass : Pass} (hpass : pass ≠ .consolidateFilters) {s : Style} :
    (pass.apply s).2 = 0 ↔ (pass.apply s).1 = s :=
  ⟨apply_eq_of_count_eq_zero hpass, count_eq_zero_of_apply_eq hpass⟩

/-- What a pass that drops layers counts are the layers it drops; other passes drop none. -/
theorem layerCount_apply (pass : Pass) (s : Style) :
    (pass.apply s).1.layerCount +
      (if pass ∈ [removeDuplicateLayers, removeEmptyLayers] then (pass.apply s).2 else 0) =
        s.layerCount := by
  cases pass with
  | removeUnusedSources | consolidateFilters => rfl
  | simplifyExpressions =>
    show (s.mapLayers (·.map Layer.folded)).layerList.length + 0 = _
    rw [layerList_folded, List.length_map]
    rfl
  | removeDuplicateLayers =>
    have hle : s.withoutDuplicateLayers.layerCount ≤ s.layerCount := by
      rw [layerCount, layerList_withoutDuplicateLayers]
      exact (distinctBy_sublist [] _).length_le
    exact Nat.add_sub_of_le hle
  | removeEmptyLayers =>
    have hle : s.withoutEmptyLayers.layerCount ≤ s.layerCount := by
      rw [layerCount, layerList_withoutEmptyLayers]
      exact List.filter_sublist.length_le
    exact Nat.add_sub_of_le hle

/-- The same for sources. -/
theorem sourceCount_apply (pass : Pass) (s : Style) :
    (pass.apply s).1.sourceCount +
      (if pass ∈ [removeUnusedSources] then (pass.apply s).2 else 0) = s.sourceCount := by
  cases pass with
  | removeUnusedSources =>
    have hle : s.withoutUnusedSources.sourceCount ≤ s.sourceCount := by
      rw [sourceCount, sourceList_withoutUnusedSources]
      exact List.filter_sublist.length_le
    exact Nat.add_sub_of_le hle
  | _ => rfl

end Pass

/-! ## Runs -/

namespace Optimization

/-- What the records of some passes count together. -/
def countOf (kinds : List Pass) (records : List PassRecord) : Nat :=
  ((records.filter (·.pass ∈ kinds)).map (·.count)).sum

theorem runPasses_cons (pass : Pass) (rest : List Pass) (s : Style) :
    runPasses (pass :: rest) s =
      ((runPasses rest (pass.apply s).1).1,
        ⟨pass, (pass.apply s).2⟩ :: (runPasses rest (pass.apply s).1).2) := rfl

theorem countOf_cons (kinds : List Pass) (record : PassRecord) (rest : List PassRecord) :
    countOf kinds (record :: rest) =
      (if record.pass ∈ kinds then record.count else 0) + countOf kinds rest := by
  unfold countOf
  rw [List.filter_cons]
  by_cases h : record.pass ∈ kinds <;> simp [h]

/-- Records of passes that counted nothing count nothing together. -/
theorem countOf_zero (kinds passes : List Pass) :
    countOf kinds (passes.map (PassRecord.mk · 0)) = 0 := by
  induction passes with
  | nil => rfl
  | cons pass rest ih =>
    rw [List.map_cons, countOf_cons, ih]
    split <;> rfl

/-- **What passes take away one by one, a run takes away in all.** -/
theorem countOf_runPasses {measure : Style → Nat} {kinds : List Pass}
    (hstep : ∀ pass s, measure (pass.apply s).1 + (if pass ∈ kinds then (pass.apply s).2 else 0) =
      measure s) (passes : List Pass) (s : Style) :
    measure (runPasses passes s).1 + countOf kinds (runPasses passes s).2 = measure s := by
  induction passes generalizing s with
  | nil => rfl
  | cons pass rest ih =>
    have hpass := hstep pass s
    have hrest := ih (pass.apply s).1
    rw [runPasses_cons, countOf_cons]
    dsimp only
    omega

theorem map_pass_runPasses (passes : List Pass) (s : Style) :
    (runPasses passes s).2.map (·.pass) = passes := by
  induction passes generalizing s with
  | nil => rfl
  | cons pass rest ih => exact congrArg (pass :: ·) (ih (pass.apply s).1)

/-- A run of more passes goes on where the first ones ended. -/
theorem runPasses_append (before after : List Pass) (s : Style) :
    runPasses (before ++ after) s =
      ((runPasses after (runPasses before s).1).1,
        (runPasses before s).2 ++ (runPasses after (runPasses before s).1).2) := by
  induction before generalizing s with
  | nil => rfl
  | cons pass rest ih => rw [List.cons_append, runPasses_cons, ih, runPasses_cons, List.cons_append]

theorem length_records_runPasses (passes : List Pass) (s : Style) :
    (runPasses passes s).2.length = passes.length := by
  rw [← List.length_map (f := PassRecord.pass), map_pass_runPasses]

/-- The record of a pass, and what the pass makes of the style that the ones before it made. -/
theorem runPasses_step (before after : List Pass) (pass : Pass) (s : Style) :
    (runPasses (before ++ pass :: after) s).2[before.length]? =
        some ⟨pass, (pass.apply (runPasses before s).1).2⟩ ∧
      (runPasses (before ++ [pass]) s).1 = (pass.apply (runPasses before s).1).1 := by
  rw [runPasses_append, runPasses_append, runPasses_cons, runPasses_cons,
    ← length_records_runPasses before s]
  exact ⟨by simp, rfl⟩

/-! ## Documents -/

section

variable {members : List (String × Json)} (wf : (Json.object members).WellFormed)

include wf

/-- Styles that come of one document by trimming can be told apart when they are written. -/
theorem toJson_inj_of_trims {s t : Style} (hs : (Style.read members).Trims s)
    (ht : (Style.read members).Trims t) : s.toJson = t.toJson ↔ s = t := by
  refine ⟨fun h => ?_, fun h => by rw [h]⟩
  obtain ⟨members₁, hstyle₁, hread₁⟩ := exists_members_of_trims hs wf
  obtain ⟨members₂, hstyle₂, hread₂⟩ := exists_members_of_trims ht wf
  rw [hstyle₁, hstyle₂] at h
  rw [← hread₁, ← hread₂, Json.object.inj h]

/-- A pass of a run leaves the document as it is just when it leaves the style as it is. -/
theorem style_ofJson_step_iff (before : List Pass) (pass : Pass) :
    (ofJson (before ++ [pass]) (.object members)).style = (ofJson before (.object members)).style ↔
      (pass.apply (runPasses before (Style.read members)).1).1 =
        (runPasses before (Style.read members)).1 := by
  rw [← (runPasses_step before [] pass (Style.read members)).2]
  exact toJson_inj_of_trims wf (trims_runPasses _ _) (trims_runPasses _ _)

end

/-- **Reports account for every change.** Every pass has a record, in order. What the records count
    for layers and for sources is what the run took away, the total is what all records count, and
    what the report says is left is what the optimized document holds. A pass that rewrites counts
    nothing exactly when it leaves the document as the passes before it made it, and the pass that
    only reports always does. -/
theorem records_account {value : Json} (wf : value.WellFormed) (passes : List Pass) :
    let o := ofJson passes value
    o.records.map (·.pass) = passes ∧
    o.summary.optimizedLayers + countOf [.removeDuplicateLayers, .removeEmptyLayers] o.records =
      o.summary.originalLayers ∧
    o.summary.optimizedSources + countOf [.removeUnusedSources] o.records =
      o.summary.originalSources ∧
    o.summary.total = (o.records.map (·.count)).sum ∧
    (value.isObject → ∃ s, Style.ofJson .lenient o.style = .ok s ∧
      o.summary.optimizedLayers = s.layerCount ∧ o.summary.optimizedSources = s.sourceCount) ∧
    ∀ before pass after, passes = before ++ pass :: after →
      ∃ count, o.records[before.length]? = some ⟨pass, count⟩ ∧
        (pass ≠ .consolidateFilters →
          (count = 0 ↔ (ofJson (before ++ [pass]) value).style = (ofJson before value).style)) ∧
        (pass = .consolidateFilters →
          (ofJson (before ++ [pass]) value).style = (ofJson before value).style) := by
  cases value with
  | object members =>
    refine ⟨map_pass_runPasses passes _, countOf_runPasses Pass.layerCount_apply passes _,
      countOf_runPasses Pass.sourceCount_apply passes _, rfl, fun _ => ?_, ?_⟩
    · obtain ⟨members', hstyle, hread⟩ :=
        exists_members_of_trims (trims_runPasses passes (Style.read members)) wf
      refine ⟨Style.read members', ?_, ?_, ?_⟩
      · show Style.ofJson .lenient (runPasses passes (Style.read members)).1.toJson = _
        rw [hstyle]
        rfl
      · rw [hread]
        rfl
      · rw [hread]
        rfl
    · rintro before pass after rfl
      obtain ⟨hrecord, -⟩ := runPasses_step before after pass (Style.read members)
      refine ⟨_, hrecord, fun hpass => ?_, ?_⟩
      · rw [Pass.count_eq_zero_iff hpass, style_ofJson_step_iff wf]
      · rintro rfl
        exact (style_ofJson_step_iff wf before _).2 rfl
  | _ =>
    -- What is no object is left as it is, and every record counts nothing.
    refine ⟨by simp [ofJson, Function.comp_def], by simp [ofJson, countOf_zero],
      by simp [ofJson, countOf_zero], by simp [ofJson, Function.comp_def], by simp [Json.isObject], ?_⟩
    rintro before pass after rfl
    exact ⟨0, by simp [ofJson], fun _ => iff_of_true rfl rfl, fun _ => rfl⟩

/-- A source that no layer names, and three layers: one with a constant to fold, a duplicate of it, and
    an empty one. -/
def crowded : Json :=
  let drawn (id : String) : Json :=
    .object
      [("id", .string id), ("source", .string "a"), ("type", .string "fill"),
        ("paint", .object [("fill-antialias", .array [.string "all", .bool true])])]
  .object
    [("sources", .object [("a", .object []), ("b", .object [])]),
      ("layers", .array
        [drawn "x", drawn "y", .object [("id", .string "z"), ("source", .string "a")]])]

theorem crowded_wellFormed : crowded.WellFormed := by
  simp [crowded, Json.WellFormed, Json.WellFormedMembers, Json.WellFormedItems, Members.keys]

/-- Every rewriting pass finds one thing in the crowded style, and nothing when it runs again. -/
theorem records_account_of_crowded :
    let o := ofJson (Pass.all ++ [.removeDuplicateLayers]) crowded
    crowded.WellFormed ∧ o.records.map (·.count) = [1, 1, 1, 1, 0, 0] ∧
      o.summary.optimizedLayers + 2 = o.summary.originalLayers ∧
      o.summary.optimizedSources + 1 = o.summary.originalSources := by
  intro o
  obtain ⟨-, hlayers, hsources, -⟩ :=
    records_account crowded_wellFormed (Pass.all ++ [.removeDuplicateLayers])
  have hcounts : o.records.map (·.count) = [1, 1, 1, 1, 0, 0] := by decide +kernel
  have hdropped : countOf [.removeDuplicateLayers, .removeEmptyLayers] o.records = 2 := by
    decide +kernel
  have hunused : countOf [.removeUnusedSources] o.records = 1 := by decide +kernel
  exact ⟨crowded_wellFormed, hcounts, hdropped ▸ hlayers, hunused ▸ hsources⟩

end Optimization

end CartoStyle
