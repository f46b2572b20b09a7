import CartoStyle.Proofs.Optimize.Settle

set_option autoImplicit false

/-! # Optimizing again

One run of the default passes is not always enough: the layer that drew from a source may be dropped
after unused sources were looked for, and folding may make duplicates after these were dropped. The
two conditions `Style.SourcesDrawn` and `Style.FoldsApart` say exactly when a second run finds
something. After a second run the style is settled, and nothing is left to find. -/

namespace CartoStyle

namespace Style

/-! ## What a default run makes of a style -/

/-- The style after the default passes. -/
def optimized (s : Style) : Style := (Optimization.runPasses Pass.all s).1

theorem layerList_optimized (s : Style) :
    s.optimized.layerList =
      ((distinctBy Layer.signature [] s.layerList).map Layer.folded).filter Layer.Draws := by
  show (s.withoutUnusedSources.withoutDuplicateLayers.mapLayers
    (·.map Layer.folded)).withoutEmptyLayers.layerList = _
  rw [layerList_withoutEmptyLayers, layerList_folded, layerList_withoutDuplicateLayers]
  rfl

theorem sourceList_optimized (s : Style) :
    s.optimized.sourceList = s.sourceList.filter fun entry => s.uses entry.1 :=
  s.sourceList_withoutUnusedSources

theorem mem_layerList_optimized_iff {s : Style} {l : Layer} :
    l ∈ s.optimized.layerList ↔
      ∃ l₀ ∈ distinctBy Layer.signature [] s.layerList, l₀.Draws ∧ l₀.folded = l := by
  rw [layerList_optimized, List.mem_filter, List.mem_map]
  constructor
  · rintro ⟨⟨l₀, hl₀, rfl⟩, hdraws⟩
    exact ⟨l₀, hl₀, by simpa using hdraws, rfl⟩
  · rintro ⟨l₀, hl₀, hdraws, rfl⟩
    exact ⟨⟨l₀, hl₀, rfl⟩, by simpa using hdraws⟩

variable {s : Style}

theorem folded_of_mem_optimized {l : Layer} (h : l ∈ s.optimized.layerList) : l.folded = l := by
  obtain ⟨l₀, -, -, rfl⟩ := mem_layerList_optimized_iff.1 h
  exact l₀.folded_folded

theorem draws_of_mem_optimized {l : Layer} (h : l ∈ s.optimized.layerList) : l.Draws := by
  obtain ⟨l₀, -, hdraws, rfl⟩ := mem_layerList_optimized_iff.1 h
  rwa [Layer.draws_folded]

/-- Every source that layers draw from is one that a layer with something to draw draws from. -/
def SourcesDrawn (s : Style) : Prop :=
  ∀ entry ∈ s.sourceList, s.uses entry.1 → ∃ l ∈ s.layerList, l.Draws ∧ l.source = some entry.1

/-- Folding makes no duplicates among the layers with something to draw. -/
def FoldsApart (s : Style) : Prop :=
  ∀ l ∈ s.layerList, ∀ m ∈ s.layerList, l.Draws → m.Draws →
    l.folded.signature = m.folded.signature → l.signature = m.signature

/-- Of the duplicates of a layer, one is kept. -/
theorem exists_kept {l : Layer} (h : l ∈ s.layerList) :
    ∃ m ∈ distinctBy Layer.signature [] s.layerList, m.signature = l.signature :=
  exists_mem_distinctBy h List.not_mem_nil

section Decoded

variable (decoded : ∀ l ∈ s.layerList, l.Decoded)

include decoded

theorem decoded_of_mem_optimized : ∀ l ∈ s.optimized.layerList, l.Decoded := by
  intro l hl
  obtain ⟨l₀, hl₀, -, rfl⟩ := mem_layerList_optimized_iff.1 hl
  exact (decoded l₀ ((distinctBy_sublist [] _).subset hl₀)).folded

/-- After a default run a source is drawn from when a layer with something to draw drew from it. -/
theorem uses_optimized_iff {name : String} :
    s.optimized.uses name ↔ ∃ l ∈ s.layerList, l.Draws ∧ l.source = some name := by
  rw [uses, List.any_eq_true]
  constructor
  · rintro ⟨l, hl, hsource⟩
    obtain ⟨l₀, hl₀, hdraws, rfl⟩ := mem_layerList_optimized_iff.1 hl
    exact ⟨l₀, (distinctBy_sublist [] _).subset hl₀, hdraws, by simpa using hsource⟩
  · rintro ⟨l, hl, hdraws, hsource⟩
    -- The layer itself may be gone as a duplicate: the one that was kept stands for it.
    obtain ⟨m, hm, hsignature⟩ := exists_kept hl
    have hm' := (distinctBy_sublist [] _).subset hm
    have hmdraws := Layer.draws_eq_of_signature_eq (decoded m hm') (decoded l hl) hsignature
    have hmsource := Layer.source_eq_of_signature_eq (decoded m hm') (decoded l hl) hsignature
    refine ⟨m.folded, mem_layerList_optimized_iff.2 ⟨m, hm, hmdraws.trans hdraws, rfl⟩, ?_⟩
    simp [hmsource, hsource]

theorem pairwise_signature_optimized_iff :
    (s.optimized.layerList.Pairwise fun l m => l.signature ≠ m.signature) ↔ s.FoldsApart := by
  rw [layerList_optimized, List.pairwise_filter, List.pairwise_map]
  simp only [Layer.draws_folded]
  constructor
  · intro hpairwise l hl m hm hldraws hmdraws hsignature
    obtain ⟨l', hl', hlsignature⟩ := exists_kept hl
    obtain ⟨m', hm', hmsignature⟩ := exists_kept hm
    have hl'decoded := decoded l' ((distinctBy_sublist [] _).subset hl')
    have hm'decoded := decoded m' ((distinctBy_sublist [] _).subset hm')
    have hl'draws := Layer.draws_eq_of_signature_eq hl'decoded (decoded l hl) hlsignature
    have hm'draws := Layer.draws_eq_of_signature_eq hm'decoded (decoded m hm) hmsignature
    have hfolded : l'.folded.signature = m'.folded.signature := by
      rw [Layer.signature_folded_eq_of_signature_eq hl'decoded (decoded l hl) hlsignature,
        Layer.signature_folded_eq_of_signature_eq hm'decoded (decoded m hm) hmsignature, hsignature]
    -- Two layers that were kept after folding have different signatures unless they are one.
    by_contra hne
    have hne' : l' ≠ m' := by
      rintro rfl
      exact hne (hlsignature.symm.trans hmsignature)
    have hsymm : Std.Symm fun l m : Layer =>
        l.Draws → m.Draws → l.folded.signature ≠ m.folded.signature :=
      ⟨fun _ _ h hm hl heq => h hl hm heq.symm⟩
    exact hpairwise.forall hl' hm' hne' (hl'draws.trans hldraws) (hm'draws.trans hmdraws) hfolded
  · intro hapart
    refine (pairwise_distinctBy [] s.layerList).imp_of_mem ?_
    intro l m hl hm hne hldraws hmdraws hsignature
    exact hne (hapart l ((distinctBy_sublist [] _).subset hl) m
      ((distinctBy_sublist [] _).subset hm) hldraws hmdraws hsignature)

theorem used_optimized_iff :
    (∀ entry ∈ s.optimized.sourceList, s.optimized.uses entry.1) ↔ s.SourcesDrawn := by
  simp only [sourceList_optimized, List.mem_filter, and_imp, uses_optimized_iff decoded,
    SourcesDrawn]

/-- **Two default runs settle a style.** -/
theorem settled_optimized_optimized : s.optimized.optimized.Settled where
  used := by
    rw [used_optimized_iff (decoded_of_mem_optimized decoded)]
    intro entry _ huses
    obtain ⟨l, hl, hsource⟩ := List.any_eq_true.1 huses
    exact ⟨l, hl, draws_of_mem_optimized hl, by simpa using hsource⟩
  distinct := by
    rw [pairwise_signature_optimized_iff (decoded_of_mem_optimized decoded)]
    intro l hl m hm _ _ hsignature
    rwa [folded_of_mem_optimized hl, folded_of_mem_optimized hm] at hsignature
  folded _ hl := folded_of_mem_optimized hl
  draws _ hl := draws_of_mem_optimized hl

end Decoded

end Style

/-! ## Runs on documents -/

namespace Optimization

open Style

/-- What a pass counted in a run in which every pass is recorded with a count of its own. -/
theorem find?_records {passes : List Pass} {pass : Pass} (h : pass ∈ passes) (count : Pass → Nat) :
    ((passes.map fun p => PassRecord.mk p (count p)).find? (·.pass == pass)).map (·.count) =
      some (count pass) := by
  induction passes with
  | nil => simp at h
  | cons first rest ih =>
    rw [List.map_cons, List.find?_cons]
    by_cases hfirst : first = pass
    · simp [hfirst]
    · have hrest : pass ∈ rest := (List.mem_cons.1 h).resolve_left (Ne.symm hfirst)
      rw [beq_false_of_ne hfirst]
      exact ih hrest

theorem mem_all (pass : Pass) : pass ∈ Pass.all := by
  cases pass <;> decide

variable {members : List (String × Json)}

theorem exists_members_of_trims {s : Style} (h : (Style.read members).Trims s)
    (wf : (Json.object members).WellFormed) :
    ∃ members', s.toJson = .object members' ∧ Style.read members' = s :=
  ⟨_, h.toJson_eq wf, h.read_eq wf⟩

/-! ### The second run -/

theorem count?_simplifyExpressions_eq_zero
    (h : ∀ l ∈ (Style.read members).layerList, l.folded = l) :
    (ofJson Pass.all (.object members)).count? .simplifyExpressions = some 0 := by
  refine congrArg some (Pass.count_simplifyExpressions_eq_zero _ ?_)
  intro l hl
  exact h l ((distinctBy_sublist [] _).subset (layerList_withoutDuplicateLayers _ ▸ hl))

theorem count?_removeEmptyLayers_eq_zero (h : ∀ l ∈ (Style.read members).layerList, l.Draws) :
    (ofJson Pass.all (.object members)).count? .removeEmptyLayers = some 0 := by
  refine congrArg some ((Pass.count_removeEmptyLayers_eq_zero_iff _).2 ?_)
  intro l hl
  rw [layerList_folded, layerList_withoutDuplicateLayers] at hl
  obtain ⟨l₀, hl₀, rfl⟩ := List.mem_map.1 hl
  rw [Layer.draws_folded]
  exact h l₀ ((distinctBy_sublist [] _).subset hl₀)

theorem count?_removeUnusedSources_eq_zero_iff :
    (ofJson Pass.all (.object members)).count? .removeUnusedSources = some 0 ↔
      ∀ entry ∈ (Style.read members).sourceList, (Style.read members).uses entry.1 := by
  rw [← Pass.count_removeUnusedSources_eq_zero_iff]
  exact Option.some_inj

theorem count?_removeDuplicateLayers_eq_zero_iff :
    (ofJson Pass.all (.object members)).count? .removeDuplicateLayers = some 0 ↔
      (Style.read members).layerList.Pairwise fun l m => l.signature ≠ m.signature := by
  show some (Pass.removeDuplicateLayers.apply (Style.read members).withoutUnusedSources).2 = some 0 ↔ _
  rw [Option.some_inj, Pass.count_removeDuplicateLayers_eq_zero_iff]
  rfl

/-- A first run, seen from the second one. -/
theorem exists_first_run (wf : (Json.object members).WellFormed) :
    ∃ members', (ofJson Pass.all (.object members)).style = .object members' ∧
      Style.read members' = (Style.read members).optimized :=
  exists_members_of_trims (trims_runPasses Pass.all (Style.read members)) wf

section SecondRun

variable (wf : (Json.object members).WellFormed)

include wf

theorem rerun_removeUnusedSources_iff :
    (ofJson Pass.all (ofJson Pass.all (.object members)).style).count? .removeUnusedSources =
      some 0 ↔ (Style.read members).SourcesDrawn := by
  obtain ⟨members', hstyle, hread⟩ := exists_first_run wf
  rw [hstyle, count?_removeUnusedSources_eq_zero_iff, hread,
    used_optimized_iff fun _ => decoded_of_mem_layerList wf]

theorem rerun_removeDuplicateLayers_iff :
    (ofJson Pass.all (ofJson Pass.all (.object members)).style).count? .removeDuplicateLayers =
      some 0 ↔ (Style.read members).FoldsApart := by
  obtain ⟨members', hstyle, hread⟩ := exists_first_run wf
  rw [hstyle, count?_removeDuplicateLayers_eq_zero_iff, hread,
    pairwise_signature_optimized_iff fun _ => decoded_of_mem_layerList wf]

theorem rerun_simplifyExpressions :
    (ofJson Pass.all (ofJson Pass.all (.object members)).style).count? .simplifyExpressions =
      some 0 := by
  obtain ⟨members', hstyle, hread⟩ := exists_first_run wf
  rw [hstyle]
  apply count?_simplifyExpressions_eq_zero
  rw [hread]
  exact fun _ => folded_of_mem_optimized

theorem rerun_removeEmptyLayers :
    (ofJson Pass.all (ofJson Pass.all (.object members)).style).count? .removeEmptyLayers =
      some 0 := by
  obtain ⟨members', hstyle, hread⟩ := exists_first_run wf
  rw [hstyle]
  apply count?_removeEmptyLayers_eq_zero
  rw [hread]
  exact fun _ => draws_of_mem_optimized

end SecondRun

/-- **What a second run finds.** Never a constant to fold or an empty layer, but sources of layers
    that the first run dropped as empty, and layers that it made duplicates by folding. -/
theorem count?_second_run {value : Json} (wf : value.WellFormed) :
    let second := ofJson Pass.all (ofJson Pass.all value).style
    second.count? .simplifyExpressions = some 0 ∧
    second.count? .removeEmptyLayers = some 0 ∧
    (second.count? .removeUnusedSources = some 0 ↔
      ∀ s, Style.ofJson .lenient value = .ok s → s.SourcesDrawn) ∧
    (second.count? .removeDuplicateLayers = some 0 ↔
      ∀ s, Style.ofJson .lenient value = .ok s → s.FoldsApart) := by
  cases value with
  | object members =>
    have hread : ∀ {P : Style → Prop}, P (Style.read members) ↔
        ∀ s, Style.ofJson .lenient (.object members) = .ok s → P s := by
      intro P
      constructor
      · intro h s hs
        exact Except.ok.inj hs ▸ h
      · intro h
        exact h _ rfl
    exact ⟨rerun_simplifyExpressions wf, rerun_removeEmptyLayers wf,
      (rerun_removeUnusedSources_iff wf).trans hread,
      (rerun_removeDuplicateLayers_iff wf).trans hread⟩
  | _ => refine ⟨rfl, rfl, iff_of_true rfl ?_, iff_of_true rfl ?_⟩ <;> simp [Style.ofJson]

/-- A layer that is dropped as empty leaves its source behind. -/
def emptied : Json :=
  .object
    [("layers", .array
        [.object [("id", .string "x"), ("source", .string "a"), ("type", .string "fill")]]),
      ("sources", .object [("a", .object [("type", .string "geojson")])]),
      ("version", .ofNat 8)]

/-- Two layers that folding makes equal but for their ids. -/
def mergedByFolding : Json :=
  .object
    [("layers", .array
        [.object
          [("filter", .array [.string "all", .bool true]), ("id", .string "x"),
            ("type", .string "background")],
        .object
          [("filter", .array [.string "!", .bool false]), ("id", .string "y"),
            ("type", .string "background")]]),
      ("sources", .object []), ("version", .ofNat 8)]

theorem emptied_wellFormed : emptied.WellFormed := by
  simp [emptied, Json.ofNat, Json.WellFormed, Json.WellFormedMembers, Json.WellFormedItems,
    Members.keys, Number.InWord]

theorem mergedByFolding_wellFormed : mergedByFolding.WellFormed := by
  simp [mergedByFolding, Json.ofNat, Json.WellFormed, Json.WellFormedMembers, Json.WellFormedItems,
    Members.keys, Number.InWord]

/-- One run does not always settle a style. -/
theorem second_run_finds_more :
    (emptied.WellFormed ∧
      (ofJson Pass.all (ofJson Pass.all emptied).style).count? .removeUnusedSources = some 1) ∧
    (mergedByFolding.WellFormed ∧
      (ofJson Pass.all (ofJson Pass.all mergedByFolding).style).count? .removeDuplicateLayers =
        some 1) := by
  refine ⟨⟨emptied_wellFormed, ?_⟩, ⟨mergedByFolding_wellFormed, ?_⟩⟩
  · rfl
  · rfl

/-- The source of the emptied layer is not drawn from, and that is why. -/
theorem second_run_of_emptied :
    emptied.WellFormed ∧ ¬∀ s, Style.ofJson .lenient emptied = .ok s → s.SourcesDrawn := by
  refine ⟨emptied_wellFormed, fun h => ?_⟩
  have hcount := (count?_second_run emptied_wellFormed).2.2.1.2 h
  exact absurd hcount (by decide +kernel)

/-! ### The third run -/

/-- A settled document is left as it is, and nothing is found in it. -/
theorem ofJson_of_settled (settled : (Style.read members).Settled)
    (written : (Style.read members).toJson = .object members) :
    (ofJson Pass.all (.object members)).style = .object members ∧
      ∀ pass : Pass, pass ≠ .consolidateFilters →
        (ofJson Pass.all (.object members)).count? pass = some 0 := by
  have hruns := settled.runPasses_eq Pass.all
  refine ⟨?_, fun pass hpass => ?_⟩
  · show (runPasses Pass.all (Style.read members)).1.toJson = _
    rw [hruns, written]
  · show ((runPasses Pass.all (Style.read members)).2.find? (·.pass == pass)).map (·.count) = _
    rw [hruns, find?_records (mem_all pass), settled.count_eq_zero hpass]

/-- A second run, seen from the third one. -/
theorem exists_second_run (wf : (Json.object members).WellFormed) :
    ∃ members', (ofJson Pass.all (ofJson Pass.all (.object members)).style).style =
        .object members' ∧
      (Style.read members').toJson = .object members' ∧ (Style.read members').Settled := by
  have hfirst := trims_runPasses Pass.all (Style.read members)
  have hsecond := hfirst.trans (trims_runPasses Pass.all (Style.read members).optimized)
  obtain ⟨members₁, hstyle₁, hread₁⟩ := exists_first_run wf
  obtain ⟨members₂, hstyle₂, hread₂⟩ := exists_members_of_trims hsecond wf
  refine ⟨members₂, ?_, ?_, ?_⟩
  · rw [hstyle₁]
    show (runPasses Pass.all (Style.read members₁)).1.toJson = _
    rw [hread₁, hstyle₂]
  · rw [hread₂, hstyle₂]
  · rw [hread₂]
    exact settled_optimized_optimized fun _ => decoded_of_mem_layerList wf

/-- **A third run finds nothing and changes nothing.** -/
theorem third_run_fixed {value : Json} (wf : value.WellFormed) :
    let second := ofJson Pass.all (ofJson Pass.all value).style
    let third := ofJson Pass.all second.style
    third.style = second.style ∧
      ∀ pass : Pass, pass ≠ .consolidateFilters → third.count? pass = some 0 := by
  cases value with
  | object members =>
    obtain ⟨members', hstyle, hwritten, hsettled⟩ := exists_second_run wf
    dsimp only
    rw [hstyle]
    exact ofJson_of_settled hsettled hwritten
  | _ =>
    refine ⟨rfl, fun pass _ => ?_⟩
    exact find?_records (mem_all pass) fun _ => 0

/-- The style that keeps an unused source after one run is settled after two. -/
theorem third_run_of_emptied :
    emptied.WellFormed ∧
      (ofJson Pass.all (ofJson Pass.all (ofJson Pass.all emptied).style).style).count?
        .removeUnusedSources = some 0 :=
  ⟨emptied_wellFormed, (third_run_fixed emptied_wellFormed).2 .removeUnusedSources (by decide)⟩

end Optimization

end CartoStyle
