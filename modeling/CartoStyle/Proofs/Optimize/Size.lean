import CartoStyle.Proofs.Optimize.Account
import CartoStyle.Proofs.Optimize.Frame

set_option autoImplicit false

/-! # The size of an optimized document

All that optimization may do to a document, as the frame has it, makes its text shorter or is nothing
(`Optimization.shortened_ofJson`). So a run that saves no byte has left the document as it is, and as
steps that trim cannot undo each other (`Style.Trims.antisymm`), so has every pass of it
(`Optimization.smaller_or_unchanged`). -/

namespace CartoStyle

/-! ## Changes within the frame -/

namespace Json

theorem MembersRelated.shortened {related : String → Json → Json → Prop}
    {before after : List (String × Json)} (h : MembersRelated related before after)
    (hrelated : ∀ key a b, related key a b → Shortened a b) :
    Shortened (.object before) (.object after) :=
  Shortened.object (List.Sublist.refl _) (h.imp fun _ _ hm => ⟨hm.1, hrelated _ _ _ hm.2⟩)

theorem PropertyFrame.shortened {before after : Json} (h : PropertyFrame before after) :
    Shortened before after := by
  rcases h with rfl | ⟨-, rfl⟩
  · exact .refl _
  · exact shortened_folded _

theorem LayerMemberFrame.shortened {key : String} {before after : Json}
    (h : LayerMemberFrame key before after) : Shortened before after := by
  rcases h with rfl | ⟨-, -, rfl⟩ | ⟨-, properties, properties', rfl, rfl, hproperties⟩
  · exact .refl _
  · exact shortened_folded _
  · exact hproperties.shortened fun _ _ _ => PropertyFrame.shortened

theorem LayerFrame.shortened {before after : Json} (h : LayerFrame before after) :
    Shortened before after := by
  obtain ⟨members, members', rfl, rfl, hmembers⟩ := h
  exact hmembers.shortened fun _ _ _ => LayerMemberFrame.shortened

theorem SourcesFrame.shortened {before after : Json} (h : SourcesFrame before after) :
    Shortened before after := by
  by_cases hsources : IsSources before
  · obtain ⟨entries, kept, rfl, rfl, hkept⟩ := h.1 hsources
    exact Shortened.object hkept (List.forall₂_same.2 fun _ _ => ⟨rfl, .refl _⟩)
  · exact Or.inl (h.2 hsources)

theorem LayersFrame.shortened {before after : Json} (h : LayersFrame before after) :
    Shortened before after := by
  by_cases hlayers : IsLayers before
  · obtain ⟨items, kept, items', rfl, rfl, hkept, hitems⟩ := h.1 hlayers
    exact Shortened.array hkept (hitems.imp fun _ _ => LayerFrame.shortened)
  · exact Or.inl (h.2 hlayers)

theorem DocumentMemberFrame.shortened {key : String} {before after : Json}
    (h : DocumentMemberFrame key before after) : Shortened before after := by
  obtain ⟨hsources, hlayers, hother⟩ := h
  by_cases hkey : key = "sources"
  · exact (hsources hkey).shortened
  by_cases hkey' : key = "layers"
  · exact (hlayers hkey').shortened
  exact Or.inl (hother hkey hkey')

end Json

/-! ## Trimming back -/

namespace Style.Trims

variable {a b : Style}

theorem sources_eq (hab : a.Trims b) (hba : b.Trims a) : b.sources = a.sources := by
  obtain ⟨keep, hb, -⟩ := hab.sources
  obtain ⟨keep', ha, -⟩ := hba.sources
  cases hsources : a.sources with
  | none => rw [hb, hsources, Option.map_none]
  | some list =>
    rw [hsources, Option.map_some] at hb
    rw [hb, hsources, Option.map_some, Option.some_inj] at ha
    have hle : list.length ≤ (list.filter fun entry => keep entry.1).length :=
      (congrArg List.length ha).le.trans List.filter_sublist.length_le
    rw [hb, List.filter_sublist.eq_of_length_le hle]

theorem layers_eq (hab : a.Trims b) (hba : b.Trims a) : b.layers = a.layers := by
  obtain ⟨kept, change, hkept, hb⟩ := hab.layers
  obtain ⟨kept', change', hkept', ha⟩ := hba.layers
  cases hlayers : a.layers with
  | none => rw [hb, hlayers, Option.map_none]
  | some list =>
    rw [hlayers, Option.map_some] at hb
    rw [hb, hlayers, Option.map_some, Option.some_inj] at ha
    rw [layerList, hlayers, Option.getD_some] at hkept
    rw [layerList, hb, Option.getD_some] at hkept'
    -- Both steps keep every layer, as the second one ends with as many as the first began with.
    have hlength : list.length = kept'.length := by
      rw [congrArg List.length ha, List.length_map]
    have hle' : kept'.length ≤ kept.length := by simpa using hkept'.length_le
    obtain rfl : kept = list := hkept.eq_of_length_le (hlength.le.trans hle')
    obtain rfl : kept' = kept.map change.apply := by
      refine hkept'.eq_of_length_le ?_
      rw [List.length_map, hlength]
    rw [hb]
    cases change with
    | keep => rw [LayerChange.map_apply_keep]
    | fold =>
      cases change' with
      | keep =>
        rw [LayerChange.map_apply_keep] at ha
        exact congrArg some ha.symm
      | fold =>
        rw [List.map_map, ← LayerChange.apply_andThen] at ha
        exact congrArg some ha.symm

/-- **Trimming is not undone by trimming.** -/
theorem antisymm (hab : a.Trims b) (hba : b.Trims a) : b = a := by
  rw [hab.frame, hab.sources_eq hba, hab.layers_eq hba]

end Style.Trims

/-! ## Runs -/

namespace Optimization

/-- **A run changes nothing exactly when every rewriting pass of it counts nothing.** -/
theorem runPasses_eq_self_iff (passes : List Pass) (s : Style) :
    (runPasses passes s).1 = s ↔
      ∀ record ∈ (runPasses passes s).2, record.pass ≠ .consolidateFilters → record.count = 0 := by
  induction passes generalizing s with
  | nil => simp [runPasses]
  | cons pass rest ih =>
    rw [runPasses_cons, List.forall_mem_cons]
    constructor
    · intro h
      -- What follows the first pass trims its style back, so the first pass changes nothing.
      have hback : (pass.apply s).1.Trims s := by
        have := trims_runPasses rest (pass.apply s).1
        rwa [h] at this
      have hpass : (pass.apply s).1 = s := (pass.trims_apply s).antisymm hback
      refine ⟨fun hrewrites => Pass.count_eq_zero_of_apply_eq hrewrites hpass, (ih _).1 ?_⟩
      rw [hpass] at h ⊢
      exact h
    · rintro ⟨hfirst, hrest⟩
      have hpass : (pass.apply s).1 = s := by
        by_cases hrewrites : pass = .consolidateFilters
        · rw [hrewrites]
          rfl
        · exact Pass.apply_eq_of_count_eq_zero hrewrites (hfirst hrewrites)
      exact ((ih _).2 hrest).trans hpass

/-- **An optimized document is the document, or has a shorter text.** -/
theorem shortened_ofJson {value : Json} (wf : value.WellFormed) (passes : List Pass) :
    value.Shortened (ofJson passes value).style := by
  cases value with
  | object members =>
    have htrims := trims_runPasses passes (Style.read members)
    show Json.Shortened _ (runPasses passes (Style.read members)).1.toJson
    rw [htrims.toJson_eq wf]
    exact (Style.documentFrame htrims wf).shortened fun _ _ _ => Json.DocumentMemberFrame.shortened
  | _ => exact .refl _

theorem style_eq_iff {value : Json} (wf : value.WellFormed) (passes : List Pass) :
    (ofJson passes value).style = value ↔
      ∀ record ∈ (ofJson passes value).records,
        record.pass ≠ .consolidateFilters → record.count = 0 := by
  cases value with
  | object members =>
    have hread : (Style.read members).toJson = .object members := Style.toJson_read wf
    have hinj := toJson_inj_of_trims wf (trims_runPasses passes (Style.read members)) (.refl _)
    rw [hread] at hinj
    exact hinj.trans (runPasses_eq_self_iff passes (Style.read members))
  | _ => simp [ofJson]

/-- **Optimization saves bytes or does nothing.** Sizes are bytes of text; the optimized document is
    never larger, and it is just as large only when it is the document, members in their order, which is
    when no rewriting pass counted anything. -/
theorem smaller_or_unchanged {value : Json} (wf : value.WellFormed) (passes : List Pass) :
    let o := ofJson passes value
    o.summary.originalSize = value.compact.utf8ByteSize ∧
    o.summary.optimizedSize = o.style.compact.utf8ByteSize ∧
    o.summary.optimizedSize ≤ o.summary.originalSize ∧
    0 ≤ o.summary.reduction ∧
    (o.summary.reduction = 0 ↔ o.style = value) ∧
    (o.style = value ↔
      ∀ record ∈ o.records, record.pass ≠ .consolidateFilters → record.count = 0) := by
  intro o
  have horiginal : o.summary.originalSize = value.compact.utf8ByteSize := by
    cases value <;> rfl
  have hoptimized : o.summary.optimizedSize = o.style.compact.utf8ByteSize := by
    cases value <;> rfl
  have hshortened := shortened_ofJson wf passes
  have hle : o.summary.optimizedSize ≤ o.summary.originalSize := by
    rw [horiginal, hoptimized, Json.utf8ByteSize_compact, Json.utf8ByteSize_compact]
    exact hshortened.bytes_le
  refine ⟨horiginal, hoptimized, hle, ?_, ?_, style_eq_iff wf passes⟩
  · rw [OptimizeSummary.reduction]
    omega
  · rw [hshortened.eq_iff, ← Json.utf8ByteSize_compact, ← Json.utf8ByteSize_compact, ← hoptimized,
      ← horiginal, OptimizeSummary.reduction]
    omega

/-- The crowded style loses bytes to every rewriting pass. -/
theorem smaller_of_crowded :
    crowded.WellFormed ∧ 0 < (ofJson Pass.all crowded).summary.reduction := by
  obtain ⟨-, -, -, hnonneg, hzero, hcounts⟩ := smaller_or_unchanged crowded_wellFormed Pass.all
  have hcounted : ¬∀ record ∈ (ofJson Pass.all crowded).records,
      record.pass ≠ .consolidateFilters → record.count = 0 := by decide +kernel
  have hne : (ofJson Pass.all crowded).summary.reduction ≠ 0 := fun h =>
    hcounted (hcounts.1 (hzero.1 h))
  exact ⟨crowded_wellFormed, by omega⟩

end Optimization

end CartoStyle
