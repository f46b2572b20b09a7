import CartoStyle.Lint.Report
import CartoStyle.Optimize.Run
import CartoStyle.Proofs.Style.OnePass

set_option autoImplicit false

/-! # Both readings of a style agree

A document that a strict reading accepts is read by the lenient one as the same style, also when
both go field by field (`Style.readings_agree`). The summary of a report looks at the document alone,
but what it counts is what the style holds, and what an optimization counts before its first pass. -/

namespace CartoStyle

namespace Style

variable {members : List (String × Json)}

/-! ## What the summary sees -/

/-- Accepted layers are counted as they are read. -/
theorem layerCount_read (h : layersViolation? (members.lookup "layers") = none) :
    (StyleSummary.ofJson (.object members)).layerCount = (read members).layerCount := by
  show (((members.lookup "layers").bind Json.asArray?).getD []).length =
    ((Shape.layers.get? "layers" members).getD []).length
  unfold Shape.get?
  cases there : members.lookup "layers" with
  | none => rfl
  | some value =>
    by_cases hnull : value = .null
    · rw [hnull]
      rfl
    rw [there] at h
    obtain ⟨objects, rfl, -⟩ := eq_array_of_layersViolation? hnull h
    have hread : Shape.layers.read (.array (objects.map .object)) = some (objects.map Layer.read) :=
      Shape.read_layers_iff.2 ⟨objects, rfl, rfl⟩
    simp [hread, Json.asArray?]

/-- Accepted sources are counted as they are read. -/
theorem sourceCount_read (h : sourcesViolation? (members.lookup "sources") = none) :
    (StyleSummary.ofJson (.object members)).sourceCount = (read members).sourceCount := by
  show (((members.lookup "sources").bind Json.asObject?).getD []).length =
    ((Shape.sources.get? "sources" members).getD []).length
  unfold Shape.get?
  cases there : members.lookup "sources" with
  | none => rfl
  | some value =>
    by_cases hnull : value = .null
    · rw [hnull]
      rfl
    rw [there] at h
    obtain ⟨entries, rfl⟩ := eq_object_of_sourcesViolation? hnull h
    have hread := Shape.read_sources_iff.2 ⟨entries, rfl, rfl⟩
    simp [hread, Json.asObject?]

/-- An accepted text is there just when it is not null. -/
theorem present_eq_isSome_get? {key : String} (h : (Field.optional key .text).Met members) :
    StyleSummary.present key members = (Shape.text.get? key members).isSome := by
  unfold Field.Met Field.optional at h
  unfold StyleSummary.present Shape.get?
  cases there : members.lookup key with
  | none => rfl
  | some value =>
    rw [there] at h
    cases value with
    | null | string => rfl
    | _ => simp [Shape.Fits, Shape.text, Json.asString?, Json.isNull] at h

/-- The summary of an accepted document is that of the style. -/
theorem summary_read (h : violation? members = none) :
    StyleSummary.ofJson (.object members) =
      { version := (read members).version
        layerCount := (read members).layerCount
        sourceCount := (read members).sourceCount
        hasSprite := (read members).sprite.any (!·.isNull)
        hasGlyphs := (read members).glyphs.isSome } := by
  obtain ⟨texts, sources, layers⟩ := violation?_eq_none_iff.1 h
  have hany : ∀ key, Shape.any.get? key members = members.lookup key := by
    simp [Shape.get?, Shape.any]
  have hversion : (read members).version = members.lookup "version" := hany _
  have hsprite : (read members).sprite = members.lookup "sprite" := hany _
  have hglyphs : (read members).glyphs.isSome = StyleSummary.present "glyphs" members :=
    (present_eq_isSome_get? (texts _ (by simp))).symm
  rw [← layerCount_read layers, ← sourceCount_read sources, hversion, hsprite, hglyphs]
  rfl

/-! ## Agreement -/

/-- **What a strict reading accepts, the lenient one reads as the same style**, and both do so field
    by field. The reports on the document agree with the style and with each other: the summary of
    the validation tells its version, its counts and which resources it names, and the optimization
    counts as many layers and sources before its first pass. -/
theorem readings_agree {value : Json} {style : Style}
    (accepted : ofJson .strict value = .ok style) :
    ofJson .lenient value = .ok style ∧
      (∃ members, value = .object members ∧ ∀ mode, ofMembers mode members = .ok style) ∧
      StyleSummary.ofJson value =
        { version := style.version
          layerCount := style.layerCount
          sourceCount := style.sourceCount
          hasSprite := style.sprite.any (!·.isNull)
          hasGlyphs := style.glyphs.isSome } ∧
      ∀ document : Document, document.resolve = .ok value → ∀ config passes,
        ∃ optimization, Optimization.ofDocument passes document = .ok optimization ∧
          (StyleReport.ofDocument config document).summary.layerCount =
            optimization.summary.originalLayers ∧
          (StyleReport.ofDocument config document).summary.sourceCount =
            optimization.summary.originalSources := by
  obtain ⟨members, rfl, hviolation, rfl⟩ := ofJson_strict_iff.1 accepted
  have hsummary := summary_read hviolation
  refine ⟨rfl, ⟨members, rfl, fun mode => ?_⟩, hsummary, ?_⟩
  · rw [ofMembers_eq, hviolation, Mode.outcome_none]
  · intro document hresolve config passes
    have hreport : (StyleReport.ofDocument config document).summary =
        StyleSummary.ofJson (.object members) := by
      simp only [StyleReport.ofDocument, hresolve, StyleReport.ofJson, accepted]
    refine ⟨Optimization.ofJson passes (.object members), ?_, ?_, ?_⟩
    · rw [Optimization.ofDocument, hresolve]
      rfl
    · rw [hreport, hsummary]
      rfl
    · rw [hreport, hsummary]
      rfl

/-- A style with null in place of layers, texts and resources. -/
theorem readings_agree_nulls :
    let value := Json.object
      [("sprite", .null), ("layers", .null), ("version", .ofNat 8), ("glyphs", .null),
        ("sources", .object [("a", .object [("url", .null), ("type", .string "vector")])])]
    ∃ style optimization, ofJson .strict value = .ok style ∧ ofJson .lenient value = .ok style ∧
      (Document.value value).resolve = .ok value ∧
      Optimization.ofDocument Pass.all (.value value) = .ok optimization ∧
      (StyleReport.ofDocument {} (.value value)).summary.layerCount =
        optimization.summary.originalLayers ∧
      (StyleReport.ofDocument {} (.value value)).summary.sourceCount = 1 ∧
      optimization.summary.originalSources = 1 := by
  intro value
  have accepted : ofJson .strict value = .ok (read _) :=
    ofJson_strict_object_iff.2 ⟨by decide +kernel, rfl⟩
  obtain ⟨lenient, -, -, reports⟩ := readings_agree accepted
  obtain ⟨optimization, optimized, layers, sources⟩ := reports (.value value) rfl {} Pass.all
  have one : (StyleReport.ofDocument {} (.value value)).summary.sourceCount = 1 := by
    decide +kernel
  exact ⟨_, optimization, accepted, lenient, rfl, optimized, layers, one, sources ▸ one⟩

end Style

end CartoStyle
