import CartoStyle.Geo.Summary
import CartoStyle.Lint.Report
import CartoStyle.Optimize.Run
import CartoStyle.Proofs.Json.ReadBack

set_option autoImplicit false

/-! # Text or value

A document that is given as the text of a value stands for that value, as long as the value nests no
deeper than texts may, so that everything said of the text is what is said of the value
(`Document.text_or_value`). -/

namespace CartoStyle

-- Powers are those of the core library, also where monoids have powers too.
attribute [local instance (high)] instPowNat

namespace Document

theorem resolve_text_eq_ok_iff {text : String} {value : Json} :
    (Document.text text).resolve = .ok value ↔ Json.parse text = .ok value := by
  rw [resolve]
  split
  · next h => rw [h, Except.ok.injEq, Except.ok.injEq]
  · next h => simp [h]

section

variable {d d' : Document} (h : d.resolve = d'.resolve)

include h

/-! ## What depends on the value alone -/

theorem validation_congr (context : Option Context) (limits : Limits) :
    Validation.ofDocument d context limits = Validation.ofDocument d' context limits := by
  rw [Validation.ofDocument, Validation.ofDocument, h]

theorem styleReport_congr (config : LintConfig) :
    StyleReport.ofDocument config d = StyleReport.ofDocument config d' := by
  rw [StyleReport.ofDocument, StyleReport.ofDocument, h]

theorem optimization_congr (passes : List Pass) :
    Optimization.ofDocument passes d = Optimization.ofDocument passes d' := by
  rw [Optimization.ofDocument, Optimization.ofDocument, h]

theorem geoJson_congr : GeoJson.ofDocument d = GeoJson.ofDocument d' := by
  rw [GeoJson.ofDocument, GeoJson.ofDocument, h]

end

/-- **Text and value agree.** The text of a value, on one line, resolves to just that value, unless
    its arrays and objects nest more than 127 deep; and then it is validated, optimized and measured as
    the value is. Given is that the floats of the value are what their digits are read as. -/
theorem text_or_value {value : Json} (wf : value.WellFormed)
    (hfloats : ∀ x ∈ value.floats, (Number.float x).ReadsBack) :
    let text := Document.text value.compact
    (text.resolve = .ok value ↔ value.depth ≤ 127) ∧
    (value.depth ≤ 127 →
      (∀ context limits, Validation.ofDocument text context limits =
        Validation.ofDocument (.value value) context limits) ∧
      (∀ config, StyleReport.ofDocument config text =
        StyleReport.ofDocument config (.value value)) ∧
      (∀ passes, Optimization.ofDocument passes text =
        Optimization.ofDocument passes (.value value)) ∧
      GeoJson.boundingBox text = GeoJson.boundingBox (.value value) ∧
      GeoJson.analyze text = GeoJson.analyze (.value value)) := by
  intro text
  have hresolve : text.resolve = .ok value ↔ value.depth ≤ 127 :=
    resolve_text_eq_ok_iff.trans (Json.parse_compact_iff wf hfloats)
  refine ⟨hresolve, fun hdepth => ?_⟩
  have h : text.resolve = (Document.value value).resolve := hresolve.2 hdepth
  have hgeo := geoJson_congr h
  refine ⟨validation_congr h, styleReport_congr h, optimization_congr h, ?_, ?_⟩
  · rw [GeoJson.boundingBox, GeoJson.boundingBox, hgeo]
  · rw [GeoJson.analyze, GeoJson.analyze, hgeo]

/-- Escapes, characters beyond the basic plane, the ends of the range of whole numbers, and floats in
    each of the forms in which they are written. -/
def assorted : Json :=
  .object
    [("\"\\\x01\n", .array
        [.string "é😀\x7f", .number (.integer (2 ^ 64 - 1)), .number (.integer (-2 ^ 63)),
          .number (.float 1), .number (.float (-0.0)), .number (.float (-2.5e-7)),
          .number (.float 0.001), .number (.float 1.7976931348623157e308)]),
      ("", .array [.array [], .object [], .null, .bool true])]

theorem text_or_value_assorted :
    assorted.WellFormed ∧ (∀ x ∈ assorted.floats, (Number.float x).ReadsBack) ∧
      (Document.text assorted.compact).resolve = .ok assorted := by
  have wf : assorted.WellFormed := by
    simp [assorted, Json.WellFormed, Json.WellFormedMembers, Json.WellFormedItems, Members.keys,
      Number.InWord]
  have hfloats : ∀ x ∈ assorted.floats, (Number.float x).ReadsBack := by decide +kernel
  exact ⟨wf, hfloats, (text_or_value wf hfloats).1.2 (by decide +kernel)⟩

end Document

end CartoStyle
