import CartoStyle.Proofs.Optimize.Frame

set_option autoImplicit false

/-! # Optimized styles are accepted

A strict reading looks at fields of the document, of its sources and of its layers. What passes may
change (`Json.DocumentMemberFrame`) never makes a field unfit, so a document without a violation is
without one after any run of passes (`Style.violation?_eq_none_of_frame`). -/

namespace CartoStyle

/-! ## Related members -/

/-- Related objects have related values under each key. -/
theorem Json.MembersRelated.lookup {related : String → Json → Json → Prop}
    {before after : List (String × Json)} (h : Json.MembersRelated related before after)
    {key : String} {r : Json → Json → Prop} (himp : ∀ v w, related key v w → r v w) :
    Option.Rel r (before.lookup key) (after.lookup key) := by
  induction h with
  | nil => exact Option.Rel.none
  | @cons m n before after hmn _ ih =>
    obtain ⟨k, v⟩ := m
    obtain ⟨k', v'⟩ := n
    obtain ⟨rfl, hrelated⟩ := hmn
    by_cases hk : key = k'
    · subst hk
      simpa using Option.Rel.some (himp v v' hrelated)
    · rw [Members.lookup_cons_of_ne hk, Members.lookup_cons_of_ne hk]
      exact ih

namespace Field

/-- Whether a value that suits a field stays suited when it changes. -/
structure Keeps (field : Field) (before after : Json) : Prop where
  fits : field.fits before → field.fits after
  null : before.isNull → after.isNull

theorem Keeps.refl (field : Field) (value : Json) : field.Keeps value value :=
  ⟨fun hfits => hfits, fun hnull => hnull⟩

/-- A field that was met is still met when its value stays suited. -/
theorem Met.of_rel {field : Field} {before after : List (String × Json)}
    (hrel : Option.Rel field.Keeps (before.lookup field.key) (after.lookup field.key))
    (h : field.Met before) : field.Met after := by
  unfold Met at h ⊢
  generalize before.lookup field.key = found at h hrel
  generalize after.lookup field.key = found' at hrel ⊢
  cases hrel with
  | none => exact h
  | some hvw => exact h.imp hvw.fits fun hnull => ⟨hvw.null hnull.1, hnull.2⟩

end Field

namespace Style

/-! ## Layers and sources -/

/-- What folding does to a layer leaves its fields suited. -/
theorem keeps_of_layerMemberFrame {field : Field} (hf : field ∈ Layer.fields) {v w : Json}
    (h : Json.LayerMemberFrame field.key v w) : field.Keeps v w := by
  have htakes := fun value => Field.takes_of_mem Layer.fields_distinct field hf value
  rcases h with rfl | ⟨hkey, hnull, rfl⟩ | ⟨hkey, properties, properties', rfl, rfl, -⟩
  · exact Field.Keeps.refl field w
  · have hv : v.isNull = false := by cases v <;> simp_all [Json.isNull]
    have hw : v.folded.isNull = false := by
      rw [Json.folded, Expression.isNull_toJson_simplify, Expression.toJson_ofJson, hv]
    refine ⟨fun _ => ?_, fun hnull => by simp [hv] at hnull⟩
    rw [← htakes, hkey, Layer.takes_filter]
    simp [Shape.Fits, Shape.expression, hw]
  · refine ⟨fun _ => ?_, fun hnull => by simp [Json.isNull] at hnull⟩
    rw [← htakes]
    rcases hkey with hkey | hkey
    · rw [hkey, Layer.takes_layout]
      rfl
    · rw [hkey, Layer.takes_paint]
      rfl

theorem IsLayer.of_frame {before after : Json} (h : Json.LayerFrame before after)
    (hlayer : IsLayer before) : IsLayer after := by
  obtain ⟨members, members', rfl, rfl, hrelated⟩ := h
  obtain ⟨_, heq, hmet⟩ := hlayer
  obtain rfl := Json.object.inj heq
  refine ⟨members', rfl, fun field hf => (hmet field hf).of_rel (hrelated.lookup ?_)⟩
  exact fun _ _ => keeps_of_layerMemberFrame hf

theorem forall_isLayer_of_frame {before after : List Json}
    (h : List.Forall₂ Json.LayerFrame before after) (hlayers : ∀ item ∈ before, IsLayer item) :
    ∀ item ∈ after, IsLayer item := by
  induction h with
  | nil => simp
  | cons hframe _ ih =>
    obtain ⟨hfirst, hrest⟩ := List.forall_mem_cons.1 hlayers
    exact List.forall_mem_cons.2 ⟨hfirst.of_frame hframe, ih hrest⟩

theorem layersViolation?_eq_none_of_frame {before after : Option Json}
    (h : Option.Rel Json.LayersFrame before after) (hmet : layersViolation? before = none) :
    layersViolation? after = none := by
  cases h with
  | none => rfl
  | @some v w hframe =>
    by_cases hlayers : v.IsLayers
    · obtain ⟨items, kept, items', rfl, rfl, hkept, hfolded⟩ := hframe.1 hlayers
      rw [layersViolation?_array_eq_none_iff] at hmet ⊢
      exact forall_isLayer_of_frame hfolded fun item hi => hmet item (hkept.subset hi)
    · rw [hframe.2 hlayers]
      exact hmet

theorem sourcesViolation?_eq_none_of_frame {before after : Option Json}
    (h : Option.Rel Json.SourcesFrame before after) (hmet : sourcesViolation? before = none) :
    sourcesViolation? after = none := by
  cases h with
  | none => rfl
  | @some v w hframe =>
    by_cases hsources : v.IsSources
    · obtain ⟨entries, kept, rfl, rfl, hkept⟩ := hframe.1 hsources
      rw [sourcesViolation?_object_eq_none_iff] at hmet ⊢
      exact fun entry he => hmet entry (hkept.subset he)
    · rw [hframe.2 hsources]
      exact hmet

/-! ## Documents -/

/-- **A document without violation has none after passes.** -/
theorem violation?_eq_none_of_frame {members members' : List (String × Json)}
    (h : Json.MembersRelated Json.DocumentMemberFrame members members')
    (hmet : violation? members = none) : violation? members' = none := by
  rw [violation?_eq_none_iff] at hmet ⊢
  obtain ⟨htexts, hsources, hlayers⟩ := hmet
  refine ⟨fun field hf => ?_, ?_, ?_⟩
  · have hsame : ∀ v w, Json.DocumentMemberFrame field.key v w → field.Keeps v w := by
      rintro v w ⟨-, -, hother⟩
      have hkey : field.key = "name" ∨ field.key = "glyphs" := by
        rcases List.mem_pair.1 hf with rfl | rfl
        · exact Or.inl rfl
        · exact Or.inr rfl
      have hw : w = v := by
        rcases hkey with hkey | hkey <;> exact hother (by simp [hkey]) (by simp [hkey])
      rw [hw]
      exact Field.Keeps.refl field v
    exact (htexts field hf).of_rel (h.lookup hsame)
  · exact sourcesViolation?_eq_none_of_frame (h.lookup fun _ _ hframe => hframe.1 rfl) hsources
  · exact layersViolation?_eq_none_of_frame (h.lookup fun _ _ hframe => hframe.2.1 rfl) hlayers

end Style

/-- **What is strictly accepted is strictly accepted after any passes.** -/
theorem Optimization.ofJson_strict_of_trims {members : List (String × Json)} {s : Style}
    (h : (Style.read members).Trims s) (wf : (Json.object members).WellFormed)
    (accepted : Style.ofJson .strict (.object members) = .ok (Style.read members)) :
    Style.ofJson .strict s.toJson = .ok s := by
  have hmet := (Style.ofJson_strict_object_iff.1 accepted).1
  rw [h.toJson_eq wf, Style.ofJson_strict_object_iff]
  exact ⟨Style.violation?_eq_none_of_frame (Style.documentFrame h wf) hmet, h.read_eq wf⟩

end CartoStyle
