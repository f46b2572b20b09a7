import CartoStyle.Proofs.Tool.Outcome

set_option autoImplicit false

/-! # Structured output

The value that a result carries beside its text follows the schema that the tool declares, and the
text shows that value (`Tool.structured_callByName`). There is one unless the tool failed, or was
asked to optimize a style that is no object and left it as it is. -/

namespace CartoStyle

namespace Tool

/-! ## Values and their schemas -/

theorem fault?_validation (v : Validation) :
    Schema.fault? validateExpression.outputSchema v.toJson = none := by
  rfl

theorem fault?_styleReport (r : StyleReport) :
    Schema.fault? validateStyle.outputSchema r.toJson = none := by
  rfl

theorem fault?_box (box : Box) :
    Schema.fault? boundingBox.outputSchema
      (.object [("bbox", floatsToJson box.toList), ("center", floatsToJson box.center)]) =
        none := by
  rfl

theorem fault?_geoSummary (s : GeoSummary) :
    Schema.fault? geoSummary.outputSchema s.toJson = none := by
  rfl

/-- The style must be an object. -/
theorem fault?_optimization_eq_none_iff (o : Optimization) :
    Schema.fault? optimizeStyle.outputSchema o.toJson = none ↔ o.style.isObject := by
  obtain ⟨style, records, summary⟩ := o
  cases style with
  | object members => exact iff_of_true rfl rfl
  | number n => cases n <;> exact iff_of_false (Option.some_ne_none _) Bool.false_ne_true
  | _ => exact iff_of_false (Option.some_ne_none _) Bool.false_ne_true

/-- An optimized style is an object just when the style was. -/
theorem isObject_style_ofJson (passes : List Pass) (value : Json) :
    (Optimization.ofJson passes value).style.isObject = value.isObject := by
  cases value <;> rfl

/-! ## Results -/

/-- Whether a tool fails on a document: it has no report to show and tells an error instead. -/
def Fails (tool : Tool) (document : Document) : Prop :=
  (tool = .optimizeStyle ∨ tool = .boundingBox ∨ tool = .geoSummary) ∧ tool.Refuses document

/-- Whether a tool was asked to optimize a style that is no object. -/
def Misshapen (tool : Tool) (document : Document) : Prop :=
  tool = .optimizeStyle ∧ ∃ value, document.resolve = .ok value ∧ ¬value.isObject

/-- A value is shown beside its text when it follows the schema. -/
theorem structured_ofValue_eq_some_iff {schema value shown : Json} {isError : Bool} :
    (ToolResult.ofValue schema value isError).structured = some shown ↔
      shown = value ∧ Schema.fault? schema value = none := by
  rw [ToolResult.ofValue]
  cases Schema.fault? schema value <;> simp [eq_comm]

/-- What the result of a tool is: a failure, or a value that follows the schema of the tool unless
    the style was misshapen. -/
inductive Answers (tool : Tool) (document : Document) (r : ToolResult) : Prop
  | failure (fails : tool.Fails document) {kind message : String}
      (same : r = .ofFailure kind message)
  | value (works : ¬tool.Fails document) {value : Json} {isError : Bool}
      (follows : Schema.fault? tool.outputSchema value = none ↔ ¬tool.Misshapen document)
      (same : r = .ofValue tool.outputSchema value isError)

theorem answers_of_works {tool : Tool} {work : Work} (works : tool.Works work)
    (document : Document) : tool.Answers document (work document) := by
  have hshaped : tool ≠ .optimizeStyle → ¬tool.Misshapen document :=
    fun other misshapen => other misshapen.1
  cases works with
  | expression context =>
    exact .value (by simp [Fails]) (iff_of_true (fault?_validation _) (hshaped (by decide))) rfl
  | style =>
    exact .value (by simp [Fails]) (iff_of_true (fault?_styleReport _) (hshaped (by decide))) rfl
  | optimization passes =>
    have hrefuses : optimizeStyle.Refuses document ↔ ∃ e, document.resolve = .error e :=
      refuses_iff_of_not_geographic (by decide) (by decide)
    rw [optimizeStyleBy, Optimization.ofDocument]
    cases hresolve : document.resolve with
    | error e => exact .failure ⟨.inl rfl, hrefuses.2 ⟨e, hresolve⟩⟩ rfl
    | ok value =>
      refine .value ?_ ?_ rfl
      · rintro ⟨-, refuses⟩
        obtain ⟨e, he⟩ := hrefuses.1 refuses
        cases hresolve.symm.trans he
      · rw [fault?_optimization_eq_none_iff, isObject_style_ofJson]
        simp [Misshapen, hresolve]
  | box =>
    rw [boundingBoxWork]
    cases hdocument : GeoJson.ofDocument document with
    | error e =>
      rw [GeoJson.boundingBox, hdocument]
      exact .failure ⟨.inr (.inl rfl), refuses_of_ofDocument_error (.inl rfl) hdocument⟩ rfl
    | ok g =>
      rw [GeoJson.boundingBox_of_ofDocument hdocument]
      have hrefuses :
          boundingBox.Refuses document ↔ boundingBox = .boundingBox ∧ g.positions = [] :=
        refuses_iff_of_ofDocument_ok hdocument
      rw [← GeoJson.box?_eq_none_iff] at hrefuses
      cases hbox : g.box? with
      | none => exact .failure ⟨.inr (.inl rfl), hrefuses.2 ⟨rfl, hbox⟩⟩ rfl
      | some box =>
        refine .value ?_ (iff_of_true (fault?_box _) (hshaped (by decide))) rfl
        rintro ⟨-, refuses⟩
        cases hbox.symm.trans (hrefuses.1 refuses).2
  | summary =>
    rw [geoSummaryWork, GeoJson.analyze]
    cases hdocument : GeoJson.ofDocument document with
    | error e =>
      exact .failure ⟨.inr (.inr rfl), refuses_of_ofDocument_error (.inr rfl) hdocument⟩ rfl
    | ok g =>
      refine .value ?_ (iff_of_true (fault?_geoSummary _) (hshaped (by decide))) rfl
      rintro ⟨-, refuses⟩
      cases ((refuses_iff_of_ofDocument_ok hdocument).1 refuses).1

/-! ## Calls -/

/-- The schema of a tool's output as the list of tools tells it. -/
def listedOutputSchema? (name : String) : Option Json := do
  let entries ← (listing.get? "tools").bind Json.asArray?
  let entry ← entries.find? fun entry => entry.get? "name" == some (.string name)
  entry.get? "outputSchema"

theorem listedOutputSchema?_name (tool : Tool) :
    listedOutputSchema? tool.name = some tool.outputSchema := by
  cases tool <;> decide +kernel

theorem eq_ofArgument_of_documentOf {value : Json} {document : Document}
    (h : documentOf value = .ok document) : document = .ofArgument value := by
  unfold documentOf at h
  split at h
  · split at h
    · cases h
    · exact (Except.ok.inj h).symm
  · cases value with
    | string text => simp at *
    | _ => exact (Except.ok.inj h).symm

/-- A call with a result had its work done on its document. -/
theorem exists_works_of_callByName {tool : Tool} {arguments : Option Json} {r : ToolResult}
    (h : callByName tool.name arguments = .ok r) :
    ∃ work, tool.Works work ∧
      r = work (.ofArgument (tool.documentArgument (arguments.getD (.object [])))) := by
  rw [callByName, ofName?_name] at h
  by_cases decodes : tool.Decodes (arguments.getD (.object []))
  · by_cases unknown : NamesUnknown tool (arguments.getD (.object []))
    · obtain ⟨e, hcall⟩ := call_of_namesUnknown decodes unknown
      cases hcall.symm.trans h
    · obtain ⟨work, works, hcall⟩ := call_of_decodes decodes unknown
      have hdone := hcall.symm.trans h
      cases hdocument : documentOf (tool.documentArgument (arguments.getD (.object []))) with
      | error e => simp [hdocument, Except.map] at hdone
      | ok document =>
        rw [hdocument] at hdone
        refine ⟨work, works, ?_⟩
        rw [← eq_ofArgument_of_documentOf hdocument]
        exact (Except.ok.inj hdone).symm
  · obtain ⟨fault, hcall⟩ := call_of_not_decodes decodes
    cases hcall.symm.trans h

/-- **Structured output follows the declared schema, and is left out only of failures and of styles
    that are no objects.** -/
theorem structured_callByName {tool : Tool} {arguments : Option Json} {r : ToolResult}
    (h : callByName tool.name arguments = .ok r) :
    let document := Document.ofArgument (tool.documentArgument (arguments.getD (.object [])))
    (tool.Fails document ↔ ∃ kind message, r = .ofFailure kind message) ∧
      (r.structured.isSome ↔ ¬tool.Fails document ∧ ¬tool.Misshapen document) ∧
      ∃ schema, listedOutputSchema? tool.name = some schema ∧
        ∀ value, r.structured = some value →
          Schema.fault? schema value = none ∧ r.text = value.pretty := by
  intro document
  obtain ⟨work, works, rfl⟩ := exists_works_of_callByName h
  have hrefuses := isError_iff_refuses works document
  cases answers_of_works works document with
  | failure fails same =>
    refine ⟨iff_of_true fails ⟨_, _, same⟩, ?_, _, listedOutputSchema?_name tool, ?_⟩
    · rw [same]
      simp [ToolResult.ofFailure, fails]
    · rw [same]
      simp [ToolResult.ofFailure]
  | value works follows same =>
    have hshown : (work document).structured.isSome ↔ ¬tool.Misshapen document := by
      rw [← follows, Option.isSome_iff_exists, same]
      simp only [structured_ofValue_eq_some_iff, exists_eq_left]
    refine ⟨iff_of_false works ?_, hshown.trans (and_iff_right works).symm, _,
      listedOutputSchema?_name tool, ?_⟩
    · -- A report that says that it could not be made would be one of a style that is no object, and
      -- such a style is read.
      rintro ⟨kind, message, failure⟩
      have refuses : tool.Refuses document := hrefuses.1 (by rw [failure]; rfl)
      have misshapen : tool.Misshapen document := by
        by_contra shaped
        have := hshown.2 shaped
        rw [failure] at this
        cases this
      exact works ⟨.inl misshapen.1, refuses⟩
    · intro value shown
      rw [same] at shown ⊢
      obtain ⟨rfl, hfault⟩ := structured_ofValue_eq_some_iff.1 shown
      exact ⟨hfault, rfl⟩

/-- A style that is an array is left as it is and told in text alone, and that is no failure. -/
theorem structured_of_array_style :
    ∃ r, callByName "optimize_style_tool" (some (.array [.array [], .null])) = .ok r ∧
      r.structured = none ∧ ¬∃ kind message, r = .ofFailure kind message := by
  have called : callByName optimizeStyle.name (some (.array [.array [], .null])) =
      .ok (optimizeStyleBy Pass.all (.value (.array []))) := by rfl
  obtain ⟨failure, shown, -⟩ := structured_callByName called
  have misshapen : optimizeStyle.Misshapen (.value (.array [])) := ⟨rfl, _, rfl, Bool.false_ne_true⟩
  refine ⟨_, called, ?_, ?_⟩
  · exact Option.not_isSome_iff_eq_none.1 fun some => (shown.1 some).2 misshapen
  · rw [← failure]
    rintro ⟨-, refuses⟩
    obtain ⟨e, he⟩ := (refuses_iff_of_not_geographic (by decide) (by decide)).1 refuses
    cases he

end Tool

end CartoStyle
