import CartoStyle.Proofs.Geo.Extent
import CartoStyle.Proofs.Lint.Codes
import CartoStyle.Proofs.Tool.Arguments

set_option autoImplicit false

/-! # What becomes of a call

A call of a tool has one of a few outcomes, and which one can be said of its name and its arguments
alone (`Tool.Classified`): the name of the tool is looked at first, then the arguments and what they
name, then the size of the document, and only then the document (`Tool.outcome_callByName_iff`). The
result of a tool is an error just when the tool cannot do its work on the document (`Tool.Refuses`);
findings about a document are never one. -/

namespace CartoStyle

namespace Document

/-- The document that an argument stands for: a string is JSON text. -/
def ofArgument : Json → Document
  | .string s => .text s
  | other => .value other

theorem exists_resolve_error_iff {document : Document} :
    (∃ e, document.resolve = .error e) ↔
      ∃ s, document = .text s ∧ ∃ e, Json.parse s = .error e := by
  cases document with
  | value v => simp [resolve]
  | text s =>
    rw [resolve]
    cases hparsed : Json.parse s <;> simp [hparsed]

end Document

namespace Tool

/-! ## Documents that a tool refuses -/

/-- Whether a tool cannot do its work on a document: it is not JSON text, or for the tools on
    geographic data it is none, or has no position of which there could be a box. -/
inductive Refuses : Tool → Document → Prop
  | notJson {tool : Tool} {text : String} {e : ReadError} (unread : Json.parse text = .error e) :
      Refuses tool (.text text)
  | notGeographic {tool : Tool} {document : Document} {value : Json}
      (geographic : tool = .boundingBox ∨ tool = .geoSummary)
      (read : document.resolve = .ok value) (refused : ∀ g, GeoJson.decode value ≠ .ok g) :
      Refuses tool document
  | noPosition {document : Document} {value : Json} {g : GeoJson}
      (read : document.resolve = .ok value) (decoded : GeoJson.decode value = .ok g)
      (empty : g.positions = []) : Refuses .boundingBox document

/-- The works that a tool can do. -/
inductive Works : Tool → Work → Prop
  | expression (context : Option Context) : Works .validateExpression (validateExpressionIn context)
  | style : Works .validateStyle validateStyleWork
  | optimization (passes : List Pass) : Works .optimizeStyle (optimizeStyleBy passes)
  | box : Works .boundingBox boundingBoxWork
  | summary : Works .geoSummary geoSummaryWork

theorem works_of_work {tool : Tool} {members : List (String × Json)} {work : Work}
    (h : tool.work members = .ok work) : tool.Works work := by
  cases tool with
  | validateExpression =>
    obtain ⟨context, -, h⟩ := bind_eq_ok.1 h
    obtain rfl := Except.ok.inj h
    exact .expression context
  | validateStyle =>
    obtain rfl := Except.ok.inj h
    exact .style
  | optimizeStyle =>
    obtain ⟨passes, -, h⟩ := bind_eq_ok.1 h
    obtain rfl := Except.ok.inj h
    exact .optimization passes
  | boundingBox =>
    obtain rfl := Except.ok.inj h
    exact .box
  | geoSummary =>
    obtain rfl := Except.ok.inj h
    exact .summary

/-- Tools on styles and expressions refuse nothing but what is not JSON text. -/
theorem refuses_iff_of_not_geographic {tool : Tool} {document : Document}
    (h : tool ≠ .boundingBox) (h' : tool ≠ .geoSummary) :
    tool.Refuses document ↔ ∃ e, document.resolve = .error e := by
  rw [Document.exists_resolve_error_iff]
  constructor
  · rintro (unread | geographic | _)
    · exact ⟨_, rfl, _, unread⟩
    · exact absurd geographic (not_or.2 ⟨h, h'⟩)
    · exact absurd rfl h
  · rintro ⟨text, rfl, e, unread⟩
    exact .notJson unread

/-- What is not geographic data is refused by the tools on it. -/
theorem refuses_of_ofDocument_error {tool : Tool} {document : Document} {e : GeoError}
    (geographic : tool = .boundingBox ∨ tool = .geoSummary)
    (h : GeoJson.ofDocument document = .error e) : tool.Refuses document := by
  rw [GeoJson.ofDocument] at h
  cases hresolve : document.resolve with
  | error e' =>
    obtain ⟨s, rfl, e', unread⟩ := Document.exists_resolve_error_iff.1 ⟨e', hresolve⟩
    exact .notJson unread
  | ok value =>
    simp only [hresolve] at h
    exact .notGeographic geographic hresolve (by simp [h])

/-- Geographic data is refused only for want of a position. -/
theorem refuses_iff_of_ofDocument_ok {tool : Tool} {document : Document} {g : GeoJson}
    (h : GeoJson.ofDocument document = .ok g) :
    tool.Refuses document ↔ tool = .boundingBox ∧ g.positions = [] := by
  rw [GeoJson.ofDocument] at h
  cases hresolve : document.resolve with
  | error e => simp [hresolve] at h
  | ok value =>
    simp only [hresolve] at h
    constructor
    · rintro (unread | ⟨geographic, read, refused⟩ | ⟨read, decoded, empty⟩)
      · simp [Document.resolve, unread] at hresolve
      · cases hresolve.symm.trans read
        exact absurd h (refused g)
      · cases hresolve.symm.trans read
        cases h.symm.trans decoded
        exact ⟨rfl, empty⟩
    · rintro ⟨rfl, empty⟩
      exact .noPosition hresolve h empty

/-- The result of a tool is an error just when it refuses the document. -/
theorem isError_iff_refuses {tool : Tool} {work : Work} (works : tool.Works work)
    (document : Document) : (work document).isError ↔ tool.Refuses document := by
  have hunreadable : ∀ f : Findings, f.unreadable ↔ ∃ d ∈ f.errors, d.code = .inputParse := by
    intro f
    simp [Findings.unreadable]
  cases works with
  | expression context =>
    rw [refuses_iff_of_not_geographic (by decide) (by decide)]
    exact (hunreadable _).trans Validation.inputParse_iff
  | style =>
    rw [refuses_iff_of_not_geographic (by decide) (by decide)]
    exact (hunreadable _).trans StyleReport.inputParse_iff
  | optimization passes =>
    rw [refuses_iff_of_not_geographic (by decide) (by decide), optimizeStyleBy,
      Optimization.ofDocument]
    cases document.resolve <;> simp [Except.map, ToolResult.ofValue, ToolResult.ofFailure]
  | box =>
    rw [boundingBoxWork]
    cases hdocument : GeoJson.ofDocument document with
    | error e =>
      rw [GeoJson.boundingBox, hdocument]
      exact iff_of_true rfl (refuses_of_ofDocument_error (.inl rfl) hdocument)
    | ok g =>
      rw [refuses_iff_of_ofDocument_ok hdocument, ← GeoJson.box?_eq_none_iff,
        GeoJson.boundingBox_of_ofDocument hdocument]
      cases g.box? <;> simp [ToolResult.ofValue, ToolResult.ofFailure]
  | summary =>
    rw [geoSummaryWork, GeoJson.analyze]
    cases hdocument : GeoJson.ofDocument document with
    | error e => exact iff_of_true rfl (refuses_of_ofDocument_error (.inr rfl) hdocument)
    | ok g =>
      rw [refuses_iff_of_ofDocument_ok hdocument]
      simp [Except.map, ToolResult.ofValue]

/-! ## Calls -/

theorem ofName?_name (tool : Tool) : ofName? tool.name = some tool := by
  cases tool <;> decide +kernel

theorem ofName?_eq_none_iff {name : String} : ofName? name = none ↔ name ∉ all.map Tool.name := by
  simp [ofName?]

theorem documentOf_of_long {text : String} (long : ToolError.maxTextSize < text.utf8ByteSize) :
    documentOf (.string text) = .error (.tooLarge text.utf8ByteSize) :=
  if_pos long

theorem documentOf_of_short {value : Json}
    (short : ∀ text, value = .string text → text.utf8ByteSize ≤ ToolError.maxTextSize) :
    documentOf value = .ok (.ofArgument value) := by
  cases value with
  | string text => exact if_neg (Nat.not_lt.2 (short text rfl))
  | _ => rfl

variable {tool : Tool} {arguments : Option Json}

/-- Arguments that the tool does not take are refused first. -/
theorem call_of_not_decodes (h : ¬tool.Decodes (arguments.getD (.object []))) :
    ∃ fault, tool.call arguments = .error (.arguments fault) := by
  rw [← fault?_eq_none_iff, ← ne_eq, Option.ne_none_iff_exists'] at h
  obtain ⟨fault, hfault⟩ := h
  refine ⟨fault, ?_⟩
  rw [call, Signature.bind, hfault]
  rfl

/-- Then names that do not exist are. -/
theorem call_of_namesUnknown (decodes : tool.Decodes (arguments.getD (.object [])))
    (unknown : NamesUnknown tool (arguments.getD (.object []))) :
    ∃ e, tool.call arguments = .error (.unknownName e) := by
  obtain ⟨e, hwork⟩ := (exists_work_error_iff decodes).2 unknown
  refine ⟨e, ?_⟩
  rw [call, Signature.bind, (fault?_eq_none_iff ..).2 decodes]
  show ((tool.work _).mapError ToolError.unknownName >>= _) = _
  rw [hwork]
  rfl

/-- Only then the document is looked at, and what is not too large is worked on. -/
theorem call_of_decodes (decodes : tool.Decodes (arguments.getD (.object [])))
    (known : ¬NamesUnknown tool (arguments.getD (.object []))) :
    ∃ work, tool.Works work ∧ tool.call arguments =
      (documentOf (tool.documentArgument (arguments.getD (.object [])))).map work := by
  cases hwork : tool.work (tool.signature.named (arguments.getD (.object []))) with
  | error e => exact absurd ((exists_work_error_iff decodes).1 ⟨e, hwork⟩) known
  | ok work =>
    refine ⟨work, works_of_work hwork, ?_⟩
    rw [call, Signature.bind, (fault?_eq_none_iff ..).2 decodes, ← lookup_subject decodes]
    show ((tool.work _).mapError ToolError.unknownName >>= _) = _
    rw [hwork]
    cases documentOf _ <;> rfl

/-! ## Outcomes -/

/-- What becomes of a call, told apart as clients are told. -/
inductive Outcome where
  | unknownTool
  | invalidArguments
  | invalidRequest
  /-- The call itself could not be read or written as JSON. -/
  | malformed
  /-- There is a result, which may be an error. -/
  | result (isError : Bool)
  deriving DecidableEq, Repr

/-- The outcome of a call. -/
def outcome : Except ToolError ToolResult → Outcome
  | .error (.unreadable _) => .malformed
  | .error (.tooLarge _) => .invalidRequest
  | .error (.unknownTool _) => .unknownTool
  | .error (.arguments _) => .invalidArguments
  | .error (.unknownName _) => .invalidArguments
  | .ok r => .result r.isError

/-- What the outcome of a call by a name should be. -/
inductive Classified (name : String) (given : Json) : Outcome → Prop
  | unknownTool (unknown : name ∉ all.map Tool.name) : Classified name given .unknownTool
  | invalidArguments {tool : Tool} (called : tool.name = name)
      (bad : ¬tool.Decodes given ∨ NamesUnknown tool given) :
      Classified name given .invalidArguments
  | invalidRequest {tool : Tool} {text : String} (called : tool.name = name)
      (decodes : tool.Decodes given) (known : ¬NamesUnknown tool given)
      (document : tool.documentArgument given = .string text)
      (long : ToolError.maxTextSize < text.utf8ByteSize) : Classified name given .invalidRequest
  | result {tool : Tool} {isError : Bool} (called : tool.name = name)
      (decodes : tool.Decodes given) (known : ¬NamesUnknown tool given)
      (short : ∀ text, tool.documentArgument given = .string text →
        text.utf8ByteSize ≤ ToolError.maxTextSize)
      (judged : isError ↔ tool.Refuses (.ofArgument (tool.documentArgument given))) :
      Classified name given (.result isError)

/-- Every call has an outcome. -/
theorem exists_classified (name : String) (given : Json) :
    ∃ outcome, Classified name given outcome := by
  by_cases hname : name ∈ all.map Tool.name
  · obtain ⟨tool, -, called⟩ := List.mem_map.1 hname
    by_cases decodes : tool.Decodes given
    · by_cases unknown : NamesUnknown tool given
      · exact ⟨_, .invalidArguments called (.inr unknown)⟩
      by_cases hshort : ∀ text, tool.documentArgument given = .string text →
          text.utf8ByteSize ≤ ToolError.maxTextSize
      · by_cases refuses : tool.Refuses (.ofArgument (tool.documentArgument given))
        · exact ⟨_, .result called decodes unknown hshort (iff_of_true rfl refuses)⟩
        · exact ⟨_, .result called decodes unknown hshort
            (iff_of_false Bool.false_ne_true refuses)⟩
      · simp only [not_forall, Nat.not_le] at hshort
        obtain ⟨text, document, long⟩ := hshort
        exact ⟨_, .invalidRequest called decodes unknown document long⟩
    · exact ⟨_, .invalidArguments called (.inl decodes)⟩
  · exact ⟨_, .unknownTool hname⟩

/-- A call has the outcome that it should have. -/
theorem outcome_of_classified {name : String} {outcome : Outcome}
    (h : Classified name (arguments.getD (.object [])) outcome) :
    Tool.outcome (callByName name arguments) = outcome := by
  cases h with
  | unknownTool unknown =>
    rw [callByName, ofName?_eq_none_iff.2 unknown]
    rfl
  | @invalidArguments tool called bad =>
    subst called
    rw [callByName, ofName?_name]
    by_cases decodes : tool.Decodes (arguments.getD (.object []))
    · obtain ⟨e, hcall⟩ := call_of_namesUnknown decodes (bad.resolve_left (not_not.2 decodes))
      simp only [hcall]
      rfl
    · obtain ⟨fault, hcall⟩ := call_of_not_decodes decodes
      simp only [hcall]
      rfl
  | @invalidRequest tool text called decodes known document long =>
    subst called
    obtain ⟨work, -, hcall⟩ := call_of_decodes decodes known
    simp only [callByName, ofName?_name, hcall, document, documentOf_of_long long]
    rfl
  | @result tool isError called decodes known short judged =>
    subst called
    obtain ⟨work, works, hcall⟩ := call_of_decodes decodes known
    simp only [callByName, ofName?_name, hcall, documentOf_of_short short]
    exact congrArg Outcome.result
      (Bool.eq_iff_iff.2 ((isError_iff_refuses works _).trans judged.symm))

/-- **The outcome of a call is exactly what its name and its arguments call for.** Of the tools on
    styles and expressions a result is an error only when the document is not JSON text, whatever is
    found in it and however it is shaped. -/
theorem outcome_callByName_iff (name : String) (arguments : Option Json) (outcome : Outcome) :
    (Tool.outcome (callByName name arguments) = outcome ↔
      Classified name (arguments.getD (.object [])) outcome) ∧
    ∀ document : Document,
      (validateExpression.Refuses document ↔ ∃ e, document.resolve = .error e) ∧
      (validateStyle.Refuses document ↔ ∃ e, document.resolve = .error e) ∧
      (optimizeStyle.Refuses document ↔ ∃ e, document.resolve = .error e) := by
  refine ⟨⟨?_, outcome_of_classified⟩, fun document => ⟨?_, ?_, ?_⟩⟩
  · -- There is an outcome that the call should have, and it is the one that it has.
    rintro rfl
    obtain ⟨outcome, h⟩ := exists_classified name (arguments.getD (.object []))
    rwa [outcome_of_classified h]
  all_goals exact refuses_iff_of_not_geographic (by decide) (by decide)

end Tool

end CartoStyle
