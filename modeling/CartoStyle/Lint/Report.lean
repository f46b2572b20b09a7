import CartoStyle.Lint.Run

set_option autoImplicit false

/-! # Style reports

The report on a style document: the findings of all rules, or the one reason why the document is no
style, and a summary of what the document holds. -/

namespace CartoStyle

/-! ## Summary -/

/-- What a document holds, as far as it can be seen without decoding it. -/
structure StyleSummary where
  version : Option Json := none
  layerCount : Nat := 0
  sourceCount : Nat := 0
  hasSprite : Bool := false
  hasGlyphs : Bool := false
  deriving DecidableEq, Inhabited

namespace StyleSummary

/-- Whether a member is there and not null. -/
def present (key : String) (members : List (String × Json)) : Bool :=
  (members.lookup key).any (!·.isNull)

/-- The summary of a value; that of a value that is no object is empty. -/
def ofJson : Json → StyleSummary
  | .object members =>
    { version := members.lookup "version"
      layerCount := (((members.lookup "layers").bind Json.asArray?).getD []).length
      sourceCount := (((members.lookup "sources").bind Json.asObject?).getD []).length
      hasSprite := present "sprite" members
      hasGlyphs := present "glyphs" members }
  | _ => {}

/-- The summary as a JSON object. -/
def toJson (s : StyleSummary) : Json :=
  .object
    [("version", s.version.getD .null),
      ("layerCount", .ofNat s.layerCount),
      ("sourceCount", .ofNat s.sourceCount),
      ("hasSprite", .bool s.hasSprite),
      ("hasGlyphs", .bool s.hasGlyphs)]

end StyleSummary

/-! ## Report -/

/-- The report on a style document. -/
structure StyleReport where
  findings : Findings
  summary : StyleSummary
  deriving DecidableEq

namespace StyleReport

/-- The name under which documents are reported that are no style. -/
def structureRule : String := "style-structure"

/-- The report on a document that is refused. -/
def ofError (e : DocumentError) (summary : StyleSummary) : StyleReport :=
  ⟨.ofList [e.toDiagnostic structureRule], summary⟩

/-- The report on a value. -/
def ofJson (config : LintConfig) (value : Json) : StyleReport :=
  let summary := StyleSummary.ofJson value
  match Style.ofJson .strict value with
  | .ok style => ⟨.ofList (Lint.run config Rule.all style), summary⟩
  | .error e => ofError e summary

/-- The report on a document. -/
def ofDocument (config : LintConfig) (document : Document) : StyleReport :=
  match document.resolve with
  | .ok value => ofJson config value
  | .error e => ofError e {}

/-- The report as a JSON object. -/
def toJson (r : StyleReport) : Json :=
  .object (r.findings.members ++ [("summary", r.summary.toJson)])

end StyleReport

end CartoStyle
