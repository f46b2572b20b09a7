import CartoStyle.Geo.Summary
import CartoStyle.Lint.Report
import CartoStyle.Optimize.Run
import CartoStyle.Tool.Basic

set_option autoImplicit false

/-! # Calling tools

A call is refused (`ToolError`) when it names no tool, when its arguments do not suit the tool, or
when the document is too large. Otherwise it has a result, which may still be an error: the tool
was called rightly and could not do its work on this document. -/

namespace CartoStyle

/-! ## Refusals -/

/-- Why a call is refused. -/
inductive ToolError where
  /-- The request itself does not suit its signature. -/
  | unreadable (fault : ArgumentFault)
  | tooLarge (bytes : Nat)
  | unknownTool (name : String)
  | arguments (fault : ArgumentFault)
  /-- An argument names a context or a pass that does not exist. -/
  | unknownName (e : DocumentError)
  deriving DecidableEq

namespace ToolError

/-- The greatest size of a document given as text, in bytes. -/
def maxTextSize : Nat := 10 * 1024 * 1024

/-- The refusal in words. -/
def message : ToolError → String
  | .unreadable fault => s!"JSON error: {fault.message}"
  | .tooLarge bytes =>
    s!"Invalid request: Input size exceeds maximum: {bytes} bytes (max: {maxTextSize} bytes)"
  | .unknownTool name => s!"Tool not found: {name}"
  | .arguments fault => s!"Invalid arguments: {fault.message}"
  | .unknownName e => s!"Invalid arguments: {e.message}"

/-- The number of the refusal. -/
def code : ToolError → Int
  | .unreadable _ => -32700
  | .tooLarge _ => -32600
  | .unknownTool _ => -32601
  | .arguments _ => -32602
  | .unknownName _ => -32602

end ToolError

/-! ## Results -/

/-- The result of a call: a text, and a value where it follows the schema of the tool. -/
structure ToolResult where
  text : String
  isError : Bool
  structured : Option Json := none
  deriving DecidableEq

namespace ToolResult

/-- The result that shows a value. -/
def ofValue (schema value : Json) (isError : Bool) : ToolResult :=
  { text := value.pretty
    isError
    structured := if (Schema.fault? schema value).isNone then some value else none }

/-- The result of a tool that could not do its work. -/
def ofFailure (kind message : String) : ToolResult :=
  { text :=
      (Json.object
        [("error", .object [("kind", .string kind), ("message", .string message)])]).pretty
    isError := true }

/-- The result as a JSON object. -/
def toJson (r : ToolResult) : Json :=
  .object <|
    [("content", .array [.object [("type", .string "text"), ("text", .string r.text)]]),
      ("isError", .bool r.isError)] ++
    (r.structured.map fun value => ("structuredContent", value)).toList

end ToolResult

/-! ## Work -/

namespace Findings

/-- Whether the document could not be read. -/
def unreadable (f : Findings) : Bool := f.errors.any (·.code == .inputParse)

end Findings

namespace Tool

/-- What a tool does with a document. -/
abbrev Work := Document → ToolResult

/-- Validate an expression. -/
def validateExpressionIn (context : Option Context) : Work := fun document =>
  let v := Validation.ofDocument document context {}
  .ofValue validateExpression.outputSchema v.toJson v.findings.unreadable

/-- Validate a style. -/
def validateStyleWork : Work := fun document =>
  let report := StyleReport.ofDocument {} document
  .ofValue validateStyle.outputSchema report.toJson report.findings.unreadable

/-- Optimize a style. -/
def optimizeStyleBy (passes : List Pass) : Work := fun document =>
  match Optimization.ofDocument passes document with
  | .ok o => .ofValue optimizeStyle.outputSchema o.toJson false
  | .error e => .ofFailure e.kind.text e.line

/-- Find the extent of geographic data. -/
def boundingBoxWork : Work := fun document =>
  match GeoJson.boundingBox document with
  | .ok box =>
    .ofValue boundingBox.outputSchema
      (.object [("bbox", floatsToJson box.toList), ("center", floatsToJson box.center)]) false
  | .error e => .ofFailure e.category e.message

/-- Summarize geographic data. -/
def geoSummaryWork : Work := fun document =>
  match GeoJson.analyze document with
  | .ok summary => .ofValue geoSummary.outputSchema summary.toJson false
  | .error e => .ofFailure e.category e.message

/-- The texts of an argument. -/
def textsOf (name : String) (arguments : List (String × Json)) : List String :=
  (((arguments.lookup name).bind Json.asArray?).getD []).filterMap Json.asString?

/-- The work that the arguments ask for. -/
def work (arguments : List (String × Json)) : Tool → Except DocumentError Work
  | .validateExpression => do
    let context ← (Shape.text.get? "context" arguments).mapM Context.ofText
    return validateExpressionIn context
  | .validateStyle => return validateStyleWork
  | .optimizeStyle => do
    let passes ← Pass.ofTexts (textsOf "passes" arguments)
    return optimizeStyleBy passes
  | .boundingBox => return boundingBoxWork
  | .geoSummary => return geoSummaryWork

/-! ## Calls -/

/-- The document of an argument: a string is JSON text, which must not be too large. -/
def documentOf : Json → Except ToolError Document
  | .string text =>
    if ToolError.maxTextSize < text.utf8ByteSize then .error (.tooLarge text.utf8ByteSize)
    else .ok (.text text)
  | value => .ok (.value value)

/-- Call a tool. No arguments at all are an empty object. -/
def call (tool : Tool) (arguments : Option Json) : Except ToolError ToolResult := do
  let arguments ← (tool.signature.bind (arguments.getD (.object []))).mapError .arguments
  let work ← (tool.work arguments).mapError .unknownName
  let document ← documentOf ((arguments.lookup tool.subject).getD .null)
  return work document

/-- Call the tool of a name. -/
def callByName (name : String) (arguments : Option Json) : Except ToolError ToolResult :=
  match ofName? name with
  | some tool => tool.call arguments
  | none => .error (.unknownTool name)

/-- The signature of a request for a call. -/
def requestSignature : Signature :=
  ⟨"CallToolParams", [.mandatory "name" .text, .optional "arguments" .any]⟩

/-- Answer a request for a call. Null arguments are no arguments. -/
def answer (request : Json) : Except ToolError ToolResult := do
  let parts ← (requestSignature.bind request).mapError .unreadable
  callByName ((Shape.text.get? "name" parts).getD "")
    ((parts.lookup "arguments").bind fun value => if value.isNull then none else some value)

end Tool

end CartoStyle
