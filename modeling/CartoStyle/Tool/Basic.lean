import CartoStyle.Expression.Validate
import CartoStyle.Optimize.Pass
import CartoStyle.Tool.Arguments
import CartoStyle.Tool.Schema

set_option autoImplicit false

/-! # Tools

The operations of this library as tools that a client calls by name, each with a description, the
schemas of its arguments and its output, and the signature that its arguments must suit. -/

namespace CartoStyle

/-- A tool. -/
inductive Tool where
  | validateExpression
  | validateStyle
  | optimizeStyle
  | boundingBox
  | geoSummary
  deriving DecidableEq, Repr

namespace Tool

/-- Every tool, in the order in which they are listed. -/
def all : List Tool :=
  [validateExpression, validateStyle, optimizeStyle, boundingBox, geoSummary]

/-- The name by which a tool is called. -/
def name : Tool → String
  | .validateExpression => "validate_expression_tool"
  | .validateStyle => "validate_style_tool"
  | .optimizeStyle => "optimize_style_tool"
  | .boundingBox => "bounding_box_tool"
  | .geoSummary => "geojson_summary_tool"

/-- The tool of a name. -/
def ofName? (name : String) : Option Tool := all.find? (·.name == name)

/-- What a tool does. -/
def description : Tool → String
  | .validateExpression =>
    "Validate a Mapbox GL style expression. Checks operator names against the expression grammar, " ++
      "argument counts and nesting depth, and reports the expression's return type."
  | .validateStyle =>
    "Validate a Mapbox GL style document: version, sources, layer ids, source references, " ++
      "source-layer pairing, zoom ranges and every filter and property expression."
  | .optimizeStyle =>
    "Optimize a Mapbox GL style document: remove unused sources, duplicate and empty layers, " ++
      "fold constant boolean filters and report layers sharing a filter."
  | .boundingBox =>
    "Compute the bounding box [minX, minY, maxX, maxY] and center of a GeoJSON geometry, " ++
      "feature or feature collection."
  | .geoSummary =>
    "Summarize a GeoJSON document: feature and position counts, geometry types, bounding box, " ++
      "center and coordinates outside WGS84 bounds."

/-! ## Arguments -/

/-- The parameter that holds the document. -/
def subject : Tool → String
  | .validateExpression => "expression"
  | .validateStyle => "style"
  | .optimizeStyle => "style"
  | .boundingBox => "geojson"
  | .geoSummary => "geojson"

/-- The schema of the document. -/
def subjectSchema : Tool → Json
  | .validateExpression =>
    Schema.untyped "Expression as JSON (array, literal or object) or as JSON text"
  | .validateStyle => Schema.typedAny ["string", "object"] "Style document as JSON text or object"
  | .optimizeStyle => Schema.typedAny ["string", "object"] "Style document as JSON text or object"
  | .boundingBox => Schema.typedAny ["string", "object"] "GeoJSON as JSON text or object"
  | .geoSummary => Schema.typedAny ["string", "object"] "GeoJSON as JSON text or object"

/-- The schemas of the parameters besides the document. -/
def optionSchemas : Tool → List (String × Json)
  | .validateExpression =>
    [("context", Schema.choice (Context.all.map Context.text)
      "Where the expression is used; filters are expected to return a boolean")]
  | .optimizeStyle =>
    [("passes", Schema.choices (Pass.all.map Pass.text)
      "Passes to run, in order (all passes in default order when omitted)")]
  | _ => []

/-- The schema of a tool's arguments. -/
def inputSchema (tool : Tool) : Json :=
  Schema.record [tool.subject] ((tool.subject, tool.subjectSchema) :: tool.optionSchemas)

/-- The signature of a tool. -/
def signature (tool : Tool) : Signature :=
  match tool with
  | .validateExpression =>
    ⟨"ValidateExpressionArgs", [.mandatory tool.subject .any, .optional "context" .text]⟩
  | .validateStyle => ⟨"ValidateStyleArgs", [.mandatory tool.subject .any]⟩
  | .optimizeStyle => ⟨"OptimizeStyleArgs", [.mandatory tool.subject .any, .texts "passes"]⟩
  | .boundingBox => ⟨"GeoJsonArgs", [.mandatory tool.subject .any]⟩
  | .geoSummary => ⟨"GeoJsonArgs", [.mandatory tool.subject .any]⟩

/-! ## Output -/

/-- The schema of a report of findings with one more member. -/
def findingsSchema (key : String) (schema : Json) : Json :=
  Schema.record ["valid", "errors", "warnings", "info", key]
    [("valid", Schema.typed "boolean" "True when there are no error diagnostics"),
      ("errors", Schema.typed "array" "Error diagnostics"),
      ("warnings", Schema.typed "array" "Warning diagnostics"),
      ("info", Schema.typed "array" "Informational diagnostics"),
      (key, schema)]

/-- The schema of a tool's output. -/
def outputSchema : Tool → Json
  | .validateExpression =>
    findingsSchema "metadata"
      (Schema.typed "object" "Expression type, return type, depth and context")
  | .validateStyle =>
    findingsSchema "summary"
      (Schema.typed "object" "Version, layer and source counts, sprite and glyphs presence")
  | .optimizeStyle =>
    Schema.record ["optimizedStyle", "optimizations", "summary"]
      [("optimizedStyle", Schema.typed "object" "The optimized style document"),
        ("optimizations",
          Schema.typed "array" "One record per pass: type, description, count"),
        ("summary", Schema.typed "object" "Size and layer/source counts before and after")]
  | .boundingBox =>
    Schema.record ["bbox", "center"]
      [("bbox", Schema.typed "array" "[minX, minY, maxX, maxY]"),
        ("center", Schema.typed "array" "[lng, lat] midpoint of the box")]
  | .geoSummary =>
    Schema.record ["type", "featureCount", "geometryCounts", "positionCount", "outOfRange"]
      [("type", Schema.typed "string" "Top-level GeoJSON type"),
        ("bbox", Schema.typedAny ["array", "null"]
          "[minX, minY, maxX, maxY], null without positions"),
        ("center", Schema.typedAny ["array", "null"] "[lng, lat], null without positions"),
        ("featureCount", Schema.typed "integer" "Number of features"),
        ("geometryCounts", Schema.typed "object" "Occurrences per geometry type"),
        ("positionCount", Schema.typed "integer" "Number of positions visited"),
        ("outOfRange", Schema.typed "array" "Paths of positions outside WGS84 bounds")]

/-! ## Listing -/

/-- The name under which the tools are served. -/
def serverName : String := "mapstyle-mcp"

/-- The version of the tools. -/
def serverVersion : String := "1.0.0"

/-- The entry of a tool in a list of tools. -/
def toJson (tool : Tool) : Json :=
  .object
    [("name", .string tool.name),
      ("description", .string tool.description),
      ("inputSchema", tool.inputSchema),
      ("outputSchema", tool.outputSchema)]

/-- The list of all tools. -/
def listing : Json := .object [("tools", .array (all.map toJson))]

end Tool

end CartoStyle
