import CartoStyle.Command.Paint
import CartoStyle.Expression.Validate
import CartoStyle.Lint.Report
import CartoStyle.Optimize.Run
import CartoStyle.Tool.Basic

set_option autoImplicit false

/-! # Reports for people

Findings and outcomes as lines of text. -/

namespace CartoStyle

namespace Report

/-- Lines as one text, each ended. -/
def lines (ls : List String) : String := String.join (ls.map (· ++ "\n"))

/-- The mark of success. -/
def passed (colours : Bool) : String := (Paint.strongIn .green).apply colours "✓"

/-- The mark of failure. -/
def failed (colours : Bool) : String := (Paint.strongIn .red).apply colours "✗"

/-! ## Findings -/

/-- The paint of a severity. -/
def severityPaint : Severity → Paint
  | .error => .strongIn .red
  | .warning => .strongIn .yellow
  | .info => .plainIn .blue

/-- The lines of a finding. -/
def diagnostic (colours : Bool) (d : Diagnostic) : List String :=
  let severity := (severityPaint d.severity).apply colours d.severity.text
  let place :=
    match d.path with
    | some path => Paint.strong.apply colours path ++ ": "
    | none => ""
  s!"  {severity}[{d.rule}] {place}{d.message}" ::
    (d.suggestion.map fun suggestion =>
      "    " ++ (Paint.plainIn .cyan).apply colours "suggestion:" ++ " " ++ suggestion).toList

/-- The lines of all findings. -/
def findings (colours : Bool) (f : Findings) : List String :=
  f.toList.flatMap (diagnostic colours)

/-! ## Expressions and styles -/

/-- The lines about an expression. -/
def expression (colours : Bool) (v : Validation) : List String :=
  let kind := v.typeName.getD "unknown"
  [if v.findings.valid then s!"{passed colours} valid {kind}"
    else s!"{failed colours} invalid {kind}"] ++
  (v.resultType.map fun type => s!"  returns: {type.text}").toList ++
  [s!"  depth: {v.depth}"] ++
  (v.context.map fun context => s!"  context: {context.text}").toList ++
  findings colours v.findings

/-- The last part of a path, or the path when there is none. -/
def displayName (path : String) : String :=
  match ((path.splitOn "/").filter fun part => part != "" && part != ".").getLast? with
  | some part => if part = ".." then path else part
  | none => path

/-- The lines about a style. -/
def style (colours : Bool) (path : String) (r : StyleReport) : List String :=
  let f := r.findings
  let name := displayName path
  [if f.valid then
      s!"{passed colours} {name} ({r.summary.layerCount} layers, " ++
        s!"{r.summary.sourceCount} sources)"
    else s!"{failed colours} {name} ({f.errors.length} errors)"] ++
  (if f.count = 0 then []
  else
    findings colours f ++
      ["", s!"{f.errors.length} error(s), {f.warnings.length} warning(s), {f.infos.length} info"])

/-! ## Optimizations -/

/-- A text filled up with blanks to a width. -/
def pad (width : Nat) (text : String) : String :=
  text ++ String.ofList (List.replicate (width - text.length) ' ')

/-- The line about a pass. -/
def passRecord (colours : Bool) (r : PassRecord) : String :=
  let paint := if 0 < r.count then Paint.strongIn .green else .faint
  s!"  {pad 24 r.pass.text} {paint.apply colours (toString r.count)}"

/-- The lines about an optimization. -/
def optimization (colours : Bool) (o : Optimization) : List String :=
  let s := o.summary
  o.records.map (passRecord colours) ++
    [s!"{passed colours} {s.total} optimization(s): {s.originalSize} -> {s.optimizedSize} bytes " ++
      s!"({writeFloat .prose s.percent}%), layers {s.originalLayers} -> {s.optimizedLayers}, " ++
      s!"sources {s.originalSources} -> {s.optimizedSources}"]

/-! ## Tools -/

/-- The lines about a tool. -/
def tool (colours : Bool) (t : Tool) : List String :=
  [Paint.strong.apply colours t.name, s!"    {t.description}"]

end Report

end CartoStyle
