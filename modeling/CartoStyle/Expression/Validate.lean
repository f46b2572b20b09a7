import CartoStyle.Diagnostic
import CartoStyle.Expression.Basic
import CartoStyle.Expression.Operator
import CartoStyle.Json.Path

set_option autoImplicit false

/-! # Validating expressions

Validation examines the root and, below every examined call of a known operator, the arguments that
are written as arrays (`Expression.walk`). Each examined node may be at fault in one way
(`NodeFault`), which is an error. Nesting beyond what is recommended, a walk that was cut short and
a filter that is not a truth value are warnings, each at most once. -/

namespace CartoStyle

/-! ## Where expressions stand, and limits -/

/-- Where an expression is used. -/
inductive Context where
  | style
  | filter
  | layout
  | paint
  deriving DecidableEq, Repr

namespace Context

/-- The name of a context. -/
def text : Context → String
  | .style => "style"
  | .filter => "filter"
  | .layout => "layout"
  | .paint => "paint"

/-- Every context. -/
def all : List Context := [style, filter, layout, paint]

/-- The context of a name. -/
def ofText (name : String) : Except DocumentError Context :=
  match all.find? (·.text == name) with
  | some context => .ok context
  | none =>
    .error
      { kind := .schema
        message :=
          s!"Unknown expression context '{name}' (expected style, filter, layout or paint)" }

end Context

/-- Limits on nesting: above `recommendedDepth` there is a warning, below `walkDepth` nothing is
    examined. -/
structure Limits where
  recommendedDepth : Nat := 10
  walkDepth : Nat := 1000
  deriving DecidableEq, Repr, Inhabited

namespace Limits

/-- The greatest depth that can be counted. -/
def unlimited : Limits := ⟨2 ^ 64 - 1, 2 ^ 64 - 1⟩

end Limits

/-! ## The walk -/

/-- A node met on the walk. The trail is the positions that lead to it, the last first. -/
structure Visit where
  trail : List Nat
  node : Expression
  deriving DecidableEq

namespace Visit

/-- How many steps below the root the node stands. -/
def depth (v : Visit) : Nat := v.trail.length

/-- The path from the root to the node. -/
def path (v : Visit) : Path := v.trail.reverse.map Step.index

end Visit

namespace Expression

mutual

/-- The nodes met on the walk, each before those below it. A node more than `limit` deep is met but
    not entered. -/
def walk (limit : Nat) (trail : List Nat) : Expression → List Visit
  | .call operator args =>
    ⟨trail, .call operator args⟩ ::
      (if trail.length ≤ limit ∧ (Operator.find? operator).isSome then
        walkArgs limit trail 1 args
      else [])
  | .literal value => [⟨trail, .literal value⟩]
  | .literalObject members => [⟨trail, .literalObject members⟩]
  | .malformed items => [⟨trail, .malformed items⟩]

/-- The nodes met below a call, of which the first argument stands at `position`. -/
def walkArgs (limit : Nat) (trail : List Nat) (position : Nat) : List Expression → List Visit
  | [] => []
  | arg :: rest =>
    (if arg.isArray then arg.walk limit (position :: trail) else []) ++
      walkArgs limit trail (position + 1) rest

end

/-- The type of what an expression evaluates to, where its operator fixes it. -/
def resultType? : Expression → Option ValueType
  | .call operator _ => (Operator.find? operator).bind (·.result)
  | _ => none

end Expression

/-! ## Errors -/

/-- What can be wrong with a node. -/
inductive NodeFault where
  | notAnOperator
  | unknownOperator (name : String)
  | tooFew (name : String) (least count : Nat)
  | tooMany (name : String) (most count : Nat)
  deriving DecidableEq, Repr

/-- The name under which expression findings are reported. -/
def expressionRule : String := "expression"

namespace NodeFault

/-- The fault of a node. -/
def ofNode? : Expression → Option NodeFault
  | .call name args =>
    match Operator.find? name with
    | none => some (.unknownOperator name)
    | some o =>
      if args.length < o.least then some (.tooFew name o.least args.length)
      else
        match o.most with
        | some most => if most < args.length then some (.tooMany name most args.length) else none
        | none => none
  | .malformed _ => some .notAnOperator
  | _ => none

/-- The finding of a fault, without a place. -/
def toDiagnostic : NodeFault → Diagnostic
  | .notAnOperator =>
    (Diagnostic.error .invalidOperator "Expression operator must be a string" expressionRule).suggest
      "The first element of an expression array names its operator"
  | .unknownOperator name =>
    (Diagnostic.error .unknownOperator s!"Unknown expression operator '{name}'"
      expressionRule).suggest
      ("Use a valid operator such as " ++ ", ".intercalate Operator.common)
  | .tooFew name least count =>
    .error .argumentCount
      s!"Operator '{name}' requires at least {least} arguments, got {count}" expressionRule
  | .tooMany name most count =>
    .error .argumentCount
      s!"Operator '{name}' accepts at most {most} arguments, got {count}" expressionRule

end NodeFault

/-- The error at a visited node. -/
def Visit.error? (v : Visit) : Option Diagnostic :=
  (NodeFault.ofNode? v.node).map fun fault => fault.toDiagnostic.located v.path.text

/-! ## Warnings -/

/-- The warning about a walk that was cut short at a node. -/
def Visit.cutWarning (limits : Limits) (v : Visit) : Diagnostic :=
  (Diagnostic.warning .excessiveDepth
    (s!"Maximum traversal depth of {limits.walkDepth} exceeded; " ++
      "nested expressions were not checked") expressionRule).located v.path.text

/-- The warning about a node that is nested too deep for comfort. -/
def Visit.nestingWarning (limits : Limits) (v : Visit) : Diagnostic :=
  ((Diagnostic.warning .excessiveDepth
    (s!"Expression nesting depth {v.depth} exceeds the recommended maximum of " ++
      toString limits.recommendedDepth) expressionRule).located v.path.text).suggest
    "Consider simplifying the expression"

/-- The warning about a filter whose operator never gives a truth value. -/
def filterWarning? (e : Expression) (context : Option Context) : Option Diagnostic :=
  match context, e.operator?, e.resultType? with
  | some .filter, some operator, some type =>
    if type = .boolean then none
    else
      some <|
        (Diagnostic.warning .typeMismatch
          (s!"Filter expressions should evaluate to a boolean, but '{operator}' returns " ++
            type.text) expressionRule).suggest
          "Wrap the value in a comparison such as [\"==\", ...]"
  | _, _, _ => none

/-! ## Validation -/

/-- What validation says about an expression. -/
structure Validation where
  findings : Findings
  /-- The kind of the root; absent when the document could not be read. -/
  typeName : Option String
  resultType : Option ValueType
  /-- The depth of the deepest node examined. -/
  depth : Nat
  context : Option Context
  deriving DecidableEq

namespace Expression

/-- Validate an expression. -/
def validate (e : Expression) (context : Option Context) (limits : Limits) : Validation :=
  let visits := e.walk limits.walkDepth []
  let examined := visits.filter (·.depth ≤ limits.walkDepth)
  let nesting := examined.find? (limits.recommendedDepth < ·.depth)
  let cut := visits.find? (limits.walkDepth < ·.depth)
  { findings :=
      { errors := examined.filterMap Visit.error?
        warnings :=
          (nesting.map (Visit.nestingWarning limits)).toList ++
            (cut.map (Visit.cutWarning limits)).toList ++
            (filterWarning? e context).toList
        infos := [] }
    typeName := some e.typeName
    resultType := e.resultType?
    depth := (examined.map Visit.depth).foldl max 0
    context }

end Expression

/-- A refused document as a single error. -/
def DocumentError.toDiagnostic (e : DocumentError) (rule : String) : Diagnostic :=
  let code := if e.kind = .inputParse then Code.inputParse else Code.invalidStructure
  (Diagnostic.error code e.message rule).located (e.path.getD "")

namespace Validation

/-- What is said about a document that is refused. -/
def ofError (e : DocumentError) (context : Option Context) : Validation :=
  { findings := .ofList [e.toDiagnostic expressionRule]
    typeName := none
    resultType := none
    depth := 0
    context }

/-- Validate a document as an expression. -/
def ofDocument (document : Document) (context : Option Context) (limits : Limits) : Validation :=
  match document.resolve with
  | .ok value => (Expression.ofJson value).validate context limits
  | .error e => ofError e context

/-- The facts about an expression as a JSON object. What is absent is left out. -/
def metadata (v : Validation) : Json :=
  .object <|
    (v.typeName.map fun name => ("expressionType", Json.string name)).toList ++
    (v.resultType.map fun type => ("returnType", Json.string type.text)).toList ++
    [("depth", .ofNat v.depth)] ++
    (v.context.map fun context => ("context", Json.string context.text)).toList

/-- The report as a JSON object. -/
def toJson (v : Validation) : Json :=
  .object (v.findings.members ++ [("metadata", v.metadata)])

end Validation

end CartoStyle
