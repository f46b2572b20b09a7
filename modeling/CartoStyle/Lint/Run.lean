import CartoStyle.Lint.Rule

set_option autoImplicit false

/-! # Running lint rules

The rules run in order and their findings are collected up to a cap. A run that meets the cap stops
there and says so in a warning of its own. The report lists errors first. -/

namespace CartoStyle

/-! ## Settings -/

/-- How a rule is run. An escalated rule reports its warnings as errors. -/
structure RuleSetting where
  enabled : Bool := true
  escalate : Bool := false
  deriving DecidableEq, Repr, Inhabited

/-- How a style is linted. -/
structure LintConfig where
  settings : List (String × RuleSetting) := []
  leastSeverity : Severity := .info
  cap : Nat := 10000
  limits : Limits := {}
  deriving DecidableEq, Inhabited

/-- Why settings make no sense. -/
inductive ConfigFault where
  | tooManyRules (count : Nat)
  | emptyRuleId
  | longRuleId (bytes : Nat)
  | noDiagnostics
  deriving DecidableEq, Repr

namespace ConfigFault

/-- The greatest number of rules with a setting. -/
def mostRules : Nat := 1000

/-- The greatest number of bytes of a rule's id. -/
def longestRuleId : Nat := 100

/-- The fault in words. -/
def message : ConfigFault → String
  | .tooManyRules count => s!"Too many rule configurations: {count} (max: {mostRules})"
  | .emptyRuleId => "Empty rule ID not allowed"
  | .longRuleId bytes => s!"Rule ID too long: {bytes} bytes (max: {longestRuleId})"
  | .noDiagnostics => "max_diagnostics must be at least 1"

/-- The fault of a rule's id. -/
def ofRuleId? (id : String) : Option ConfigFault :=
  if id.isEmpty then some .emptyRuleId
  else if longestRuleId < id.utf8ByteSize then some (.longRuleId id.utf8ByteSize)
  else none

end ConfigFault

namespace LintConfig

/-- Give a rule a setting, which replaces an earlier one. -/
def set (config : LintConfig) (id : String) (setting : RuleSetting) : LintConfig :=
  { config with settings := Members.put id setting config.settings }

/-- The setting of a rule. -/
def setting (config : LintConfig) (id : String) : RuleSetting :=
  (config.settings.lookup id).getD {}

/-- The first reason why the settings make no sense. -/
def fault? (config : LintConfig) : Option ConfigFault :=
  if ConfigFault.mostRules < config.settings.length then
    some (.tooManyRules config.settings.length)
  else
    (Members.keys config.settings).findSome? ConfigFault.ofRuleId? <|>
      if config.cap = 0 then some .noDiagnostics else none

end LintConfig

/-! ## Findings of a rule -/

namespace Rule

/-- A warning as an error. -/
def escalateWarning (d : Diagnostic) : Diagnostic :=
  if d.severity = .warning then d.escalate else d

/-- What a rule adds to a run: nothing when it is disabled, otherwise its findings, escalated if
    that is set, without those that are too mild. -/
def findings (config : LintConfig) (style : Style) (rule : Rule) : List Diagnostic :=
  let setting := config.setting rule.id
  if setting.enabled then
    let found := rule.check config.limits style
    (if setting.escalate then found.map escalateWarning else found).filter fun d =>
      config.leastSeverity.rank ≤ d.severity.rank
  else []

end Rule

/-! ## Runs -/

namespace Lint

/-- Collect what the rules add to `found`, at most `cap` diagnostics. The flag says that the cap
    stopped the run: it was met before a rule, or a rule went beyond it. -/
def collect (config : LintConfig) (style : Style) (found : List Diagnostic) :
    List Rule → List Diagnostic × Bool
  | [] => (found, false)
  | rule :: rest =>
    if config.cap ≤ found.length then (found, true)
    else
      let found := found ++ rule.findings config style
      if config.cap < found.length then (found.take config.cap, true)
      else collect config style found rest

/-- The warning of a run that the cap stopped. -/
def capWarning (cap : Nat) : Diagnostic :=
  .warning (.custom "diagnostic-limit-exceeded")
    (s!"Diagnostic limit of {cap} exceeded. " ++ "Further diagnostics have been suppressed.")
    "lint-runner"

/-- Run rules on a style. -/
def run (config : LintConfig) (rules : List Rule) (style : Style) : List Diagnostic :=
  let (found, stopped) := collect config style [] rules
  (Findings.ofList (if stopped then found ++ [capWarning config.cap] else found)).toList

/-- Whether a run found an error. -/
def hasErrors (found : List Diagnostic) : Bool := found.any (·.severity == .error)

end Lint

end CartoStyle
