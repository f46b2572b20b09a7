import CartoStyle.Proofs.Lint.NoErrors
import CartoStyle.Proofs.Style.Strict

set_option autoImplicit false

/-! # Errors and the cap

A run keeps the first diagnostics of its rules, as many as the cap allows (`Lint.collect_eq_take`), and
sorts them only then. So an error is in the report just when it comes early enough: when what is
reported before it, by earlier rules and by its own, leaves room for it (`Lint.ErrorWithinCap`,
`StyleReport.invalid_iff_errorWithinCap`). Warnings that come first can use up the cap, and then a
style with an error is reported as valid (`StyleReport.valid_of_cap_met`). -/

namespace CartoStyle

/-! ## Lists that are cut -/

/-- What is left of a cut list of lists stands in one of them, behind all of those before it. -/
theorem exists_mem_take_flatMap_iff {α β : Type} {f : α → List β} {as : List α} {n : Nat}
    {p : β → Prop} :
    (∃ b ∈ (as.flatMap f).take n, p b) ↔
      ∃ before a after, as = before ++ a :: after ∧
        ∃ b ∈ (f a).take (n - (before.flatMap f).length), p b := by
  induction as generalizing n with
  | nil => simp
  | cons first rest ih =>
    rw [List.flatMap_cons, List.take_append]
    constructor
    · rintro ⟨b, hb, hp⟩
      rcases List.mem_append.1 hb with hfirst | hrest
      · exact ⟨[], first, rest, rfl, b, hfirst, hp⟩
      · obtain ⟨before, a, after, rfl, b, hb, hp⟩ := ih.1 ⟨b, hrest, hp⟩
        refine ⟨first :: before, a, after, rfl, b, ?_, hp⟩
        rwa [List.flatMap_cons, List.length_append, ← Nat.sub_sub]
    · rintro ⟨before, a, after, heq, b, hb, hp⟩
      cases before with
      | nil =>
        obtain ⟨rfl, rfl⟩ := List.cons.inj heq
        exact ⟨b, List.mem_append_left _ hb, hp⟩
      | cons other before =>
        obtain ⟨rfl, rfl⟩ := List.cons.inj heq
        rw [List.flatMap_cons, List.length_append, ← Nat.sub_sub] at hb
        obtain ⟨b, hb, hp⟩ := ih.2 ⟨before, a, after, rfl, b, hb, hp⟩
        exact ⟨b, List.mem_append_right _ hb, hp⟩

theorem exists_mem_take_toList_iff {α : Type} {found : Option α} {n : Nat} {p : α → Prop} :
    (∃ a ∈ found.toList.take n, p a) ↔ 0 < n ∧ ∃ a ∈ found.toList, p a := by
  cases n with
  | zero => simp
  | succ n => cases found <;> simp

/-! ## What a rule reports -/

namespace Rule

variable {config : LintConfig} {rule : Rule}

/-- What a diagnostic that a rule finds is reported as. -/
def amended (config : LintConfig) (rule : Rule) (d : Diagnostic) : Diagnostic :=
  if (config.setting rule.id).escalate then escalateWarning d else d

/-- What a rule reports of a diagnostic that it finds: nothing when it is too mild. -/
def reported? (config : LintConfig) (rule : Rule) (d : Diagnostic) : Option Diagnostic :=
  if config.leastSeverity.rank ≤ (rule.amended config d).severity.rank then
    some (rule.amended config d)
  else none

/-- Whether a diagnostic is reported as an error: it is one, or a warning that is escalated. -/
def Grave (config : LintConfig) (rule : Rule) (d : Diagnostic) : Prop :=
  d.severity = .error ∨ d.severity = .warning ∧ (config.setting rule.id).escalate

/-- An enabled rule reports what it finds, amended, without what is too mild. -/
theorem findings_eq_filter (style : Style) :
    rule.findings config style =
      if (config.setting rule.id).enabled then
        ((rule.check config.limits style).map (rule.amended config)).filter fun d =>
          config.leastSeverity.rank ≤ d.severity.rank
      else [] := by
  have hamended : ∀ found : List Diagnostic,
      (if (config.setting rule.id).escalate then found.map escalateWarning else found) =
        found.map (rule.amended config) := by
    intro found
    unfold amended
    cases (config.setting rule.id).escalate <;> simp
  rw [findings, ← hamended]

/-- The same, diagnostic by diagnostic. -/
theorem findings_eq (style : Style) :
    rule.findings config style =
      if (config.setting rule.id).enabled then
        (rule.check config.limits style).filterMap (reported? config rule)
      else [] := by
  have hreported : ∀ found : List Diagnostic,
      (found.map (rule.amended config)).filter
          (fun d => config.leastSeverity.rank ≤ d.severity.rank) =
        found.filterMap (reported? config rule) := by
    intro found
    induction found with
    | nil => rfl
    | cons d rest ih =>
      rw [List.map_cons, List.filter_cons, List.filterMap_cons, ih, reported?]
      by_cases hmild : config.leastSeverity.rank ≤ (rule.amended config d).severity.rank
      · simp [hmild]
      · simp [hmild]
  rw [findings_eq_filter, hreported]

theorem severity_amended_eq_error_iff {d : Diagnostic} :
    (rule.amended config d).severity = .error ↔ rule.Grave config d := by
  unfold amended Grave
  cases (config.setting rule.id).escalate with
  | false => simp
  | true =>
    rw [if_pos rfl, escalateWarning]
    by_cases hwarning : d.severity = .warning
    · simp [hwarning, Diagnostic.escalate]
    · simp [hwarning]

/-- What is reported as an error is never too mild. -/
theorem exists_reported?_error_iff {d : Diagnostic} :
    (∃ r ∈ (rule.reported? config d).toList, r.severity = .error) ↔ rule.Grave config d := by
  rw [← severity_amended_eq_error_iff]
  constructor
  · rintro ⟨r, hr, herror⟩
    rw [reported?] at hr
    split at hr
    · obtain rfl := List.mem_singleton.1 hr
      exact herror
    · simp at hr
  · intro herror
    have hrank : config.leastSeverity.rank ≤ (rule.amended config d).severity.rank := by
      rw [herror]
      cases config.leastSeverity <;> decide
    exact ⟨_, by simp [reported?, hrank], herror⟩

end Rule

/-! ## Runs -/

namespace Lint

variable {config : LintConfig} {style : Style}

/-- **A run collects the first of what its rules report,** as many as the cap allows. -/
theorem collect_eq_take {rules : List Rule} {found : List Diagnostic}
    (h : found.length ≤ config.cap) :
    (collect config style found rules).1 =
      (found ++ rules.flatMap (Rule.findings config style)).take config.cap := by
  induction rules generalizing found with
  | nil => simp [collect, List.take_of_length_le h]
  | cons rule rest ih =>
    rw [collect, List.flatMap_cons, ← List.append_assoc]
    by_cases hfull : config.cap ≤ found.length
    · have hcap : config.cap = found.length := by omega
      rw [if_pos hfull, hcap, List.append_assoc, List.take_left]
    rw [if_neg hfull]
    dsimp only
    by_cases hbeyond : config.cap < (found ++ rule.findings config style).length
    · rw [if_pos hbeyond, List.take_append_of_le_length (Nat.le_of_lt hbeyond)]
    · rw [if_neg hbeyond, ih (Nat.le_of_not_lt hbeyond)]

theorem mem_toList_ofList {found : List Diagnostic} {d : Diagnostic} :
    d ∈ (Findings.ofList found).toList ↔ d ∈ found := by
  cases h : d.severity <;> simp [Findings.toList, Findings.ofList, h]

/-- The warning about the cap is no error, so the errors of a run are those that it collected. -/
theorem hasErrors_run_iff {rules : List Rule} :
    hasErrors (run config rules style) ↔
      ∃ d ∈ (rules.flatMap (Rule.findings config style)).take config.cap, d.severity = .error := by
  have hcollected : (collect config style [] rules).1 = _ := collect_eq_take (Nat.zero_le _)
  rw [List.nil_append] at hcollected
  rw [hasErrors, List.any_eq_true, run]
  simp only [mem_toList_ofList, beq_iff_eq]
  rw [← hcollected]
  split
  · have hcap : (capWarning config.cap).severity ≠ .error := by
      simp [capWarning, Diagnostic.warning]
    constructor
    · rintro ⟨d, hd, herror⟩
      rcases List.mem_append.1 hd with hd | hd
      · exact ⟨d, hd, herror⟩
      · obtain rfl := List.mem_singleton.1 hd
        exact absurd herror hcap
    · rintro ⟨d, hd, herror⟩
      exact ⟨d, List.mem_append_left _ hd, herror⟩
  · rfl

/-- Whether an enabled rule finds an error, or a warning that it escalates, before the cap is met:
    what is reported before, by earlier rules and by the rule itself, leaves room for it. -/
def ErrorWithinCap (config : LintConfig) (rules : List Rule) (style : Style) : Prop :=
  ∃ earlier rule later before d after,
    rules = earlier ++ rule :: later ∧ (config.setting rule.id).enabled ∧
    rule.check config.limits style = before ++ d :: after ∧ rule.Grave config d ∧
    (earlier.flatMap (Rule.findings config style)).length +
      (before.filterMap (rule.reported? config)).length < config.cap

/-- What a rule reports, cut, holds an error when the rule finds one early enough. -/
theorem exists_error_mem_take_findings_iff {rule : Rule} {n : Nat} :
    (∃ d ∈ (rule.findings config style).take n, d.severity = .error) ↔
      (config.setting rule.id).enabled ∧ ∃ before d after,
        rule.check config.limits style = before ++ d :: after ∧ rule.Grave config d ∧
        (before.filterMap (rule.reported? config)).length < n := by
  rw [Rule.findings_eq]
  by_cases henabled : (config.setting rule.id).enabled
  · rw [if_pos henabled, List.filterMap_eq_flatMap_toList, exists_mem_take_flatMap_iff]
    simp only [exists_mem_take_toList_iff, Rule.exists_reported?_error_iff, Nat.sub_pos_iff_lt,
      ← List.filterMap_eq_flatMap_toList]
    constructor
    · rintro ⟨before, d, after, heq, hroom, hgrave⟩
      exact ⟨henabled, before, d, after, heq, hgrave, hroom⟩
    · rintro ⟨-, before, d, after, heq, hgrave, hroom⟩
      exact ⟨before, d, after, heq, hroom, hgrave⟩
  · simp [henabled]

theorem hasErrors_run_iff_errorWithinCap {rules : List Rule} :
    hasErrors (run config rules style) ↔ ErrorWithinCap config rules style := by
  rw [hasErrors_run_iff, exists_mem_take_flatMap_iff]
  simp only [exists_error_mem_take_findings_iff, Nat.lt_sub_iff_add_lt']
  constructor
  · rintro ⟨earlier, rule, later, heq, henabled, before, d, after, hcheck, hgrave, hroom⟩
    exact ⟨earlier, rule, later, before, d, after, heq, henabled, hcheck, hgrave, hroom⟩
  · rintro ⟨earlier, rule, later, before, d, after, heq, henabled, hcheck, hgrave, hroom⟩
    exact ⟨earlier, rule, later, heq, henabled, before, d, after, hcheck, hgrave, hroom⟩

end Lint

/-! ## Reports -/

namespace StyleReport

variable {config : LintConfig} {style : Style}

/-- The report on a style is valid when its run found no error. -/
theorem valid_ofDocument_iff {document : Document} {value : Json}
    (hvalue : document.resolve = .ok value) (hstyle : Style.ofJson .strict value = .ok style) :
    (ofDocument config document).findings.valid = !Lint.hasErrors (Lint.run config Rule.all style) := by
  have hfindings : (ofDocument config document).findings =
      Findings.ofList (Lint.run config Rule.all style) := by
    simp only [ofDocument, hvalue, ofJson, hstyle]
  have hnone : errorCount (Lint.run config Rule.all style) = 0 ↔
      Lint.hasErrors (Lint.run config Rule.all style) = false := by
    rw [errorCount, List.countP_eq_zero, Lint.hasErrors, List.any_eq_false]
  rw [hfindings, Bool.eq_iff_iff, Findings.valid_ofList_iff, hnone, Bool.not_eq_true']

/-- **The cap hides no error that comes early enough.** A run holds an error just when some enabled
    rule finds one, or a warning that it escalates, and what is reported before leaves room for it
    under the cap; with all rules this is when the report on the style is not valid. -/
theorem invalid_iff_errorWithinCap (config : LintConfig) (style : Style) :
    (∀ rules, Lint.hasErrors (Lint.run config rules style) ↔
      Lint.ErrorWithinCap config rules style) ∧
    ∀ document value, document.resolve = .ok value → Style.ofJson .strict value = .ok style →
      ((ofDocument config document).findings.valid = false ↔
        Lint.ErrorWithinCap config Rule.all style) := by
  refine ⟨fun rules => Lint.hasErrors_run_iff_errorWithinCap, ?_⟩
  intro document value hvalue hstyle
  rw [valid_ofDocument_iff hvalue hstyle, Bool.not_eq_false',
    Lint.hasErrors_run_iff_errorWithinCap]

/-- The background drawn from level 30, which does not exist, to level 20, which is less. -/
def misranged : List (String × Json) :=
  [("version", .ofNat 8), ("sources", .object []),
    ("layers", .array
      [.object
        [("id", .string "back"), ("type", .string "background"), ("minzoom", .ofNat 30),
          ("maxzoom", .ofNat 20)]])]

/-- Room for two diagnostics is room for the error behind the warning. -/
theorem errorWithinCap_misranged :
    Style.ofJson .strict (.object misranged) = .ok (Style.read misranged) ∧
      Lint.ErrorWithinCap { cap := 2 } Rule.all (Style.read misranged) := by
  have hstyle : Style.ofJson .strict (.object misranged) = .ok (Style.read misranged) :=
    Style.ofJson_strict_object_iff.2 ⟨by decide +kernel, rfl⟩
  have hinvalid : (ofDocument { cap := 2 } (.value (.object misranged))).findings.valid = false := by
    decide +kernel
  refine ⟨hstyle, ?_⟩
  exact ((invalid_iff_errorWithinCap { cap := 2 } _).2 _ _ rfl hstyle).1 hinvalid

/-- The warning about the level that does not exist uses up a cap of one, and the style is valid,
    although the settings make sense and an enabled rule finds an error. -/
theorem valid_of_cap_met :
    let config : LintConfig := { cap := 1 }
    config.fault? = none ∧
      Style.ofJson .strict (.object misranged) = .ok (Style.read misranged) ∧
      (∃ rule ∈ Rule.all, (config.setting rule.id).enabled ∧
        ∃ d ∈ rule.check config.limits (Style.read misranged), d.severity = .error) ∧
      Lint.hasErrors (Lint.run config Rule.all (Style.read misranged)) = false ∧
      (ofDocument config (.value (.object misranged))).findings.valid = true := by
  have hstyle : Style.ofJson .strict (.object misranged) = .ok (Style.read misranged) :=
    Style.ofJson_strict_object_iff.2 ⟨by decide +kernel, rfl⟩
  refine ⟨by decide +kernel, hstyle, ⟨.zoomRange, ?_⟩, by decide +kernel, by decide +kernel⟩
  decide +kernel

end StyleReport

end CartoStyle
