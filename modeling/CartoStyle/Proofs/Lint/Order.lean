import CartoStyle.Proofs.Lint.Codes

set_option autoImplicit false

/-! # The order of a report

A run reports the first diagnostics of its rules, as many as the cap allows, stably sorted by
severity (`Findings.toList_ofList_eq_mergeSort`). Its own warning about the cap is none of theirs
(`Lint.capWarning_not_mem_reported`) and stands behind the other warnings and before the notes
(`Lint.run_eq`). -/

namespace CartoStyle

/-! ## Sorting by severity -/

/-- Whether a diagnostic may stand before another one: it is as grave or graver. -/
def Diagnostic.mayPrecede (a b : Diagnostic) : Bool := b.severity.rank ≤ a.severity.rank

namespace Findings

/-- Diagnostics that stand in order are not moved. -/
theorem toList_ofList_of_pairwise {found : List Diagnostic}
    (h : found.Pairwise fun a b => a.mayPrecede b) : (ofList found).toList = found := by
  induction found with
  | nil => rfl
  | cons d rest ih =>
    obtain ⟨hfirst, hrest⟩ := List.pairwise_cons.1 h
    have hsorted : rest.filter (·.severity == .error) ++ rest.filter (·.severity == .warning) ++
        rest.filter (·.severity == .info) = rest := ih hrest
    -- Nothing that is graver than the first diagnostic comes after it.
    have hnone : ∀ s : Severity, d.severity.rank < s.rank → rest.filter (·.severity == s) = [] := by
      intro s hs
      rw [List.filter_eq_nil_iff]
      intro e he hsame
      have hrank : e.severity.rank ≤ d.severity.rank := by
        simpa [Diagnostic.mayPrecede] using hfirst e he
      rw [beq_iff_eq.1 hsame] at hrank
      omega
    cases hd : d.severity with
    | error => simpa [toList, ofList, hd] using hsorted
    | warning =>
      have herrors := hnone .error (by simp [hd, Severity.rank])
      rw [herrors] at hsorted
      simpa [toList, ofList, hd, herrors] using hsorted
    | info =>
      have herrors := hnone .error (by simp [hd, Severity.rank])
      have hwarnings := hnone .warning (by simp [hd, Severity.rank])
      rw [herrors, hwarnings] at hsorted
      simpa [toList, ofList, hd, herrors, hwarnings] using hsorted

theorem mayPrecede_trans (a b c : Diagnostic) (hab : a.mayPrecede b) (hbc : b.mayPrecede c) :
    a.mayPrecede c := by
  simp only [Diagnostic.mayPrecede, decide_eq_true_eq] at *
  omega

theorem mayPrecede_total (a b : Diagnostic) : a.mayPrecede b || b.mayPrecede a := by
  simp only [Diagnostic.mayPrecede, Bool.or_eq_true, decide_eq_true_eq]
  omega

/-- Sorting keeps the order of the diagnostics of one severity. -/
theorem filter_severity_mergeSort (found : List Diagnostic) (s : Severity) :
    (found.mergeSort Diagnostic.mayPrecede).filter (·.severity == s) =
      found.filter (·.severity == s) := by
  have hordered : (found.filter (·.severity == s)).Pairwise fun a b => a.mayPrecede b := by
    refine List.pairwise_filter.2 (List.pairwise_of_forall fun a b ha hb => ?_)
    simp [Diagnostic.mayPrecede, beq_iff_eq.1 ha, beq_iff_eq.1 hb]
  have hsublist : (found.filter (·.severity == s)).Sublist
      ((found.mergeSort Diagnostic.mayPrecede).filter (·.severity == s)) := by
    have := (List.sublist_mergeSort mayPrecede_trans mayPrecede_total hordered
      List.filter_sublist).filter (·.severity == s)
    simpa using this
  exact (hsublist.eq_of_length
    ((List.mergeSort_perm found _).filter _).length_eq.symm).symm

/-- **Sorting diagnostics out is sorting them stably by severity,** errors first. -/
theorem toList_ofList_eq_mergeSort (found : List Diagnostic) :
    (ofList found).toList = found.mergeSort Diagnostic.mayPrecede := by
  have hsame : ofList (found.mergeSort Diagnostic.mayPrecede) = ofList found := by
    simp only [ofList, filter_severity_mergeSort]
  rw [← hsame]
  exact toList_ofList_of_pairwise (List.pairwise_mergeSort mayPrecede_trans mayPrecede_total found)

end Findings

/-! ## What the rules of a run report -/

namespace Lint

variable {config : LintConfig} {rules : List Rule} {style : Style}

/-- What the rules that are not disabled report, rule by rule: what each finds, escalated where
    that is set, without what is too mild. -/
def reported (config : LintConfig) (rules : List Rule) (style : Style) : List Diagnostic :=
  (rules.filter fun rule => (config.setting rule.id).enabled).flatMap fun rule =>
    ((rule.check config.limits style).map (rule.amended config)).filter fun d =>
      config.leastSeverity.rank ≤ d.severity.rank

theorem reported_eq_flatMap :
    reported config rules style = rules.flatMap (Rule.findings config style) := by
  unfold reported
  induction rules with
  | nil => rfl
  | cons rule rest ih =>
    rw [List.flatMap_cons, Rule.findings_eq_filter, ← ih, List.filter_cons]
    by_cases henabled : (config.setting rule.id).enabled
    · rw [if_pos henabled, if_pos henabled, List.flatMap_cons]
    · rw [if_neg henabled, if_neg henabled, List.nil_append]

/-- The warning about the cap is of a kind that no rule reports. -/
theorem capWarning_not_mem_reported : capWarning config.cap ∉ reported config rules style := by
  rw [reported_eq_flatMap]
  intro h
  obtain ⟨rule, -, hd⟩ := List.mem_flatMap.1 h
  have hcode : Code.custom "diagnostic-limit-exceeded" ∈ rule.codes :=
    (rule.makes_findings config _ hd).1
  revert hcode
  cases rule <;> decide

/-! ## Runs -/

/-- What rules report of one severity, as far as it fits under the cap. -/
def kept (config : LintConfig) (rules : List Rule) (style : Style) (s : Severity) :
    List Diagnostic :=
  ((reported config rules style).take config.cap).filter (·.severity == s)

theorem severity_of_mem_kept {s : Severity} {d : Diagnostic} (h : d ∈ kept config rules style s) :
    d.severity = s :=
  beq_iff_eq.1 (List.mem_filter.1 h).2

theorem capWarning_not_mem_kept {s : Severity} :
    capWarning config.cap ∉ kept config rules style s :=
  fun h => capWarning_not_mem_reported (List.mem_of_mem_take (List.mem_of_mem_filter h))

/-- **A run lists what fits under the cap, errors first,** and the warning about the cap, if any,
    behind the other warnings. -/
theorem run_eq (config : LintConfig) (rules : List Rule) (style : Style) :
    run config rules style =
      kept config rules style .error ++
        (kept config rules style .warning ++
          if (collect config style [] rules).2 then [capWarning config.cap] else []) ++
        kept config rules style .info := by
  have hcollected : (collect config style [] rules).1 =
      (reported config rules style).take config.cap := by
    rw [collect_eq_take (Nat.zero_le _), reported_eq_flatMap, List.nil_append]
  rw [run]
  simp only [hcollected, kept]
  split <;> simp [Findings.ofList, Findings.toList, capWarning, Diagnostic.warning]

/-- Without the warning about the cap a run is what its rules report, cut and stably sorted. -/
theorem run_without_capWarning :
    (run config rules style).filter (· ≠ capWarning config.cap) =
      ((reported config rules style).take config.cap).mergeSort Diagnostic.mayPrecede := by
  have hkept : ∀ s, (kept config rules style s).filter (· ≠ capWarning config.cap) =
      kept config rules style s := by
    intro s
    rw [List.filter_eq_self]
    intro d hd
    have hne : d ≠ capWarning config.cap := fun he => capWarning_not_mem_kept (he ▸ hd)
    simpa using hne
  have hwarning : (if (collect config style [] rules).2 then [capWarning config.cap] else []).filter
      (· ≠ capWarning config.cap) = [] := by
    split <;> simp
  rw [run_eq, List.filter_append, List.filter_append, List.filter_append, hkept, hkept, hkept,
    hwarning, List.append_nil, ← Findings.toList_ofList_eq_mergeSort]
  rfl

/-- The warning about the cap stands once, behind the other warnings and before the notes. -/
theorem run_around_capWarning (h : capWarning config.cap ∈ run config rules style) :
    ∃ before after, run config rules style = before ++ capWarning config.cap :: after ∧
      capWarning config.cap ∉ before ∧ capWarning config.cap ∉ after ∧
      (∀ d ∈ before, d.severity ≠ .info) ∧ ∀ d ∈ after, d.severity = .info := by
  have hrun := run_eq config rules style
  by_cases hstopped : (collect config style [] rules).2
  · rw [if_pos hstopped] at hrun
    refine ⟨kept config rules style .error ++ kept config rules style .warning,
      kept config rules style .info, by simpa using hrun, ?_, capWarning_not_mem_kept, ?_,
      fun d hd => severity_of_mem_kept hd⟩
    · rw [List.mem_append, not_or]
      exact ⟨capWarning_not_mem_kept, capWarning_not_mem_kept⟩
    · intro d hd
      rcases List.mem_append.1 hd with hd | hd
      · simp [severity_of_mem_kept hd]
      · simp [severity_of_mem_kept hd]
  · -- A run that was not stopped lists nothing but what its rules report.
    rw [if_neg hstopped, List.append_nil] at hrun
    rw [hrun, List.mem_append, List.mem_append] at h
    rcases h with (h | h) | h <;> exact absurd h capWarning_not_mem_kept

end Lint

/-! ## Reports -/

/-- The report on a style lists its run as it is. -/
theorem StyleReport.toList_ofDocument {config : LintConfig} {style : Style} {document : Document}
    {value : Json} (hvalue : document.resolve = .ok value)
    (hstyle : Style.ofJson .strict value = .ok style) :
    (ofDocument config document).findings.toList = Lint.run config Rule.all style := by
  simp only [ofDocument, hvalue, ofJson, hstyle, Lint.run, Findings.ofList_toList_ofList]

/-- **What a run reports.** Its own warning about the cap apart, it reports the first diagnostics of
    its rules, as many as the cap allows, stably sorted by severity; that warning stands once, behind
    the other warnings and before the notes. The report on a style lists the run of all rules as it
    is, and is valid when no error is in it. -/
theorem Lint.run_exact (config : LintConfig) (rules : List Rule) (style : Style) :
    (run config rules style).filter (· ≠ capWarning config.cap) =
      ((reported config rules style).take config.cap).mergeSort Diagnostic.mayPrecede ∧
    (capWarning config.cap ∈ run config rules style →
      ∃ before after, run config rules style = before ++ capWarning config.cap :: after ∧
        capWarning config.cap ∉ before ∧ capWarning config.cap ∉ after ∧
        (∀ d ∈ before, d.severity ≠ .info) ∧ ∀ d ∈ after, d.severity = .info) ∧
    ∀ document value, document.resolve = .ok value → Style.ofJson .strict value = .ok style →
      let findings := (StyleReport.ofDocument config document).findings
      findings.errors ++ findings.warnings ++ findings.infos = run config Rule.all style ∧
      (findings.valid ↔ ∀ d ∈ run config Rule.all style, d.severity ≠ .error) := by
  refine ⟨run_without_capWarning, run_around_capWarning, fun document value hvalue hstyle => ?_⟩
  refine ⟨StyleReport.toList_ofDocument hvalue hstyle, ?_⟩
  rw [StyleReport.valid_ofDocument_iff hvalue hstyle, Bool.not_eq_true', hasErrors,
    List.any_eq_false]
  simp

/-- A level that does not exist is raised to an error and uses up a cap of one, so that the warning
    about the cap follows. -/
theorem Lint.run_exact_misranged :
    let config : LintConfig := { cap := 1, settings := [("zoom-range", { escalate := true })] }
    let style := Style.read StyleReport.misranged
    Style.ofJson .strict (.object StyleReport.misranged) = .ok style ∧
      capWarning 1 ∈ run config Rule.all style ∧
      (run config Rule.all style).map (·.severity) = [.error, .warning] ∧
      (StyleReport.ofDocument config (.value (.object StyleReport.misranged))).findings.valid =
        false := by
  intro config style
  have hstyle : Style.ofJson .strict (.object StyleReport.misranged) = .ok style :=
    Style.ofJson_strict_object_iff.2 ⟨by decide +kernel, rfl⟩
  have hmem : capWarning 1 ∈ run config Rule.all style := by decide +kernel
  have hsorted : (run config Rule.all style).map (·.severity) = [.error, .warning] := by
    decide +kernel
  obtain ⟨-, -, hreport⟩ := run_exact config Rule.all style
  obtain ⟨-, hvalid⟩ := hreport (.value (.object StyleReport.misranged)) _ rfl hstyle
  refine ⟨hstyle, hmem, hsorted, ?_⟩
  rw [Bool.eq_false_iff, Ne, hvalid]
  intro h
  exact absurd h (by decide +kernel)

end CartoStyle
