import CartoStyle.Proofs.Json.Members
import CartoStyle.Proofs.Lint.CapWarning
import Mathlib.Data.List.Nodup

set_option autoImplicit false

/-! # Disabling a rule

A rule reports its findings under its own id (`Rule.makes_findings`) and does not look at what other
rules report. So a run in which one rule is disabled lists what the run with it lists, less what is
reported under its id (`Lint.run_disable`), as long as the cap leaves nothing out. -/

namespace CartoStyle

/-! ## Settings -/

/-- Giving a rule a setting leaves those of the other rules as they are. -/
theorem LintConfig.setting_set (config : LintConfig) (id : String) (setting : RuleSetting)
    (other : String) :
    (config.set id setting).setting other = if other = id then setting else config.setting other := by
  unfold LintConfig.setting set
  rw [Members.lookup_put]
  split <;> rfl

/-! ## Rules -/

namespace Rule

variable {config : LintConfig} {style : Style}

/-- No two rules share an id. -/
theorem id_injective : Function.Injective Rule.id := by
  intro rule other h
  have hnodup : (all.map Rule.id).Nodup := by decide
  exact List.inj_on_of_nodup_map hnodup rule.mem_all other.mem_all h

/-- Disabling a rule takes away what it adds to a run and nothing of what the others add. -/
theorem findings_disable (rule other : Rule) :
    other.findings (config.set rule.id { enabled := false }) style =
      (other.findings config style).filter (·.rule ≠ rule.id) := by
  by_cases hsame : other = rule
  · have hnone : rule.findings (config.set rule.id { enabled := false }) style = [] := by
      simp [findings, LintConfig.setting_set]
    rw [hsame, hnone, eq_comm, List.filter_eq_nil_iff]
    intro d hd
    simp [(rule.makes_findings config d hd).2]
  · have hid : other.id ≠ rule.id := fun he => hsame (id_injective he)
    have hadded : other.findings (config.set rule.id { enabled := false }) style =
        other.findings config style := by
      unfold findings
      rw [LintConfig.setting_set, if_neg hid]
      rfl
    rw [hadded, eq_comm, List.filter_eq_self]
    intro d hd
    simp [(other.makes_findings config d hd).2, hid]

end Rule

/-! ## Runs -/

/-- Leaving diagnostics out before or after sorting is the same. -/
theorem Findings.toList_ofList_filter (p : Diagnostic → Bool) (found : List Diagnostic) :
    (ofList (found.filter p)).toList = (ofList found).toList.filter p := by
  simp only [ofList, toList, List.filter_append, List.filter_comm]

namespace Lint

variable {config : LintConfig} {rules : List Rule} {style : Style}

theorem reported_disable (rule : Rule) :
    reported (config.set rule.id { enabled := false }) rules style =
      (reported config rules style).filter (·.rule ≠ rule.id) := by
  rw [reported_eq_flatMap, reported_eq_flatMap, List.filter_flatMap]
  exact List.flatMap_congr fun other _ => Rule.findings_disable rule other

/-- A run with room for one more diagnostic lists all that its rules report. -/
theorem run_of_room (room : (reported config rules style).length < config.cap) :
    run config rules style = (Findings.ofList (reported config rules style)).toList := by
  have hstopped : (collect config style [] rules).2 = false := by
    rw [Bool.eq_false_iff, Ne, stopped_iff (Nat.zero_le _), List.nil_append, ← reported_eq_flatMap]
    rintro (hmore | ⟨hmet, -⟩) <;> omega
  have hcollected := collect_of_not_stopped hstopped
  rw [List.nil_append, ← reported_eq_flatMap] at hcollected
  simp only [run, hstopped, hcollected, Bool.false_eq_true, if_false]

/-- **Disabling a rule takes away exactly its own findings.** When the rules report less than the cap
    allows, the run without a rule lists what the run with it lists, in the same order, less what is
    reported under the id of that rule. -/
theorem run_disable (config : LintConfig) (rules : List Rule) (style : Style)
    (room : (reported config rules style).length < config.cap) (rule : Rule) :
    run (config.set rule.id { enabled := false }) rules style =
      (run config rules style).filter (·.rule ≠ rule.id) := by
  have hroom : (reported (config.set rule.id { enabled := false }) rules style).length <
      (config.set rule.id { enabled := false }).cap := by
    rw [reported_disable]
    exact (List.length_filter_le _ _).trans_lt room
  rw [run_of_room hroom, run_of_room room, reported_disable, Findings.toList_ofList_filter]

/-- Without the rule about the version, a style without fields still lacks its sources and layers. -/
theorem run_disable_version :
    let config : LintConfig := {}
    let style := Style.read []
    (reported config Rule.all style).length < config.cap ∧
      (run config Rule.all style).map (·.rule) =
        ["version", "required-fields", "required-fields"] ∧
      (run (config.set "version" { enabled := false }) Rule.all style).map (·.rule) =
        ["required-fields", "required-fields"] := by
  intro config style
  have room : (reported config Rule.all style).length < config.cap := by decide +kernel
  have hrules : (run config Rule.all style).map (·.rule) =
      ["version", "required-fields", "required-fields"] := by decide +kernel
  have hdisabled := run_disable config Rule.all style room .version
  refine ⟨room, hrules, (congrArg _ hdisabled).trans ?_⟩
  decide +kernel

end Lint

end CartoStyle
