import CartoStyle.Proofs.Lint.Order

set_option autoImplicit false

/-! # When a run warns about the cap

The cap is looked at before each rule and again behind what the rule reports. The first look cannot
know whether anything is still to come: a run that meets the cap exactly is stopped unless its last
rule is the one that meets it (`Lint.stopped_iff`). So a run that left something out says so, but one
that left nothing out may say so as well (`Lint.capWarning_mem_run_iff`). -/

namespace CartoStyle

namespace Lint

variable {config : LintConfig} {rules : List Rule} {style : Style}

/-- Whether the last rule adds nothing: it is disabled, or finds nothing that is grave enough. -/
def LastAddsNothing (config : LintConfig) (rules : List Rule) (style : Style) : Prop :=
  ∃ last ∈ rules.getLast?, last.findings config style = []

theorem not_lastAddsNothing_nil : ¬LastAddsNothing config [] style := by
  simp [LastAddsNothing]

theorem lastAddsNothing_singleton {rule : Rule} :
    LastAddsNothing config [rule] style ↔ rule.findings config style = [] := by
  simp [LastAddsNothing]

theorem lastAddsNothing_cons_cons {rule next : Rule} {rest : List Rule} :
    LastAddsNothing config (rule :: next :: rest) style ↔
      LastAddsNothing config (next :: rest) style := by
  rw [LastAddsNothing, LastAddsNothing, List.getLast?_cons_cons]

/-- When no rule adds anything, the last one does not. -/
theorem lastAddsNothing_of_flatMap_eq_nil (hne : rules ≠ [])
    (h : rules.flatMap (Rule.findings config style) = []) : LastAddsNothing config rules style :=
  ⟨rules.getLast hne, List.getLast?_eq_some_getLast hne,
    List.flatMap_eq_nil_iff.1 h _ (List.getLast_mem hne)⟩

/-- **When the cap stops a run:** what it has collected and what its rules add is more than the cap
    allows, or is just as much and the last rule adds nothing. -/
theorem stopped_iff {found : List Diagnostic} (h : found.length ≤ config.cap) :
    (collect config style found rules).2 ↔
      config.cap < (found ++ rules.flatMap (Rule.findings config style)).length ∨
        (found ++ rules.flatMap (Rule.findings config style)).length = config.cap ∧
          LastAddsNothing config rules style := by
  induction rules generalizing found with
  | nil => simpa [collect, not_lastAddsNothing_nil] using h
  | cons rule rest ih =>
    rw [collect]
    by_cases hfull : config.cap ≤ found.length
    · -- Nothing fits any more: either something is left out, or no rule has anything to add.
      rw [if_pos hfull, List.length_append]
      refine iff_of_true rfl ?_
      by_cases hnothing : (rule :: rest).flatMap (Rule.findings config style) = []
      · have hlast := lastAddsNothing_of_flatMap_eq_nil (List.cons_ne_nil rule rest) hnothing
        rw [hnothing, List.length_nil]
        exact .inr ⟨by omega, hlast⟩
      · have hsome := List.length_pos_iff.2 hnothing
        exact .inl (by omega)
    rw [if_neg hfull, List.flatMap_cons, ← List.append_assoc]
    dsimp only
    by_cases hbeyond : config.cap < (found ++ rule.findings config style).length
    · rw [if_pos hbeyond, List.length_append]
      exact iff_of_true rfl (.inl (by omega))
    rw [if_neg hbeyond, ih (Nat.le_of_not_lt hbeyond)]
    cases rest with
    | nil =>
      -- The last rule may meet the cap, but then it adds something.
      rw [lastAddsNothing_singleton, List.flatMap_nil, List.append_nil]
      refine or_congr_right (iff_of_false ?_ ?_)
      · exact fun hmet => not_lastAddsNothing_nil hmet.2
      · intro hmet
        rw [hmet.2, List.append_nil] at hmet
        exact hfull hmet.1.ge
    | cons next rest => rw [lastAddsNothing_cons_cons]

theorem capWarning_mem_run_iff_stopped :
    capWarning config.cap ∈ run config rules style ↔ (collect config style [] rules).2 := by
  rw [run_eq, List.mem_append, List.mem_append, List.mem_append]
  by_cases hstopped : (collect config style [] rules).2
  · simp [hstopped]
  · simp [hstopped, capWarning_not_mem_kept]

/-- **When a run warns that diagnostics were left out.** They are left out when its rules report more
    than the cap allows. Then the run says so, and it also says so when they report just as much and
    the last of them adds nothing, although nothing is left out. -/
theorem capWarning_mem_run_iff (config : LintConfig) (rules : List Rule) (style : Style) :
    (((run config rules style).filter (· ≠ capWarning config.cap)).length <
        (reported config rules style).length ↔
      config.cap < (reported config rules style).length) ∧
    (capWarning config.cap ∈ run config rules style ↔
      config.cap < (reported config rules style).length ∨
        (reported config rules style).length = config.cap ∧
          LastAddsNothing config rules style) := by
  constructor
  · rw [run_without_capWarning, List.length_mergeSort, List.length_take]
    omega
  · rw [capWarning_mem_run_iff_stopped, stopped_iff (Nat.zero_le _), List.nil_append,
      reported_eq_flatMap]

/-- The background drawn from a level that does not exist to a lower one gives two findings, as many
    as the cap allows. Both are listed, and yet the run says that it left some out. -/
theorem capWarning_of_all_listed :
    let config : LintConfig := { cap := 2 }
    let style := Style.read StyleReport.misranged
    config.fault? = none ∧
      Style.ofJson .strict (.object StyleReport.misranged) = .ok style ∧
      ¬(capWarning config.cap ∈ run config Rule.all style ↔
        config.cap < (reported config Rule.all style).length) ∧
      ¬(capWarning config.cap ∈ run config Rule.all style ↔
        ∃ d ∈ reported config Rule.all style, d ∉ run config Rule.all style) := by
  intro config style
  have hstyle : Style.ofJson .strict (.object StyleReport.misranged) = .ok style :=
    Style.ofJson_strict_object_iff.2 ⟨by decide +kernel, rfl⟩
  have hwarned : capWarning config.cap ∈ run config Rule.all style := by decide +kernel
  refine ⟨by decide +kernel, hstyle, ?_, ?_⟩
  · rw [iff_true_left hwarned]
    decide +kernel
  · rw [iff_true_left hwarned]
    decide +kernel

end Lint

end CartoStyle
