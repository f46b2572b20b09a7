import CartoStyle.Lint.Report
import CartoStyle.Proofs.Expression.Examined
import CartoStyle.Proofs.Lint.ErrorCount

set_option autoImplicit false

/-! # Styles without errors

When each rule reports no error, said in terms of the decoded style, and when a report is valid: a run
that the cap did not stop has collected what all rules found (`Lint.collect_of_not_stopped`), so its
report is valid just when no rule reports an error (`StyleReport.valid_iff`). -/

namespace CartoStyle

/-! ## Reports -/

namespace Findings

theorem valid_ofList_iff {found : List Diagnostic} :
    (ofList found).valid ↔ errorCount found = 0 := by
  rw [valid, List.isEmpty_iff, ofList, List.filter_eq_nil_iff, errorCount, List.countP_eq_zero]

/-- Diagnostics that are sorted out already stay as they are. -/
theorem ofList_toList_ofList (found : List Diagnostic) :
    ofList (ofList found).toList = ofList found := by
  have hother : ∀ s t : Severity, s ≠ t →
      (found.filter (·.severity == s)).filter (·.severity == t) = [] := by
    intro s t hne
    rw [List.filter_eq_nil_iff]
    intro d hd
    obtain rfl : d.severity = s := by simpa using (List.mem_filter.1 hd).2
    simpa using hne
  simp [ofList, toList, List.filter_append, hother]

end Findings

/-! ## Runs -/

namespace Lint

variable {config : LintConfig} {style : Style}

/-- A run that was not stopped has collected everything. -/
theorem collect_of_not_stopped {rules : List Rule} {found : List Diagnostic}
    (h : (collect config style found rules).2 = false) :
    (collect config style found rules).1 = found ++ rules.flatMap (Rule.findings config style) := by
  induction rules generalizing found with
  | nil => simp [collect]
  | cons rule rest ih =>
    rw [collect] at h ⊢
    by_cases hfull : config.cap ≤ found.length
    · simp [hfull] at h
    rw [if_neg hfull] at h ⊢
    dsimp only at h ⊢
    by_cases hbeyond : config.cap < (found ++ rule.findings config style).length
    · rw [if_pos hbeyond] at h
      simp at h
    rw [if_neg hbeyond] at h ⊢
    rw [ih h, List.append_assoc, List.flatMap_cons]

/-- A run without the warning about the cap was not stopped. -/
theorem not_stopped_of_no_capWarning {rules : List Rule}
    (h : ∀ d ∈ (Findings.ofList (run config rules style)).warnings,
      d.code ≠ .custom "diagnostic-limit-exceeded") :
    (collect config style [] rules).2 = false := by
  rw [run, Findings.ofList_toList_ofList] at h
  by_contra hstopped
  rw [if_pos (by simpa using hstopped)] at h
  exact h (capWarning config.cap) (by simp [Findings.ofList, capWarning, Diagnostic.warning]) rfl

/-- Without settings a rule adds what it finds. -/
theorem findings_default (rule : Rule) :
    rule.findings {} style = rule.check {} style := by
  show (rule.check {} style).filter (fun d => Severity.info.rank ≤ d.severity.rank) = _
  rw [List.filter_eq_self]
  simp [Severity.rank]

end Lint

namespace Rule

theorem mem_all (rule : Rule) : rule ∈ all := by
  cases rule <;> decide

end Rule

/-! ## Reports on values -/

namespace StyleReport

/-- **A value is valid when it is a style in which no rule finds an error,** unless the cap stopped
    the run. -/
theorem valid_iff {value : Json}
    (complete : ∀ d ∈ (ofJson {} value).findings.warnings,
      d.code ≠ .custom "diagnostic-limit-exceeded") :
    (ofJson {} value).findings.valid ↔
      ∃ s, Style.ofJson .strict value = .ok s ∧ ∀ rule : Rule, errorCount (rule.check {} s) = 0 := by
  rw [ofJson] at complete ⊢
  cases hs : Style.ofJson .strict value with
  | error e =>
    rw [hs] at complete
    simp [ofError, Findings.valid_ofList_iff, errorCount, DocumentError.toDiagnostic,
      Diagnostic.located, Diagnostic.error]
  | ok s =>
    rw [hs] at complete
    have hall := Lint.collect_of_not_stopped (Lint.not_stopped_of_no_capWarning complete)
    have hstopped := Lint.not_stopped_of_no_capWarning complete
    dsimp only
    rw [Lint.run, Findings.ofList_toList_ofList, Findings.valid_ofList_iff, hstopped]
    simp only [Bool.false_eq_true, if_false, hall, List.nil_append, errorCount,
      List.countP_flatMap, List.sum_eq_zero_iff_forall_eq_nat, List.mem_map, forall_exists_index,
      and_imp, forall_apply_eq_imp_iff₂, Function.comp_apply, Lint.findings_default]
    constructor
    · intro h
      exact ⟨s, rfl, fun rule => h rule rule.mem_all⟩
    · rintro ⟨_, heq, h⟩ rule -
      obtain rfl := Except.ok.inj heq
      exact h rule

end StyleReport

/-! ## Rules -/

namespace Rule

variable {style : Style}

theorem errorCount_checkVersion_eq_zero_iff :
    errorCount (checkVersion style) = 0 ↔ ∃ v, style.version = some v ∧ isFormatVersion v := by
  unfold checkVersion
  cases style.version with
  | none => simp [errorCount, Diagnostic.located, Diagnostic.error]
  | some v =>
    by_cases hv : isFormatVersion v
    · simp [hv, errorCount]
    · simp [hv, errorCount, Diagnostic.located, Diagnostic.suggest, Diagnostic.error]

theorem errorCount_checkRequiredFields_eq_zero_iff :
    errorCount (checkRequiredFields style) = 0 ↔ style.sources.isSome ∧ style.layers.isSome := by
  rw [errorCount_checkRequiredFields]
  cases style.sources <;> cases style.layers <;> simp

theorem repeats_eq_zero_iff {seen names : List String} :
    repeats seen names = 0 ↔ names.Nodup ∧ ∀ name ∈ names, name ∉ seen := by
  induction names generalizing seen with
  | nil => simp [repeats]
  | cons name rest ih =>
    rw [repeats, Nat.add_eq_zero_iff, ih, List.nodup_cons, List.forall_mem_cons]
    simp only [ite_eq_right_iff, Nat.one_ne_zero, imp_false, List.mem_cons, not_or]
    constructor
    · rintro ⟨hseen, hnodup, hrest⟩
      exact ⟨⟨fun hm => (hrest name hm).1 rfl, hnodup⟩, hseen, fun n hn => (hrest n hn).2⟩
    · rintro ⟨⟨hname, hnodup⟩, hseen, hrest⟩
      exact ⟨hseen, hnodup, fun n hn => ⟨fun he => hname (he ▸ hn), hrest n hn⟩⟩

theorem errorCount_checkDuplicateLayerId_eq_zero_iff :
    errorCount (checkDuplicateLayerId style) = 0 ↔ (style.layerList.map Layer.name).Nodup := by
  rw [errorCount_checkDuplicateLayerId, repeats_eq_zero_iff]
  simp

/-- The elements of a list cost nothing in sum when none does. -/
theorem sum_map_eq_zero_iff {α : Type} {cost : α → Nat} {as : List α} :
    (as.map cost).sum = 0 ↔ ∀ a ∈ as, cost a = 0 := by
  rw [List.sum_eq_zero_iff_forall_eq_nat, List.forall_mem_map]

theorem referenceErrors_eq_zero_iff {l : Layer} :
    referenceErrors style l = 0 ↔
      (l.isBackground = false → ∃ name source, l.source = some name ∧
        style.source? name = some source) := by
  unfold referenceErrors
  cases l.isBackground with
  | true => simp
  | false =>
    cases l.source with
    | none => simp
    | some name => cases h : style.source? name <;> simp [h]

theorem partErrors_eq_zero_iff {l : Layer} :
    partErrors style l = 0 ↔
      (l.isBackground = false → ∀ name, l.source = some name →
        ∀ source, style.source? name = some source →
          (source.requiresSourceLayer → l.sourceLayer.isSome) ∧
          (source.forbidsSourceLayer → ¬l.sourceLayer.isSome)) := by
  unfold partErrors
  cases l.isBackground with
  | true => simp
  | false =>
    cases l.source with
    | none => simp
    | some name =>
      cases h : style.source? name with
      | none => simp [h]
      | some source => cases l.sourceLayer <;> simp [h]

/-- Whether every array that validation examines within a limit is sound. -/
def SoundWithin (limit : Nat) (e : Expression) : Prop :=
  ∀ path node, Expression.Examined e path node → path.length ≤ limit → node.isArray → node.Sound

theorem soundWithin_of_not_array {limit : Nat} {e : Expression} (h : e.isArray = false) :
    SoundWithin limit e := by
  rw [SoundWithin, ← Expression.faults_walk_eq_nil_iff]
  exact Expression.faults_walk_of_not_array h []

theorem expressionErrors_eq_zero_iff {limits : Limits} {l : Layer} :
    expressionErrors limits l = 0 ↔
      ∀ entry ∈ l.expressions, SoundWithin limits.walkDepth entry.2 := by
  rw [expressionErrors, sum_map_eq_zero_iff]
  simp only [List.length_eq_zero_iff, Expression.faults_walk_eq_nil_iff, SoundWithin]

theorem zoomErrors_eq_zero_iff {l : Layer} :
    zoomErrors l = 0 ↔ ∀ least greatest, l.minzoom = some least → l.maxzoom = some greatest →
      ¬greatest.toFloat < least.toFloat := by
  unfold zoomErrors
  cases l.minzoom <;> cases l.maxzoom <;> simp

end Rule

end CartoStyle
