import CartoStyle.Proofs.Expression.Report
import CartoStyle.Proofs.Lint.Cap

set_option autoImplicit false

/-! # The codes of findings

Which kinds of findings each check makes (`Expression.ofCodes_validate`), and that a rule makes them
under its own id (`Rule.makes_check`). None of them says that a document could not be read, so a
report says that just when the document is not JSON text (`Validation.inputParse_iff`,
`StyleReport.inputParse_iff`). -/

namespace CartoStyle

/-- Whether all findings are of some kinds. -/
def OfCodes (codes : List Code) (found : List Diagnostic) : Prop := ∀ d ∈ found, d.code ∈ codes

namespace OfCodes

variable {codes : List Code} {found found' : List Diagnostic}

theorem nil : OfCodes codes [] := nofun

theorem append (h : OfCodes codes found) (h' : OfCodes codes found') :
    OfCodes codes (found ++ found') := by
  intro d hd
  rcases List.mem_append.1 hd with hd | hd
  · exact h d hd
  · exact h' d hd

end OfCodes

/-! ## Expressions -/

namespace Expression

/-- The kinds of findings about expressions. -/
def codes : List Code :=
  [.invalidOperator, .unknownOperator, .argumentCount, .excessiveDepth, .typeMismatch]

theorem ofCodes_errors (visits : List Visit) : OfCodes codes (visits.filterMap Visit.error?) := by
  intro d hd
  obtain ⟨visit, -, herror⟩ := List.mem_filterMap.1 hd
  obtain ⟨fault, -, rfl⟩ := Option.map_eq_some_iff.1 herror
  show fault.toDiagnostic.code ∈ codes
  cases fault <;> simp [codes, NodeFault.toDiagnostic, Diagnostic.error, Diagnostic.suggest]

/-- Validation makes no other findings than those about expressions. -/
theorem ofCodes_validate (e : Expression) (context : Option Context) (limits : Limits) :
    OfCodes codes (e.validate context limits).findings.toList := by
  have hdepth : ∀ (found : Option Visit) (warn : Visit → Diagnostic),
      (∀ visit, (warn visit).code = .excessiveDepth) →
        OfCodes codes (found.map warn).toList := by
    intro found warn hcode d hd
    obtain ⟨visit, -, rfl⟩ := Option.map_eq_some_iff.1 (Option.mem_toList.1 hd)
    rw [hcode]
    decide
  have hfilter : OfCodes codes (filterWarning? e context).toList := by
    intro d hd
    rw [code_of_filterWarning? (Option.mem_toList.1 hd)]
    decide
  refine ((ofCodes_errors _).append ?_).append .nil
  exact ((hdepth _ _ fun _ => rfl).append (hdepth _ _ fun _ => rfl)).append hfilter

end Expression

/-! ## Rules -/

namespace Rule

/-- The kinds of findings of a rule. -/
def codes : Rule → List Code
  | .version => [.missingField, .invalidVersion]
  | .requiredFields => [.missingField, .emptyLayers]
  | .duplicateLayerId => [.duplicateLayerId]
  | .sourceReference => [.danglingSource]
  | .sourceLayer => [.sourceLayerMismatch]
  | .layerExpressions => Expression.codes
  | .zoomRange => [.invalidZoomRange]
  | .emptyLayer => [.emptyLayer]
  | .layerType => [.unknownLayerType]

/-- Whether a rule makes a finding: it is of one of the rule's kinds and reported under its id. -/
def Makes (rule : Rule) (d : Diagnostic) : Prop := d.code ∈ rule.codes ∧ d.rule = rule.id

variable {style : Style}

theorem makes_eachLayer {rule : Rule} {find : Nat → Layer → List Diagnostic}
    (h : ∀ position layer, ∀ d ∈ find position layer, rule.Makes d) :
    ∀ d ∈ eachLayer style find, rule.Makes d := by
  intro d hd
  obtain ⟨⟨layer, position⟩, -, hd⟩ := List.mem_flatMap.1 hd
  exact h position layer d hd

/-- Most checks find nothing or one thing in a place. -/
theorem makes_single {rule : Rule} {d : Diagnostic} (h : rule.Makes d) :
    ∀ d' ∈ [d], rule.Makes d' :=
  List.forall_mem_singleton.2 h

theorem makes_checkVersion : ∀ d ∈ checkVersion style, version.Makes d := by
  unfold checkVersion
  split
  · exact makes_single ⟨List.mem_cons_self .., rfl⟩
  · split
    · exact List.forall_mem_nil _
    · exact makes_single ⟨List.mem_cons_of_mem _ (List.mem_cons_self ..), rfl⟩

theorem makes_checkRequiredFields :
    ∀ d ∈ checkRequiredFields style, requiredFields.Makes d := by
  refine List.forall_mem_append.2 ⟨?_, ?_⟩
  · split
    · exact makes_single ⟨by decide, rfl⟩
    · exact List.forall_mem_nil _
  · split
    · exact makes_single ⟨by decide, rfl⟩
    · exact makes_single ⟨by decide, rfl⟩
    · exact List.forall_mem_nil _

theorem makes_checkDuplicateLayerId :
    ∀ d ∈ checkDuplicateLayerId style, duplicateLayerId.Makes d := by
  refine makes_eachLayer fun position layer => ?_
  split
  · split
    · exact makes_single ⟨List.mem_cons_self .., rfl⟩
    · exact List.forall_mem_nil _
  · exact List.forall_mem_nil _

theorem makes_checkSourceReference :
    ∀ d ∈ checkSourceReference style, sourceReference.Makes d := by
  refine makes_eachLayer fun position layer => ?_
  split
  · exact List.forall_mem_nil _
  · split
    · exact makes_single ⟨List.mem_cons_self .., rfl⟩
    · split
      · exact List.forall_mem_nil _
      · split <;> exact makes_single ⟨List.mem_cons_self .., rfl⟩

theorem makes_checkSourceLayer : ∀ d ∈ checkSourceLayer style, sourceLayer.Makes d := by
  refine makes_eachLayer fun position layer => ?_
  split
  · exact List.forall_mem_nil _
  · split
    · exact List.forall_mem_nil _
    · split
      · exact List.forall_mem_nil _
      · split
        · exact makes_single ⟨List.mem_cons_self .., rfl⟩
        · split
          · exact makes_single ⟨List.mem_cons_self .., rfl⟩
          · exact List.forall_mem_nil _

/-- What is found in expressions is reported anew, under the id of the rule. -/
theorem makes_checkLayerExpressions (limits : Limits) :
    ∀ d ∈ checkLayerExpressions limits style, layerExpressions.Makes d := by
  refine makes_eachLayer fun position layer d hd => ?_
  obtain ⟨⟨place, e⟩, -, hd⟩ := List.mem_flatMap.1 hd
  dsimp only at hd
  split at hd
  · obtain ⟨finding, hfinding, rfl⟩ := List.mem_map.1 hd
    exact ⟨Expression.ofCodes_validate _ _ _ finding hfinding, rfl⟩
  · simp at hd

theorem makes_checkZoomBound (position : Nat) (layer : Layer) (field : String)
    (bound : Option Number) :
    ∀ d ∈ checkZoomBound position layer field bound, zoomRange.Makes d := by
  unfold checkZoomBound
  split
  · exact List.forall_mem_nil _
  · split
    · exact List.forall_mem_nil _
    · exact makes_single ⟨List.mem_cons_self .., rfl⟩

theorem makes_checkZoomRange : ∀ d ∈ checkZoomRange style, zoomRange.Makes d := by
  refine makes_eachLayer fun position layer => ?_
  refine List.forall_mem_append.2 ⟨List.forall_mem_append.2
    ⟨makes_checkZoomBound _ _ _ _, makes_checkZoomBound _ _ _ _⟩, ?_⟩
  split
  · split
    · exact makes_single ⟨List.mem_cons_self .., rfl⟩
    · exact List.forall_mem_nil _
  · exact List.forall_mem_nil _

theorem makes_checkEmptyLayer : ∀ d ∈ checkEmptyLayer style, emptyLayer.Makes d := by
  refine makes_eachLayer fun position layer => ?_
  split
  · exact List.forall_mem_nil _
  · exact makes_single ⟨List.mem_cons_self .., rfl⟩

theorem makes_checkLayerType : ∀ d ∈ checkLayerType style, layerType.Makes d := by
  refine makes_eachLayer fun position layer => ?_
  split
  · exact List.forall_mem_nil _
  · exact makes_single ⟨List.mem_cons_self .., rfl⟩

/-- **A rule makes no other findings than its own,** and reports them under its id. -/
theorem makes_check (limits : Limits) (rule : Rule) :
    ∀ d ∈ rule.check limits style, rule.Makes d := by
  cases rule with
  | version => exact makes_checkVersion
  | requiredFields => exact makes_checkRequiredFields
  | duplicateLayerId => exact makes_checkDuplicateLayerId
  | sourceReference => exact makes_checkSourceReference
  | sourceLayer => exact makes_checkSourceLayer
  | layerExpressions => exact makes_checkLayerExpressions limits
  | zoomRange => exact makes_checkZoomRange
  | emptyLayer => exact makes_checkEmptyLayer
  | layerType => exact makes_checkLayerType

/-- What a rule adds to a run it found: escalating a warning changes neither what it is about nor
    what it says nor whose it is. -/
theorem exists_mem_check_of_findings {config : LintConfig} {rule : Rule} {reported : Diagnostic}
    (h : reported ∈ rule.findings config style) :
    ∃ d ∈ rule.check config.limits style,
      reported.code = d.code ∧ reported.message = d.message ∧ reported.rule = d.rule := by
  rw [findings_eq] at h
  split at h
  · obtain ⟨d, hd, hsome⟩ := List.mem_filterMap.1 h
    refine ⟨d, hd, ?_⟩
    rw [reported?] at hsome
    split at hsome
    · obtain rfl := Option.some.inj hsome
      unfold amended escalateWarning
      split
      · split <;> exact ⟨rfl, rfl, rfl⟩
      · exact ⟨rfl, rfl, rfl⟩
    · cases hsome
  · simp at h

/-- Nor does a rule add other findings than its own to a run. -/
theorem makes_findings (config : LintConfig) (rule : Rule) :
    ∀ d ∈ rule.findings config style, rule.Makes d := by
  intro reported hreported
  obtain ⟨d, hd, hcode, -, hrule⟩ := exists_mem_check_of_findings hreported
  rw [Makes, hcode, hrule]
  exact makes_check config.limits rule d hd

theorem inputParse_not_mem_codes (rule : Rule) : Code.inputParse ∉ rule.codes := by
  cases rule <;> decide

end Rule

/-! ## Reports -/

/-- What a run lists is from one of its rules or its own warning about the cap. -/
theorem Lint.cases_of_mem_run {config : LintConfig} {rules : List Rule} {style : Style}
    {d : Diagnostic} (h : d ∈ run config rules style) :
    (∃ rule ∈ rules, d ∈ rule.findings config style) ∨ d = capWarning config.cap := by
  have hcollected : (collect config style [] rules).1 = _ := collect_eq_take (Nat.zero_le _)
  have hrules : d ∈ (collect config style [] rules).1 →
      ∃ rule ∈ rules, d ∈ rule.findings config style := by
    intro hd
    rw [hcollected] at hd
    exact List.mem_flatMap.1 (List.mem_of_mem_take hd)
  rw [run, mem_toList_ofList] at h
  split at h
  · rcases List.mem_append.1 h with h | h
    · exact .inl (hrules h)
    · exact .inr (List.mem_singleton.1 h)
  · exact .inl (hrules h)

/-- No run finds that the document could not be read. -/
theorem Lint.code_ne_inputParse {config : LintConfig} {rules : List Rule} {style : Style}
    {d : Diagnostic} (h : d ∈ run config rules style) : d.code ≠ .inputParse := by
  rcases cases_of_mem_run h with ⟨rule, -, hd⟩ | rfl
  · exact fun hcode => rule.inputParse_not_mem_codes (hcode ▸ (rule.makes_findings config d hd).1)
  · exact Code.noConfusion

/-- A document that is refused is not JSON text. -/
theorem Document.kind_of_resolve {document : Document} {e : DocumentError}
    (h : document.resolve = .error e) : e.kind = .inputParse := by
  cases document with
  | value v => cases h
  | text s =>
    rw [resolve] at h
    split at h
    · cases h
    · cases h
      rfl

/-- A value that is refused has the wrong shape. -/
theorem Style.kind_of_ofJson {mode : Mode} {value : Json} {e : DocumentError}
    (h : ofJson mode value = .error e) : e.kind = .schema := by
  unfold ofJson at h
  split at h
  · split at h
    · cases h
    · split at h
      · cases h
        rfl
      · cases h
  · cases h
    rfl

namespace DocumentError

/-- The single finding about a document that is refused says whether it could not be read. -/
theorem inputParse_iff_kind {e : DocumentError} {rule : String} :
    (∃ d ∈ (Findings.ofList [e.toDiagnostic rule]).errors, d.code = .inputParse) ↔
      e.kind = .inputParse := by
  have hcode : (e.toDiagnostic rule).code =
      if e.kind = .inputParse then .inputParse else .invalidStructure := rfl
  have herrors : (Findings.ofList [e.toDiagnostic rule]).errors = [e.toDiagnostic rule] := rfl
  simp only [herrors, List.mem_singleton, exists_eq_left, hcode]
  split <;> simp_all

end DocumentError

/-- Validating an expression finds that it could not be read just when it is not JSON text. -/
theorem Validation.inputParse_iff {document : Document} {context : Option Context}
    {limits : Limits} :
    (∃ d ∈ (ofDocument document context limits).findings.errors, d.code = .inputParse) ↔
      ∃ e, document.resolve = .error e := by
  cases hresolve : document.resolve with
  | error e =>
    simp only [ofDocument, hresolve, Except.error.injEq, exists_eq', iff_true]
    exact DocumentError.inputParse_iff_kind.2 (Document.kind_of_resolve hresolve)
  | ok value =>
    simp only [ofDocument, hresolve, reduceCtorEq, exists_false, iff_false]
    rintro ⟨d, hd, hcode⟩
    have := Expression.ofCodes_errors _ d hd
    rw [hcode] at this
    revert this
    decide

/-- Nor does validating a style, also when its fields do not fit. -/
theorem StyleReport.inputParse_iff {config : LintConfig} {document : Document} :
    (∃ d ∈ (ofDocument config document).findings.errors, d.code = .inputParse) ↔
      ∃ e, document.resolve = .error e := by
  cases hresolve : document.resolve with
  | error e =>
    simp only [ofDocument, hresolve, Except.error.injEq, exists_eq', iff_true]
    exact DocumentError.inputParse_iff_kind.2 (Document.kind_of_resolve hresolve)
  | ok value =>
    simp only [ofDocument, hresolve, reduceCtorEq, exists_false, iff_false, ofJson]
    cases hdecoded : Style.ofJson .strict value with
    | error e =>
      intro hfound
      have hkind := DocumentError.inputParse_iff_kind.1 hfound
      rw [Style.kind_of_ofJson hdecoded] at hkind
      cases hkind
    | ok style =>
      rintro ⟨d, hd, hcode⟩
      exact Lint.code_ne_inputParse (List.mem_of_mem_filter hd) hcode

end CartoStyle
