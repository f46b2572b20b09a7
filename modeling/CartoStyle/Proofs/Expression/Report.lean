import CartoStyle.Proofs.Expression.Examined

set_option autoImplicit false

/-! # The report on a folded expression

Folding takes nodes away and moves none: what the walk of a folded expression meets, the walk of the
expression met under the same positions (`Expression.exists_mem_walk_of_simplify`), so its depth does
not grow. A filter that is folded at its root was a truth value before, so no warning about its type
comes or goes. With the errors, which stay as they are, this says what a report on the folded
expression may differ in: warnings about depth only (`Expression.report_simplify`). -/

namespace CartoStyle

namespace Expression

variable {limit : Nat}

/-! ## Depth -/

/-- What folding leaves to be met was met before, in the same place. -/
theorem exists_mem_walk_of_simplify {e : Expression} {trail : List Nat} {v : Visit}
    (hv : v ∈ e.simplify.walk limit trail) : ∃ w ∈ e.walk limit trail, w.trail = v.trail := by
  induction e using tree_induction generalizing trail with
  | literal value => exact ⟨v, hv, rfl⟩
  | literalObject members => exact ⟨v, hv, rfl⟩
  | malformed items => exact ⟨v, hv, rfl⟩
  | call operator args ih =>
    have hroot : ⟨trail, call operator args⟩ ∈ (call operator args).walk limit trail := by
      rw [walk]
      exact List.mem_cons_self ..
    rw [simplify_call] at hv
    rcases simplifyNode_cases (.call operator (args.map simplify)) with
      ⟨_, _, value, -, -, hfold⟩ | hkeep
    · -- Of a constant only the root is left.
      rw [hfold] at hv
      obtain rfl := List.mem_singleton.1 hv
      exact ⟨_, hroot, rfl⟩
    · rw [hkeep, walk] at hv
      rcases List.mem_cons.1 hv with rfl | hbelow
      · exact ⟨_, hroot, rfl⟩
      · split at hbelow
        · next henter =>
          obtain ⟨i, folded, hfolded, harray, hmem⟩ := mem_walkArgs_iff.1 hbelow
          rw [List.getElem?_map] at hfolded
          obtain ⟨arg, harg, rfl⟩ := Option.map_eq_some_iff.1 hfolded
          obtain ⟨w, hw, htrail⟩ := ih arg (List.mem_of_getElem? harg) hmem
          have hargs : w ∈ walkArgs limit trail 1 args :=
            mem_walkArgs_iff.2 ⟨i, arg, harg, isArray_of_simplify harray, hw⟩
          refine ⟨w, ?_, htrail⟩
          rw [walk, if_pos henter]
          exact List.mem_cons_of_mem _ hargs
        · simp at hbelow

/-- The greatest of some numbers is at most a bound when each of them is. -/
theorem foldl_max_le_iff {ns : List Nat} {start bound : Nat} :
    ns.foldl max start ≤ bound ↔ start ≤ bound ∧ ∀ n ∈ ns, n ≤ bound := by
  induction ns generalizing start with
  | nil => simp
  | cons n rest ih =>
    rw [List.foldl_cons, ih, Nat.max_le, List.forall_mem_cons, and_assoc]

/-- The depth of a report is that of the deepest node examined. -/
theorem depth_validate_le_iff {e : Expression} {context : Option Context} {limits : Limits}
    {bound : Nat} :
    (e.validate context limits).depth ≤ bound ↔
      ∀ v ∈ e.walk limits.walkDepth [], v.depth ≤ limits.walkDepth → v.depth ≤ bound := by
  have hdepth : (e.validate context limits).depth =
      (((e.walk limits.walkDepth []).filter (·.depth ≤ limits.walkDepth)).map Visit.depth).foldl
        max 0 := rfl
  rw [hdepth, foldl_max_le_iff, List.forall_mem_map]
  simp

theorem depth_validate_simplify_le (e : Expression) (context : Option Context) (limits : Limits) :
    (e.simplify.validate context limits).depth ≤ (e.validate context limits).depth := by
  have hbefore := depth_validate_le_iff.1 (Nat.le_refl (e.validate context limits).depth)
  rw [depth_validate_le_iff]
  intro v hv hlimit
  obtain ⟨w, hw, htrail⟩ := exists_mem_walk_of_simplify hv
  have hsame : w.depth = v.depth := congrArg List.length htrail
  rw [← hsame] at hlimit ⊢
  exact hbefore w hw hlimit

/-! ## Filters -/

/-- What is folded at its root was a truth value. -/
theorem resultType?_constant {operator : String} {b value : Bool} {args : List Expression}
    (h : constant? operator b = some value) :
    (call operator args).resultType? = some .boolean := by
  have hknown : ∀ name ∈ ["all", "any", "!"],
      (Operator.find? name).bind (·.result) = some .boolean := by decide +kernel
  exact hknown operator (mem_of_constant? h)

/-- Whether a filter is a truth value depends on its operator. -/
theorem filterWarning?_call_congr (operator : String) (args others : List Expression)
    (context : Option Context) :
    filterWarning? (call operator args) context = filterWarning? (call operator others) context :=
  rfl

theorem filterWarning?_of_boolean {e : Expression} (h : e.resultType? = some .boolean)
    (context : Option Context) : filterWarning? e context = none := by
  unfold filterWarning?
  split
  · next operator type hoperator htype =>
    obtain rfl := Option.some.inj (htype.symm.trans h)
    exact if_pos rfl
  · rfl

theorem filterWarning?_simplify (e : Expression) (context : Option Context) :
    filterWarning? e.simplify context = filterWarning? e context := by
  cases e with
  | call operator args =>
    rw [simplify_call]
    rcases simplifyNode_cases (.call operator (args.map simplify)) with
      ⟨_, b, value, heq, hconstant, hfold⟩ | hkeep
    · obtain ⟨rfl, -⟩ := Expression.call.inj heq
      have hliteral : filterWarning? (literal (.bool value)) context = none := by
        cases context with
        | none => rfl
        | some place => cases place <;> rfl
      rw [hfold, hliteral, filterWarning?_of_boolean (resultType?_constant hconstant)]
    · rw [hkeep]
      exact filterWarning?_call_congr operator _ _ context
  | _ => rfl

theorem code_of_filterWarning? {e : Expression} {context : Option Context} {d : Diagnostic}
    (h : filterWarning? e context = some d) : d.code = .typeMismatch :=
  (shape_of_filterWarning? h).2.1

/-- Of the warnings only the one about a filter is about a type. -/
theorem typeWarnings_validate (e : Expression) (context : Option Context) (limits : Limits) :
    (e.validate context limits).findings.warnings.filter (·.code == .typeMismatch) =
      (filterWarning? e context).toList := by
  have hdepth : ∀ (found : Option Visit) (warn : Visit → Diagnostic),
      (∀ v, (warn v).code = .excessiveDepth) →
        (found.map warn).toList.filter (·.code == .typeMismatch) = [] := by
    intro found warn hwarn
    cases found with
    | none => rfl
    | some v => simp [hwarn]
  have hfilter : (filterWarning? e context).toList.filter (·.code == .typeMismatch) =
      (filterWarning? e context).toList := by
    rw [List.filter_eq_self]
    intro d hd
    rw [code_of_filterWarning? (Option.mem_toList.1 hd)]
    rfl
  simp only [validate]
  rw [List.filter_append, List.filter_append, hdepth _ _ fun _ => rfl, hdepth _ _ fun _ => rfl,
    hfilter]
  rfl

/-! ## Reports -/

/-- **Folding does not change what is wrong with an expression.** The report on the folded expression
    has the same errors in the same order, with their messages and paths, and the same warning about
    the type of a filter; it is valid when the report on the expression is, and no deeper. -/
theorem report_simplify (e : Expression) (context : Option Context) (limits : Limits) :
    (e.simplify.validate context limits).findings.errors =
        (e.validate context limits).findings.errors ∧
      (e.simplify.validate context limits).findings.warnings.filter (·.code == .typeMismatch) =
        (e.validate context limits).findings.warnings.filter (·.code == .typeMismatch) ∧
      (e.simplify.validate context limits).findings.valid =
        (e.validate context limits).findings.valid ∧
      (e.simplify.validate context limits).depth ≤ (e.validate context limits).depth := by
  have herrors := errors_validate_simplify e context limits
  refine ⟨herrors, ?_, ?_, depth_validate_simplify_le e context limits⟩
  · rw [typeWarnings_validate, typeWarnings_validate, filterWarning?_simplify]
  · rw [Findings.valid, Findings.valid, herrors]

/-- The report on what is left of a filter may be less deep. -/
example :
    let filter := call "all" [call "!" [literal (.bool false)]]
    (filter.validate (some .filter) {}).depth = 1 ∧
      (filter.simplify.validate (some .filter) {}).depth = 0 := by
  decide +kernel

end Expression

end CartoStyle
