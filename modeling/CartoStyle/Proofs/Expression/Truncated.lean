import CartoStyle.Proofs.Expression.Nesting
import CartoStyle.Proofs.Json.Numerals

set_option autoImplicit false

/-! # Reports that are cut short

A walk that is cut short examines what the whole walk examines down to its limit, in the same order
(`Expression.examined_of_deeper`): cutting a branch short changes nothing in the others. So its report
is that of the whole walk without what is said about nodes beyond the limit, and with one warning more
when there are such nodes (`Expression.validate_truncated`). -/

namespace CartoStyle

/-! ## Positions in a path -/

/-- How many positions the path of a diagnostic leads through. -/
def Diagnostic.indices (d : Diagnostic) : Nat := (d.path.getD "").toList.count '['

theorem Path.count_tailText (positions : List Nat) :
    (tailText (positions.map .index)).toList.count '[' = positions.length := by
  induction positions with
  | nil => rfl
  | cons position rest ih =>
    have hdigits : (Nat.toDigits 10 position).count '[' = 0 := by
      rw [List.count_eq_zero]
      intro hmem
      exact absurd (Json.isDigit_of_mem_toDigits hmem) (by decide)
    rw [List.map_cons, tailText]
    simp [hdigits, ih]

/-- The path that a diagnostic is given is the one it is read back with. -/
theorem Diagnostic.getD_path_located (d : Diagnostic) (path : String) :
    (d.located path).path.getD "" = path := by
  rw [located]
  split
  · next hempty => exact (String.isEmpty_iff.1 hempty).symm
  · rfl

/-- A path is written with one bracket for each of its positions. -/
theorem Visit.indices_located (d : Diagnostic) (v : Visit) :
    (d.located v.path.text).indices = v.depth := by
  have htext : v.path.text = Path.tailText (v.trail.reverse.map .index) := by
    rw [Visit.path]
    cases v.trail.reverse <;> rfl
  rw [Diagnostic.indices, Diagnostic.getD_path_located, htext, Path.count_tailText,
    List.length_reverse, Visit.depth]

@[simp]
theorem Diagnostic.indices_suggest (d : Diagnostic) (suggestion : String) :
    (d.suggest suggestion).indices = d.indices := rfl

theorem Visit.indices_error? {v : Visit} {d : Diagnostic} (h : v.error? = some d) :
    d.indices = v.depth := by
  obtain ⟨fault, -, rfl⟩ := Option.map_eq_some_iff.1 h
  exact v.indices_located _

namespace Expression

variable {e : Expression} {limit other n : Nat} {trail : List Nat}

/-! ## Walks that are cut short -/

/-- Below a node there are only deeper ones. -/
theorem filter_walk_eq_nil (h : n < trail.length) :
    (e.walk limit trail).filter (·.depth ≤ n) = [] := by
  rw [List.filter_eq_nil_iff]
  intro v hv
  obtain ⟨path, htrail, -⟩ := examined_of_mem_walk hv
  have hlength := congrArg List.length htrail
  rw [List.length_append, List.length_reverse, List.length_reverse] at hlength
  rw [decide_eq_true_eq, Visit.depth]
  omega

theorem filter_walkArgs (trail : List Nat) (position : Nat) {args : List Expression}
    (h : ∀ arg ∈ args, ∀ trail, (arg.walk limit trail).filter (·.depth ≤ n) =
      (arg.walk other trail).filter (·.depth ≤ n)) :
    (walkArgs limit trail position args).filter (·.depth ≤ n) =
      (walkArgs other trail position args).filter (·.depth ≤ n) := by
  induction args generalizing position with
  | nil => rfl
  | cons arg rest ih =>
    have hrest := ih (position + 1) fun arg hm => h arg (List.mem_cons_of_mem _ hm)
    rw [walkArgs, walkArgs, List.filter_append, List.filter_append, hrest]
    split
    · rw [h arg (List.mem_cons_self ..)]
    · rfl

/-- **Down to any depth that both limits allow two walks meet the same nodes,** in the same order. -/
theorem filter_walk (hn : n ≤ limit) (hn' : n ≤ other) :
    (e.walk limit trail).filter (·.depth ≤ n) = (e.walk other trail).filter (·.depth ≤ n) := by
  induction e using tree_induction generalizing trail with
  | literal value => rfl
  | literalObject members => rfl
  | malformed items => rfl
  | call operator args ih =>
    rcases Nat.lt_or_ge n trail.length with hbelow | henter
    · rw [filter_walk_eq_nil hbelow, filter_walk_eq_nil hbelow]
    · -- Both walks enter the call, if its operator is known.
      have hargs := filter_walkArgs trail 1 fun arg hm trail => ih arg hm
      simp only [walk, Nat.le_trans henter hn, Nat.le_trans henter hn', true_and, List.filter_cons]
      split <;> split <;> simp [hargs]

/-- **A walk that is cut short examines what the whole walk examines down to its limit.** -/
theorem examined_of_deeper {unbounded : Nat} (deep : e.maxDepth ≤ unbounded) :
    (e.walk limit []).filter (·.depth ≤ limit) = (e.walk unbounded []).filter (·.depth ≤ limit) := by
  have hmin : ∀ k, ∀ v ∈ e.walk k [],
      decide (v.depth ≤ limit) = decide (v.depth ≤ min limit unbounded) := by
    intro k v hv
    have hle := (examined_of_visit hv).length_le
    rw [List.length_reverse] at hle
    have hdepth : v.depth ≤ unbounded := Nat.le_trans hle deep
    exact decide_eq_decide.2 (by omega)
  rw [List.filter_congr (hmin limit), List.filter_congr (hmin unbounded)]
  exact filter_walk (Nat.min_le_left ..) (Nat.min_le_right ..)

/-! ## Reports that are cut short -/

section Report

variable {context : Option Context} {recommended unbounded : Nat}

theorem filter_indices_errors (visits : List Visit) :
    (visits.filterMap Visit.error?).filter (·.indices ≤ n) =
      (visits.filter (·.depth ≤ n)).filterMap Visit.error? := by
  rw [List.filter_filterMap, List.filterMap_filter]
  congr 1
  funext v
  cases h : v.error? with
  | none => simp
  | some d => simp [Option.filter, Visit.indices_error? h]

theorem errors_truncated (deep : e.maxDepth ≤ unbounded) :
    (e.validate context ⟨recommended, limit⟩).findings.errors =
      (e.validate context ⟨recommended, unbounded⟩).findings.errors.filter (·.indices ≤ limit) := by
  have hwhole : (e.walk unbounded []).filter (·.depth ≤ unbounded) = e.walk unbounded [] := by
    rw [List.filter_eq_self]
    intro v hv
    have hle := (examined_of_visit hv).length_le
    rw [List.length_reverse] at hle
    exact decide_eq_true (Nat.le_trans hle deep)
  rw [errors_validate, errors_validate, faults, faults, hwhole, filter_indices_errors,
    examined_of_deeper deep]

theorem depth_truncated (deep : e.maxDepth ≤ unbounded) :
    (e.validate context ⟨recommended, limit⟩).depth =
      min limit (e.validate context ⟨recommended, unbounded⟩).depth := by
  apply Nat.le_antisymm
  · rw [depth_validate_le_iff_examined]
    intro path node hexamined hlimit
    refine Nat.le_min.2 ⟨hlimit, ?_⟩
    exact le_depth_validate_iff.2
      ⟨Nat.le_trans hexamined.length_le deep, path, node, hexamined, rfl⟩
  · -- Where the whole walk is deeper than the limit, it examines a node just at the limit.
    rw [le_depth_validate_iff]
    exact ⟨Nat.min_le_left .., (le_depth_validate_iff.1 (Nat.min_le_right limit _)).2⟩

/-- A node that is nested too deep for comfort is reported unless it lies beyond the limit. -/
theorem nested?_truncated (deep : e.maxDepth ≤ unbounded) :
    e.nested? ⟨recommended, limit⟩ =
      (e.nested? ⟨recommended, unbounded⟩).filter (·.depth ≤ limit) := by
  ext v
  simp only [Option.filter_eq_some_iff, nested?_eq_some_iff, decide_eq_true_eq]
  constructor
  · rintro ⟨hroom, hfirst⟩
    have hdepth : v.depth = recommended + 1 := by
      rw [Visit.depth, ← List.length_reverse, hfirst.length]
    have hle := hfirst.examined.length_le
    rw [hfirst.length] at hle
    exact ⟨⟨Nat.le_trans hle deep, hfirst⟩, by omega⟩
  · rintro ⟨⟨-, hfirst⟩, hlimit⟩
    have hdepth : v.depth = recommended + 1 := by
      rw [Visit.depth, ← List.length_reverse, hfirst.length]
    exact ⟨by omega, hfirst⟩

theorem nestingWarnings_truncated (deep : e.maxDepth ≤ unbounded) :
    ((e.nested? ⟨recommended, unbounded⟩).map
        (Visit.nestingWarning ⟨recommended, unbounded⟩)).toList.filter (·.indices ≤ limit) =
      ((e.nested? ⟨recommended, limit⟩).map
        (Visit.nestingWarning ⟨recommended, limit⟩)).toList := by
  have hindices : ∀ v : Visit,
      (Visit.nestingWarning ⟨recommended, unbounded⟩ v).indices = v.depth := by
    intro v
    rw [Visit.nestingWarning, Diagnostic.indices_suggest, Visit.indices_located]
  have hnested : e.nested? ⟨recommended, limit⟩ = _ := nested?_truncated deep
  rw [hnested]
  cases e.nested? ⟨recommended, unbounded⟩ with
  | none => rfl
  | some v =>
    by_cases hlimit : v.depth ≤ limit
    · simp [Option.filter, hindices, hlimit]
      rfl
    · simp [Option.filter, hindices, hlimit]

/-- The message of the warning about a walk that is cut short. -/
def cutMessage (limit : Nat) : String :=
  s!"Maximum traversal depth of {limit} exceeded; " ++ "nested expressions were not checked"

theorem message_cutWarning {limits : Limits} {v : Visit} :
    (Visit.cutWarning limits v).message = cutMessage limits.walkDepth := rfl

theorem depthWarning_cutWarning {v : Visit} (h : v.depth = limit + 1) :
    DepthWarning (cutMessage limit) v.trail.reverse
      (Visit.cutWarning ⟨recommended, limit⟩ v) where
  severity := rfl
  code := rfl
  message := message_cutWarning
  located := located_path (ne_root_of_depth h)

/-- The two warnings about depth are told apart by their first letters. -/
theorem nestingMessage_ne_cutMessage (depth : Nat) :
    nestingMessage depth recommended ≠ cutMessage limit := by
  have hnesting : (nestingMessage depth recommended).toList.head? = some 'E' := by
    delta nestingMessage
    simp only [String.toList_append]
    rfl
  have hcut : (cutMessage limit).toList.head? = some 'M' := by
    delta cutMessage
    simp only [String.toList_append]
    rfl
  intro h
  rw [h, hcut] at hnesting
  exact absurd hnesting (by decide)

/-- A report of the whole walk does not say that it was cut short. -/
theorem not_depthWarning_of_deep {limits : Limits} (deep : e.maxDepth ≤ limits.walkDepth)
    {d : Diagnostic} (hd : d ∈ (e.validate context limits).findings.warnings) (path : List Nat) :
    ¬DepthWarning (cutMessage limit) path d := by
  intro h
  rw [warnings_validate, cutAt?_eq_none deep] at hd
  rcases List.mem_append.1 hd with hd | hd
  · obtain ⟨v, -, rfl⟩ : ∃ v, e.nested? limits = some v ∧ Visit.nestingWarning limits v = d := by
      simpa using hd
    exact nestingMessage_ne_cutMessage v.depth (message_nestingWarning.symm.trans h.message)
  · have hcode := code_of_filterWarning? (Option.mem_toList.1 hd)
    rw [h.code] at hcode
    exact Code.noConfusion hcode

theorem filter_indices_filterWarning (n : Nat) :
    (filterWarning? e context).toList.filter (·.indices ≤ n) = (filterWarning? e context).toList := by
  rw [List.filter_eq_self]
  intro d hd
  obtain ⟨-, -, hroot⟩ := shape_of_filterWarning? (Option.mem_toList.1 hd)
  simp [Diagnostic.indices, hroot]

/-- **The limit of the walk truncates the report and nothing else.** Of the errors and warnings of the
    whole walk those at no more than so many positions are left, in their order, and the depth is cut
    to the limit. When a node beyond the limit would have been examined there is one warning more,
    which names the first such node. -/
theorem validate_truncated (e : Expression) (context : Option Context)
    (recommended limit unbounded : Nat) (deep : e.maxDepth ≤ unbounded) :
    let full := e.validate context ⟨recommended, unbounded⟩
    ∃ (before after : List Diagnostic) (cut : Option Diagnostic),
      full.findings.warnings.filter (·.indices ≤ limit) = before ++ after ∧
      e.validate context ⟨recommended, limit⟩ =
        { full with
          findings :=
            { errors := full.findings.errors.filter (·.indices ≤ limit)
              warnings := before ++ cut.toList ++ after
              infos := full.findings.infos }
          depth := min limit full.depth } ∧
      (cut.isSome ↔ ∃ path node, Examined e path node ∧ limit < path.length) ∧
      (∀ d ∈ cut, ∃ path node, FirstAtDepth e (limit + 1) path node ∧
        DepthWarning (cutMessage limit) path d) ∧
      ∀ d ∈ before ++ after, ∀ path, ¬DepthWarning (cutMessage limit) path d := by
  intro full
  have hwarnings : full.findings.warnings.filter (·.indices ≤ limit) =
      ((e.nested? ⟨recommended, limit⟩).map (Visit.nestingWarning ⟨recommended, limit⟩)).toList ++
        (filterWarning? e context).toList := by
    rw [warnings_validate, cutAt?_eq_none deep, List.filter_append, List.filter_append,
      nestingWarnings_truncated deep, filter_indices_filterWarning]
    simp
  refine ⟨_, _, (e.cutAt? ⟨recommended, limit⟩).map (Visit.cutWarning ⟨recommended, limit⟩),
    hwarnings, ?_, ?_, ?_, ?_⟩
  · rw [← errors_truncated deep, ← depth_truncated deep, ← warnings_validate]
    rfl
  · rw [Option.isSome_map, isSome_cutAt?_iff]
    constructor
    · rintro ⟨path, node, hexamined, hlength⟩
      exact ⟨path, node, hexamined, by rw [hlength]; exact Nat.lt_succ_self limit⟩
    · rintro ⟨path, node, hexamined, hdeep⟩
      obtain ⟨above, habove⟩ := hexamined.take (limit + 1)
      exact ⟨_, above, habove, by rw [List.length_take]; exact Nat.min_eq_left hdeep⟩
  · intro d hd
    obtain ⟨v, hv, rfl⟩ := Option.map_eq_some_iff.1 hd
    have hfirst := cutAt?_eq_some_iff.1 hv
    refine ⟨_, _, hfirst, depthWarning_cutWarning ?_⟩
    rw [Visit.depth, ← List.length_reverse, hfirst.length]
  · intro d hd path
    rw [← hwarnings] at hd
    exact not_depthWarning_of_deep deep (List.mem_of_mem_filter hd) path

/-- A limit of one leaves one error of two, and names the second branch, the first that goes on. -/
theorem validate_truncated_branches :
    let e := call "any"
      [call "bogus" [], call "!" [call "all" [call "bogus" []]], call "!" [malformed []]]
    e.maxDepth ≤ 1000 ∧
    (e.validate none ⟨0, 1⟩).findings.errors =
      (e.validate none ⟨0, 1000⟩).findings.errors.filter (·.indices ≤ 1) ∧
    (e.validate none ⟨0, 1000⟩).depth = 3 ∧ (e.validate none ⟨0, 1⟩).depth = 1 ∧
    ∃ d ∈ (e.validate none ⟨0, 1⟩).findings.warnings,
      ∃ path node, FirstAtDepth e 2 path node ∧ DepthWarning (cutMessage 1) path d := by
  intro e
  have deep : e.maxDepth ≤ 1000 := by decide
  have hdepth : (e.validate none ⟨0, 1000⟩).depth = 3 := by decide +kernel
  obtain ⟨before, after, cut, -, hshort, hsome, hfirst, -⟩ := validate_truncated e none 0 1 1000 deep
  have hbeyond : ∃ path node, Examined e path node ∧ 1 < path.length := by
    refine ⟨[2, 1], call "all" [call "bogus" []], ?_, by decide⟩
    exact .argument (by decide +kernel) rfl rfl (.argument (by decide +kernel) rfl rfl (.root _))
  obtain ⟨d, rfl⟩ := Option.isSome_iff_exists.1 (hsome.2 hbeyond)
  rw [hshort, hdepth]
  exact ⟨deep, rfl, rfl, rfl, d, by simp, hfirst d rfl⟩

end Report

end Expression

end CartoStyle
