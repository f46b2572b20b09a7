import CartoStyle.Proofs.Expression.Report

set_option autoImplicit false

/-! # Depth and nesting

What leads to an examined node is examined too (`Expression.Examined.take`), so a report is as deep
as there are examined nodes at each depth (`Expression.le_depth_validate_iff`), and the first node met
beyond a depth stands one step beyond it (`Expression.find?_deeper_iff`). Within the limit of the walk
a report is as deep as its expression unless an operator is unknown, and its one warning about nesting
is about that first node (`Expression.depth_and_nesting`). -/

namespace CartoStyle

namespace Expression

variable {e : Expression} {limit : Nat}

/-! ## Nodes at a depth -/

/-- What stands above an examined node is examined. -/
theorem Examined.take {path : List Nat} {node : Expression} (h : Examined e path node) (n : Nat) :
    ∃ above, Examined e (path.take n) above := by
  induction h generalizing n with
  | root e => exact ⟨e, by simpa using Examined.root e⟩
  | argument known here array _ ih =>
    cases n with
    | zero => exact ⟨_, .root _⟩
    | succ n =>
      obtain ⟨above, habove⟩ := ih n
      exact ⟨above, .argument known here array habove⟩

/-- A path leads to one node. -/
theorem Examined.unique {path : List Nat} {node other : Expression} (h : Examined e path node)
    (h' : Examined e path other) : node = other := by
  induction h with
  | root e =>
    cases h'
    rfl
  | argument _ here _ _ ih =>
    cases h' with
    | argument _ here' _ below =>
      obtain rfl := Option.some.inj (here.symm.trans here')
      exact ih below

/-- Whether a node is the first of the examined nodes at a depth, in the order of the walk, which is
    the order of the paths: none of the others comes before it. -/
structure FirstAtDepth (e : Expression) (depth : Nat) (path : List Nat) (node : Expression) :
    Prop where
  examined : Examined e path node
  length : path.length = depth
  first : ∀ other node', Examined e other node' → other.length = depth → ¬other < path

/-- Paths are in one order. -/
theorem eq_of_not_lt {path other : List Nat} (h : ¬other < path) (h' : ¬path < other) :
    path = other :=
  List.le_antisymm (List.not_lt.1 h) (List.not_lt.1 h')

theorem FirstAtDepth.unique {depth : Nat} {path other : List Nat} {node node' : Expression}
    (h : FirstAtDepth e depth path node) (h' : FirstAtDepth e depth other node') :
    path = other ∧ node = node' := by
  obtain rfl : path = other := eq_of_not_lt (h.first _ _ h'.examined h'.length)
    (h'.first _ _ h.examined h.length)
  exact ⟨rfl, h.examined.unique h'.examined⟩

/-! ## Searching for a node beyond a depth -/

section Search

variable {visits : List Visit} {depth : Nat} {v : Visit}

/-- A node that is found beyond a depth stands one step beyond it, when all nodes there are met: a
    node above it would have been found before. -/
theorem firstAtDepth_of_find? (walked : visits.Sublist (e.walk limit []))
    (met : ∀ w : Visit, Examined e w.trail.reverse w.node → w.depth = depth + 1 → w ∈ visits)
    (found : visits.find? (depth < ·.depth) = some v) :
    FirstAtDepth e (depth + 1) v.trail.reverse v.node := by
  have hexamined := examined_of_visit (walked.subset (List.mem_of_find?_eq_some found))
  obtain ⟨hdeep, before, after, rfl, hbefore⟩ := List.find?_eq_some_iff_append.1 found
  have hafter := (List.pairwise_cons.1 (List.pairwise_append.1
    ((pairwise_walk e []).sublist walked)).2.1).1
  have hfirst : ∀ path node, Examined e path node → path.length = depth + 1 →
      ¬path < v.trail.reverse := by
    intro path node hpath hlength
    have hmet := met ⟨path.reverse, node⟩ (by simpa using hpath) (by simpa [Visit.depth] using hlength)
    rcases List.mem_append.1 hmet with hmem | hmem
    · have hshallow := hbefore _ hmem
      simp [Visit.depth, hlength] at hshallow
    · rcases List.mem_cons.1 hmem with rfl | hmem
      · rw [List.reverse_reverse]
        exact List.lt_irrefl path
      · have hlt := hafter _ hmem
        rw [List.reverse_reverse] at hlt
        exact List.lt_asymm hlt
  refine ⟨hexamined, ?_, hfirst⟩
  -- The path to the node at that depth on the way is no later, so it is the path found.
  have hdepth : depth + 1 ≤ v.trail.reverse.length := by
    rw [List.length_reverse]
    exact of_decide_eq_true hdeep
  have hlength : (v.trail.reverse.take (depth + 1)).length = depth + 1 := by
    rw [List.length_take, Nat.min_eq_left hdepth]
  obtain ⟨above, habove⟩ := hexamined.take (depth + 1)
  have hsame : v.trail.reverse = v.trail.reverse.take (depth + 1) :=
    eq_of_not_lt (hfirst _ _ habove hlength) (List.not_lt.2 (List.take_prefix _ _).le)
  rw [hsame, hlength]

/-- A node beyond a depth is found when one is examined one step beyond it. -/
theorem isSome_find?_deeper_iff (walked : visits.Sublist (e.walk limit []))
    (met : ∀ w : Visit, Examined e w.trail.reverse w.node → w.depth = depth + 1 → w ∈ visits) :
    (visits.find? (depth < ·.depth)).isSome ↔
      ∃ path node, Examined e path node ∧ path.length = depth + 1 := by
  constructor
  · intro h
    obtain ⟨v, hv⟩ := Option.isSome_iff_exists.1 h
    have hfirst := firstAtDepth_of_find? walked met hv
    exact ⟨_, _, hfirst.examined, hfirst.length⟩
  · rintro ⟨path, node, hexamined, hlength⟩
    have hmet := met ⟨path.reverse, node⟩ (by simpa using hexamined)
      (by simpa [Visit.depth] using hlength)
    rw [List.find?_isSome]
    exact ⟨_, hmet, by simp [Visit.depth, hlength]⟩

/-- **The first node met beyond a depth is the first one step beyond it.** -/
theorem find?_deeper_iff (walked : visits.Sublist (e.walk limit []))
    (met : ∀ w : Visit, Examined e w.trail.reverse w.node → w.depth = depth + 1 → w ∈ visits) :
    visits.find? (depth < ·.depth) = some v ↔
      FirstAtDepth e (depth + 1) v.trail.reverse v.node := by
  refine ⟨firstAtDepth_of_find? walked met, fun h => ?_⟩
  obtain ⟨w, hw⟩ := Option.isSome_iff_exists.1
    ((isSome_find?_deeper_iff walked met).2 ⟨_, _, h.examined, h.length⟩)
  obtain ⟨htrail, hnode⟩ := (firstAtDepth_of_find? walked met hw).unique h
  rw [hw, Option.some.injEq, Visit.mk.injEq]
  exact ⟨List.reverse_inj.1 htrail, hnode⟩

end Search

/-! ## Depth -/

section Report

variable {context : Option Context} {limits : Limits}

/-- The depth of a report is that of the deepest node examined within the limit. -/
theorem depth_validate_le_iff_examined {bound : Nat} :
    (e.validate context limits).depth ≤ bound ↔
      ∀ path node, Examined e path node → path.length ≤ limits.walkDepth → path.length ≤ bound := by
  rw [depth_validate_le_iff]
  constructor
  · intro h path node hexamined hlimit
    have hmet : ⟨path.reverse, node⟩ ∈ e.walk limits.walkDepth [] :=
      Examined.visit_mem_walk (by simpa using hexamined)
        (by simpa using Nat.le_succ_of_le hlimit)
    simpa [Visit.depth] using h _ hmet (by simpa [Visit.depth] using hlimit)
  · intro h v hv hlimit
    simpa [Visit.depth] using
      h _ _ (examined_of_visit hv) (by simpa [Visit.depth] using hlimit)

/-- **A report is at least so deep as some node is that is examined within the limit.** -/
theorem le_depth_validate_iff {n : Nat} :
    n ≤ (e.validate context limits).depth ↔
      n ≤ limits.walkDepth ∧ ∃ path node, Examined e path node ∧ path.length = n := by
  constructor
  · intro h
    rcases Nat.eq_zero_or_pos n with rfl | hpos
    · exact ⟨Nat.zero_le _, [], e, .root e, rfl⟩
    by_contra hnone
    -- Without a node at this depth there is none below it.
    have hshallow : (e.validate context limits).depth ≤ n - 1 := by
      rw [depth_validate_le_iff_examined]
      intro path node hexamined hlimit
      by_contra hdeep
      obtain ⟨above, habove⟩ := hexamined.take n
      exact hnone ⟨by omega, _, above, habove, by rw [List.length_take]; omega⟩
    omega
  · rintro ⟨hlimit, path, node, hexamined, rfl⟩
    exact depth_validate_le_iff_examined.1 (Nat.le_refl _) path node hexamined hlimit

end Report

/-! ## The depth of the expression -/

theorem maxDepthArgs_cases (args : List Expression) :
    maxDepthArgs args = 0 ∨
      ∃ arg ∈ args, arg.isArray ∧ maxDepthArgs args = arg.maxDepth + 1 := by
  induction args with
  | nil => exact .inl rfl
  | cons first rest ih =>
    rw [maxDepthArgs]
    rcases Nat.le_total (if first.isArray then first.maxDepth + 1 else 0) (maxDepthArgs rest) with
      hle | hle
    · rw [Nat.max_eq_right hle]
      rcases ih with hzero | ⟨arg, hm, harray, heq⟩
      · exact .inl hzero
      · exact .inr ⟨arg, List.mem_cons_of_mem _ hm, harray, heq⟩
    · rw [Nat.max_eq_left hle]
      split
      · next harray => exact .inr ⟨first, List.mem_cons_self .., harray, rfl⟩
      · exact .inl rfl

/-- Some examined node is as deep as the expression, when all examined calls have known operators. -/
theorem exists_examined_maxDepth (e : Expression)
    (known : ∀ path operator args, Examined e path (call operator args) →
      (Operator.find? operator).isSome) :
    ∃ path node, Examined e path node ∧ path.length = e.maxDepth := by
  induction e using tree_induction with
  | literal value => exact ⟨[], _, .root _, rfl⟩
  | literalObject members => exact ⟨[], _, .root _, rfl⟩
  | malformed items => exact ⟨[], _, .root _, rfl⟩
  | call operator args ih =>
    rw [maxDepth]
    rcases maxDepthArgs_cases args with hzero | ⟨arg, hm, harray, heq⟩
    · exact ⟨[], _, .root _, hzero.symm⟩
    · have hroot := known [] operator args (.root _)
      obtain ⟨position, here⟩ := List.mem_iff_getElem?.1 hm
      obtain ⟨path, node, hexamined, hlength⟩ := ih arg hm fun path name others hbelow =>
        known _ name others (.argument hroot here harray hbelow)
      exact ⟨_, node, .argument hroot here harray hexamined, by rw [List.length_cons, hlength, heq]⟩

/-- A defect of a node that is examined within the limit is reported. -/
theorem exists_error_of_defect? {context : Option Context} {limits : Limits} {path : List Nat}
    {node : Expression} {code : Code} (h : Examined e path node)
    (hlimit : path.length ≤ limits.walkDepth) (hdefect : node.defect? = some code) :
    ∃ d ∈ (e.validate context limits).findings.errors, d.code = code := by
  let v : Visit := ⟨path.reverse, node⟩
  have hexamined : Examined e v.trail.reverse v.node := by simpa [v] using h
  have hvisit := mem_walk_iff.2 ⟨hexamined, by simpa [v] using hlimit⟩
  have hreported : v.error? ≠ none := by
    rw [Ne, visit_error?_eq_none_iff, hdefect]
    exact Option.some_ne_none code
  obtain ⟨d, hd⟩ := Option.ne_none_iff_exists'.1 hreported
  have hcode := (errorAt_of_error? hexamined hd).code
  refine ⟨d, ?_, Option.some.inj (hcode.symm.trans hdefect)⟩
  rw [errors_validate, faults, List.mem_filterMap]
  exact ⟨v, List.mem_filter.2 ⟨hvisit.1, decide_eq_true hvisit.2⟩, hd⟩

/-! ## Warnings about depth -/

/-- The first node that is nested beyond what is recommended. -/
def nested? (e : Expression) (limits : Limits) : Option Visit :=
  ((e.walk limits.walkDepth []).filter (·.depth ≤ limits.walkDepth)).find?
    (limits.recommendedDepth < ·.depth)

/-- The first node at which the walk is cut short. -/
def cutAt? (e : Expression) (limits : Limits) : Option Visit :=
  (e.walk limits.walkDepth []).find? (limits.walkDepth < ·.depth)

/-- A diagnostic that warns about the depth of an examined node other than the root. -/
structure DepthWarning (message : String) (path : List Nat) (d : Diagnostic) : Prop where
  severity : d.severity = .warning
  code : d.code = .excessiveDepth
  message : d.message = message
  located : d.path = some (Path.text (path.map .index))

section Warnings

variable {limits : Limits} {v : Visit}

theorem warnings_validate (e : Expression) (context : Option Context) (limits : Limits) :
    (e.validate context limits).findings.warnings =
      ((e.nested? limits).map (Visit.nestingWarning limits)).toList ++
        ((e.cutAt? limits).map (Visit.cutWarning limits)).toList ++
        (filterWarning? e context).toList := rfl

/-- The node beyond the limit is met, though not examined. -/
theorem cutAt?_eq_some_iff :
    e.cutAt? limits = some v ↔ FirstAtDepth e (limits.walkDepth + 1) v.trail.reverse v.node :=
  find?_deeper_iff (List.Sublist.refl _) fun _ hexamined hdepth =>
    hexamined.visit_mem_walk (by rw [List.length_reverse]; exact Nat.le_of_eq hdepth)

theorem isSome_cutAt?_iff :
    (e.cutAt? limits).isSome ↔
      ∃ path node, Examined e path node ∧ path.length = limits.walkDepth + 1 :=
  isSome_find?_deeper_iff (List.Sublist.refl _) fun _ hexamined hdepth =>
    hexamined.visit_mem_walk (by rw [List.length_reverse]; exact Nat.le_of_eq hdepth)

/-- The walk is not cut short when nothing is nested beyond the limit. -/
theorem cutAt?_eq_none (shallow : e.maxDepth ≤ limits.walkDepth) : e.cutAt? limits = none := by
  rw [← Option.not_isSome_iff_eq_none, isSome_cutAt?_iff]
  rintro ⟨path, node, hexamined, hlength⟩
  have hle := hexamined.length_le
  omega

/-- Nothing is nested too deep for comfort when the walk does not go that far. -/
theorem nested?_eq_none (h : limits.walkDepth ≤ limits.recommendedDepth) :
    e.nested? limits = none := by
  rw [nested?, List.find?_eq_none]
  intro v hv hdeep
  have hlimit := of_decide_eq_true (List.mem_filter.1 hv).2
  have hdeep' := of_decide_eq_true hdeep
  omega

/-- Where the walk goes far enough, it examines all nodes one step beyond the recommended depth. -/
theorem mem_examined_of_depth (room : limits.recommendedDepth < limits.walkDepth)
    (hexamined : Examined e v.trail.reverse v.node) (hdepth : v.depth = limits.recommendedDepth + 1) :
    v ∈ (e.walk limits.walkDepth []).filter (·.depth ≤ limits.walkDepth) := by
  have hlimit : v.depth ≤ limits.walkDepth := by omega
  rw [List.mem_filter, decide_eq_true_eq, mem_walk_iff]
  exact ⟨hexamined, hlimit⟩

theorem nested?_eq_some_iff :
    e.nested? limits = some v ↔ limits.recommendedDepth < limits.walkDepth ∧
      FirstAtDepth e (limits.recommendedDepth + 1) v.trail.reverse v.node := by
  rcases Nat.lt_or_ge limits.recommendedDepth limits.walkDepth with room | noRoom
  · rw [nested?, find?_deeper_iff List.filter_sublist fun w => mem_examined_of_depth room]
    exact (and_iff_right room).symm
  · simp [nested?_eq_none noRoom, Nat.not_lt_of_ge noRoom]

/-- There is a warning about nesting when the report is deeper than recommended. -/
theorem isSome_nested?_iff {context : Option Context} :
    (e.nested? limits).isSome ↔ limits.recommendedDepth < (e.validate context limits).depth := by
  rw [← Nat.succ_le_iff, le_depth_validate_iff]
  rcases Nat.lt_or_ge limits.recommendedDepth limits.walkDepth with room | noRoom
  · rw [nested?, isSome_find?_deeper_iff List.filter_sublist fun w => mem_examined_of_depth room]
    exact (and_iff_right (Nat.succ_le_of_lt room)).symm
  · simp [nested?_eq_none noRoom, Nat.not_le_of_gt (Nat.lt_succ_of_le noRoom)]

/-- Only the path of the root is not written. -/
theorem located_path (h : v.trail ≠ []) :
    (if v.path.text.isEmpty then none else some v.path.text) = some v.path.text := by
  refine if_neg ?_
  rw [Visit.path]
  cases hpath : v.trail.reverse with
  | nil => exact absurd (List.reverse_eq_nil_iff.1 hpath) h
  | cons position rest => simp [Path.text, Path.tailText]

theorem ne_root_of_depth {n : Nat} (h : v.depth = n + 1) : v.trail ≠ [] :=
  List.ne_nil_of_length_eq_add_one h

/-- The message of the warning about nesting. -/
def nestingMessage (depth recommended : Nat) : String :=
  s!"Expression nesting depth {depth} exceeds the recommended maximum of {recommended}"

theorem message_nestingWarning :
    (Visit.nestingWarning limits v).message = nestingMessage v.depth limits.recommendedDepth := rfl

theorem depthWarning_nestingWarning (h : v.depth = limits.recommendedDepth + 1) :
    DepthWarning (nestingMessage (limits.recommendedDepth + 1) limits.recommendedDepth)
      v.trail.reverse (Visit.nestingWarning limits v) where
  severity := rfl
  code := rfl
  message := by rw [message_nestingWarning, h]
  located := located_path (ne_root_of_depth h)

end Warnings

/-! ## Reports -/

/-- Warnings about depth are about nesting when the walk is not cut short. -/
theorem depthWarnings_validate {context : Option Context} {limits : Limits}
    (shallow : e.maxDepth ≤ limits.walkDepth) :
    (e.validate context limits).findings.warnings.filter (·.code == .excessiveDepth) =
      ((e.nested? limits).map (Visit.nestingWarning limits)).toList := by
  have hnested : ((e.nested? limits).map (Visit.nestingWarning limits)).toList.filter
      (·.code == .excessiveDepth) = ((e.nested? limits).map (Visit.nestingWarning limits)).toList := by
    rw [List.filter_eq_self]
    intro d hd
    obtain ⟨v, -, rfl⟩ := Option.map_eq_some_iff.1 (Option.mem_toList.1 hd)
    rfl
  have hfilter : (filterWarning? e context).toList.filter (·.code == .excessiveDepth) = [] := by
    rw [List.filter_eq_nil_iff]
    intro d hd
    rw [code_of_filterWarning? (Option.mem_toList.1 hd)]
    decide
  rw [warnings_validate, cutAt?_eq_none shallow, List.filter_append, List.filter_append, hnested,
    hfilter]
  simp

/-- **The depth of a report is that of the expression, and nesting is warned about once,** when the
    limit of the walk is not exceeded. The report is as deep as the expression unless an unknown
    operator is reported, and never deeper; beyond the recommended depth there is one warning, at the
    first examined node one step beyond it. -/
theorem depth_and_nesting (e : Expression) (context : Option Context) (limits : Limits)
    (shallow : e.maxDepth ≤ limits.walkDepth) :
    let report := e.validate context limits
    ((∀ d ∈ report.findings.errors, d.code ≠ .unknownOperator) → report.depth = e.maxDepth) ∧
    report.depth ≤ e.maxDepth ∧
    ∃ warning : Option Diagnostic,
      report.findings.warnings.filter (·.code == .excessiveDepth) = warning.toList ∧
      (warning.isSome ↔ limits.recommendedDepth < report.depth) ∧
      ∀ d ∈ warning, ∃ path node, FirstAtDepth e (limits.recommendedDepth + 1) path node ∧
        DepthWarning
          (nestingMessage (limits.recommendedDepth + 1) limits.recommendedDepth) path d := by
  intro report
  have hdepth : report.depth ≤ e.maxDepth :=
    depth_validate_le_iff_examined.2 fun _ _ hexamined _ => hexamined.length_le
  refine ⟨fun hknown => Nat.le_antisymm hdepth ?_, hdepth,
    (e.nested? limits).map (Visit.nestingWarning limits), depthWarnings_validate shallow, ?_, ?_⟩
  · obtain ⟨path, node, hexamined, hlength⟩ := exists_examined_maxDepth e fun path operator args h => by
      by_contra hunknown
      have hdefect : (call operator args).defect? = some .unknownOperator := by
        rw [defect?, Option.not_isSome_iff_eq_none.1 hunknown]
      obtain ⟨d, hd, hcode⟩ := exists_error_of_defect? h (Nat.le_trans h.length_le shallow) hdefect
      exact hknown d hd hcode
    exact le_depth_validate_iff.2 ⟨shallow, path, node, hexamined, hlength⟩
  · rw [Option.isSome_map]
    exact isSome_nested?_iff
  · intro d hd
    obtain ⟨v, hv, rfl⟩ := Option.map_eq_some_iff.1 hd
    obtain ⟨-, hfirst⟩ := nested?_eq_some_iff.1 hv
    refine ⟨_, _, hfirst, depthWarning_nestingWarning ?_⟩
    rw [Visit.depth, ← List.length_reverse, hfirst.length]

/-- Of the branches of three depths the walk meets the one in the middle first. -/
theorem depth_and_nesting_branches :
    let e := call "all"
      [call "has" [literal (.string "x")], call "!" [call "any" [malformed []]],
        call "!" [call "has" [literal (.string "y")]]]
    let limits : Limits := { recommendedDepth := 1 }
    e.maxDepth ≤ limits.walkDepth ∧
    (∀ d ∈ (e.validate none limits).findings.errors, d.code ≠ .unknownOperator) ∧
    (e.validate none limits).depth = e.maxDepth ∧ e.maxDepth = 3 ∧
    ∃ d path node, (e.validate none limits).findings.warnings.filter (·.code == .excessiveDepth) = [d] ∧
      FirstAtDepth e 2 path node ∧ DepthWarning (nestingMessage 2 1) path d := by
  intro e limits
  have shallow : e.maxDepth ≤ limits.walkDepth := by decide
  have hknown : ∀ d ∈ (e.validate none limits).findings.errors, d.code ≠ .unknownOperator := by
    decide +kernel
  obtain ⟨hdepth, -, warning, hwarnings, hsome, hfirst⟩ := depth_and_nesting e none limits shallow
  have hdeep : limits.recommendedDepth < (e.validate none limits).depth := by
    rw [hdepth hknown]
    decide
  obtain ⟨d, rfl⟩ := Option.isSome_iff_exists.1 (hsome.2 hdeep)
  obtain ⟨path, node, hat, hwarning⟩ := hfirst d rfl
  exact ⟨shallow, hknown, hdepth hknown, by decide, d, path, node, hwarnings, hat, hwarning⟩

end Expression

end CartoStyle
