import CartoStyle.Proofs.Expression.Errors

set_option autoImplicit false

/-! # The errors of an expression, exactly

Which nodes validation examines is said here apart from the walk (`Expression.Examined`): the root,
and below an examined call of a known operator the arguments that are written as arrays. The walk
meets just these nodes (`Expression.mem_walk_iff`), in the order of their paths
(`Expression.pairwise_walk`), so the errors are one for each examined node at fault, in that order,
each at a path that leads to its node in the JSON value (`Expression.validate_exact`). -/

namespace CartoStyle

namespace Expression

/-! ## Examined nodes -/

/-- A node that validation examines, under the positions that lead to it. The operator of a call
    stands at position `0`. -/
inductive Examined : Expression → List Nat → Expression → Prop
  | root (e : Expression) : Examined e [] e
  | argument {operator : String} {args : List Expression} {position : Nat} {path : List Nat}
      {arg node : Expression} (known : (Operator.find? operator).isSome)
      (here : args[position]? = some arg) (array : arg.isArray) (below : Examined arg path node) :
      Examined (call operator args) ((position + 1) :: path) node

/-- A node that is reached through the arguments of calls, known or not. -/
inductive Reached : Expression → Expression → Prop
  | root (e : Expression) : Reached e e
  | argument {operator : String} {args : List Expression} {arg node : Expression}
      (here : arg ∈ args) (below : Reached arg node) : Reached (call operator args) node

/-- A call of a known operator with as many arguments as it takes. -/
def Sound (e : Expression) : Prop :=
  ∃ operator args o, e = .call operator args ∧ Operator.find? operator = some o ∧
    o.accepts args.length

/-- What is wrong with a node. -/
def defect? : Expression → Option Code
  | .call operator args =>
    match Operator.find? operator with
    | none => some .unknownOperator
    | some o => if o.accepts args.length then none else some .argumentCount
  | .malformed _ => some .invalidOperator
  | _ => none

/-- The defect of a node is the code of its fault. -/
theorem code_ofNode? (e : Expression) :
    (NodeFault.ofNode? e).map (·.toDiagnostic.code) = e.defect? := by
  cases e with
  | literal value => rfl
  | literalObject members => rfl
  | malformed items => rfl
  | call operator args =>
    rw [NodeFault.ofNode?, defect?]
    cases Operator.find? operator with
    | none => rfl
    | some o =>
      by_cases hleast : args.length < o.least
      · simp [hleast, Operator.accepts, Nat.not_le_of_lt hleast, NodeFault.toDiagnostic,
          Diagnostic.error]
      · cases hmost : o.most with
        | none => simp [hleast, hmost, Operator.accepts, Nat.le_of_not_lt hleast]
        | some most =>
          by_cases hcount : most < args.length
          · simp [hleast, hmost, hcount, Operator.accepts, NodeFault.toDiagnostic,
              Diagnostic.error]
          · simp [hleast, hmost, hcount, Operator.accepts, Nat.le_of_not_lt hleast,
              Nat.le_of_not_lt hcount]

/-- An array is without defect when it is sound, and nothing else has a defect. -/
theorem defect?_eq_none_iff {e : Expression} : e.defect? = none ↔ (e.isArray → e.Sound) := by
  cases e with
  | literal value => simp [defect?, isArray]
  | literalObject members => simp [defect?, isArray]
  | malformed items => simp [defect?, isArray, Sound]
  | call operator args =>
    rw [defect?]
    cases h : Operator.find? operator with
    | none => simp [isArray, Sound, h]
    | some o => simp [isArray, Sound, h]

/-- What follows a path leads from the JSON value of an expression to that of the node. -/
theorem Examined.at? {e node : Expression} {path : List Nat} (h : Examined e path node) :
    e.toJson.at? (path.map .index) = some node.toJson := by
  induction h with
  | root e => rfl
  | @argument operator args position path arg node _ here _ _ ih =>
    rw [toJson_call, List.map_cons, Json.at?]
    simp [Json.step?, here, ih]

theorem Examined.reached {e node : Expression} {path : List Nat} (h : Examined e path node) :
    Reached e node := by
  induction h with
  | root e => exact .root e
  | argument _ here _ _ ih => exact .argument (List.mem_of_getElem? here) ih

/-- An argument that is an array is nested deeper than its own arguments. -/
theorem maxDepth_lt_of_mem {args : List Expression} {arg : Expression} (hm : arg ∈ args)
    (array : arg.isArray) : arg.maxDepth < maxDepthArgs args := by
  induction args with
  | nil => simp at hm
  | cons first rest ih =>
    rw [maxDepthArgs]
    rcases List.mem_cons.1 hm with rfl | hm'
    · rw [if_pos array]
      omega
    · have := ih hm'
      omega

theorem Examined.length_le {e node : Expression} {path : List Nat} (h : Examined e path node) :
    path.length ≤ e.maxDepth := by
  induction h with
  | root e => exact Nat.zero_le _
  | argument _ here array _ ih =>
    have hlt := maxDepth_lt_of_mem (List.mem_of_getElem? here) array
    rw [maxDepth, List.length_cons]
    omega

/-! ## The walk meets the examined nodes -/

variable {limit : Nat} {trail : List Nat}

theorem mem_walkArgs_iff {position : Nat} {args : List Expression} {v : Visit} :
    v ∈ walkArgs limit trail position args ↔
      ∃ (i : Nat) (arg : Expression), args[i]? = some arg ∧ arg.isArray ∧
        v ∈ arg.walk limit ((position + i) :: trail) := by
  induction args generalizing position with
  | nil => simp [walkArgs]
  | cons first rest ih =>
    rw [walkArgs, List.mem_append, ih]
    constructor
    · rintro (h | ⟨i, arg, here, array, hv⟩)
      · split at h
        · next array => exact ⟨0, first, rfl, array, h⟩
        · simp at h
      · refine ⟨i + 1, arg, here, array, ?_⟩
        rwa [show position + (i + 1) = position + 1 + i by omega]
    · rintro ⟨i, arg, here, array, hv⟩
      cases i with
      | zero =>
        obtain rfl : first = arg := by simpa using here
        left
        rwa [if_pos array]
      | succ i =>
        right
        refine ⟨i, arg, here, array, ?_⟩
        rwa [show position + 1 + i = position + (i + 1) by omega]

/-- What the walk meets is examined. -/
theorem examined_of_mem_walk {e : Expression} {v : Visit} (hv : v ∈ e.walk limit trail) :
    ∃ path, v.trail.reverse = trail.reverse ++ path ∧ Examined e path v.node := by
  induction e using tree_induction generalizing trail with
  | literal value =>
    obtain rfl := List.mem_singleton.1 hv
    exact ⟨[], by simp, .root _⟩
  | literalObject members =>
    obtain rfl := List.mem_singleton.1 hv
    exact ⟨[], by simp, .root _⟩
  | malformed items =>
    obtain rfl := List.mem_singleton.1 hv
    exact ⟨[], by simp, .root _⟩
  | call operator args ih =>
    rw [walk] at hv
    rcases List.mem_cons.1 hv with rfl | hv
    · exact ⟨[], by simp, .root _⟩
    · split at hv
      · next henter =>
        obtain ⟨i, arg, here, array, hv⟩ := mem_walkArgs_iff.1 hv
        obtain ⟨path, htrail, hbelow⟩ := ih arg (List.mem_of_getElem? here) hv
        refine ⟨(i + 1) :: path, ?_, .argument henter.2 here array hbelow⟩
        rw [htrail, Nat.add_comm 1 i]
        simp
      · simp at hv

/-- What is examined is met, down to one step below the limit. -/
theorem Examined.mem_walk {e node : Expression} {path : List Nat} (h : Examined e path node)
    (hdepth : trail.length + path.length ≤ limit + 1) :
    ⟨path.reverse ++ trail, node⟩ ∈ e.walk limit trail := by
  induction h generalizing trail with
  | root e => cases e <;> simp [walk]
  | @argument operator args position path arg node known here array _ ih =>
    rw [List.length_cons] at hdepth
    have hbelow : ⟨path.reverse ++ (1 + position) :: trail, node⟩ ∈
        arg.walk limit ((1 + position) :: trail) := ih (by rw [List.length_cons]; omega)
    rw [walk, if_pos ⟨by omega, known⟩]
    refine List.mem_cons_of_mem _ (mem_walkArgs_iff.2 ⟨position, arg, here, array, ?_⟩)
    simpa [Nat.add_comm 1 position] using hbelow

/-- The same from the root, with the visit that is made. -/
theorem Examined.visit_mem_walk {e : Expression} {v : Visit}
    (h : Examined e v.trail.reverse v.node) (hdepth : v.trail.reverse.length ≤ limit + 1) :
    v ∈ e.walk limit [] := by
  have hv : ⟨v.trail.reverse.reverse ++ [], v.node⟩ ∈ e.walk limit [] :=
    h.mem_walk (by simpa using hdepth)
  rwa [List.reverse_reverse, List.append_nil] at hv

theorem examined_of_visit {e : Expression} {v : Visit} (hv : v ∈ e.walk limit []) :
    Examined e v.trail.reverse v.node := by
  obtain ⟨path, htrail, hexamined⟩ := examined_of_mem_walk hv
  rw [List.reverse_nil, List.nil_append] at htrail
  exact htrail ▸ hexamined

/-- **The walk examines just the examined nodes down to the limit.** -/
theorem mem_walk_iff {e : Expression} {v : Visit} :
    (v ∈ e.walk limit [] ∧ v.depth ≤ limit) ↔
      Examined e v.trail.reverse v.node ∧ v.trail.length ≤ limit := by
  constructor
  · rintro ⟨hv, hdepth⟩
    exact ⟨examined_of_visit hv, hdepth⟩
  · rintro ⟨hexamined, hdepth⟩
    refine ⟨hexamined.visit_mem_walk ?_, hdepth⟩
    rw [List.length_reverse]
    omega

/-! ## The order of the walk -/

theorem append_lt_append {before rest other : List Nat} (h : rest < other) :
    before ++ rest < before ++ other := by
  induction before with
  | nil => exact h
  | cons n before ih => exact List.cons_lt_cons_iff.2 (Or.inr ⟨rfl, ih⟩)

theorem pairwise_walkArgs {args : List Expression} {position : Nat}
    (h : ∀ arg ∈ args, ∀ trail,
      (arg.walk limit trail).Pairwise fun v w => v.trail.reverse < w.trail.reverse) :
    (walkArgs limit trail position args).Pairwise fun v w => v.trail.reverse < w.trail.reverse := by
  induction args generalizing position with
  | nil => exact List.Pairwise.nil
  | cons first rest ih =>
    rw [walkArgs, List.pairwise_append]
    refine ⟨?_, ih fun arg hm => h arg (List.mem_cons_of_mem _ hm), ?_⟩
    · split
      · exact h first (List.mem_cons_self ..) _
      · exact List.Pairwise.nil
    · -- Paths through the first argument are before paths through a later one.
      intro v hv w hw
      split at hv
      · obtain ⟨path, hpath, -⟩ := examined_of_mem_walk hv
        obtain ⟨i, arg, -, -, hw⟩ := mem_walkArgs_iff.1 hw
        obtain ⟨other, hother, -⟩ := examined_of_mem_walk hw
        rw [hpath, hother, List.reverse_cons, List.reverse_cons, List.append_assoc,
          List.append_assoc]
        exact append_lt_append (List.cons_lt_cons_iff.2 (Or.inl (by omega)))
      · simp at hv

/-- **The walk meets nodes in the order of their paths,** in which a node comes before those below
    it. -/
theorem pairwise_walk (e : Expression) (trail : List Nat) :
    (e.walk limit trail).Pairwise fun v w => v.trail.reverse < w.trail.reverse := by
  induction e using tree_induction generalizing trail with
  | literal value => exact List.pairwise_singleton _ _
  | literalObject members => exact List.pairwise_singleton _ _
  | malformed items => exact List.pairwise_singleton _ _
  | call operator args ih =>
    rw [walk, List.pairwise_cons]
    split
    · refine ⟨fun w hw => ?_, pairwise_walkArgs ih⟩
      obtain ⟨i, arg, -, -, hw⟩ := mem_walkArgs_iff.1 hw
      obtain ⟨path, hpath, -⟩ := examined_of_mem_walk hw
      have hbelow : trail.reverse ++ [] < trail.reverse ++ (1 + i) :: path :=
        append_lt_append (List.nil_lt_cons (1 + i) path)
      rw [List.append_nil] at hbelow
      rwa [hpath, List.reverse_cons, List.append_assoc]
    · exact ⟨by simp, List.Pairwise.nil⟩

/-! ## Errors -/

theorem visit_error?_eq_none_iff {v : Visit} : v.error? = none ↔ v.node.defect? = none := by
  rw [Visit.error?, Option.map_eq_none_iff, ← code_ofNode?, Option.map_eq_none_iff]

/-- **An expression has no errors when all the arrays that are examined are sound.** -/
theorem faults_walk_eq_nil_iff {e : Expression} :
    faults limit (e.walk limit []) = [] ↔
      ∀ path node, Examined e path node → path.length ≤ limit → node.isArray → node.Sound := by
  rw [faults, List.filterMap_eq_nil_iff]
  simp only [List.mem_filter, decide_eq_true_eq, mem_walk_iff, visit_error?_eq_none_iff,
    defect?_eq_none_iff]
  constructor
  · intro h path node hexamined hdepth
    exact h ⟨path.reverse, node⟩ ⟨by simpa using hexamined, by simpa using hdepth⟩
  · rintro h v ⟨hexamined, hdepth⟩
    exact h _ _ hexamined (by simpa using hdepth)

/-- When the arrays that are examined are sound, so are all that are reached: below a sound call the
    walk goes on. -/
theorem Reached.sound {e node : Expression} (h : Reached e node) (array : node.isArray)
    (hsound : ∀ path node, Examined e path node → node.isArray → node.Sound) : node.Sound := by
  induction h with
  | root e => exact hsound [] e (.root e) array
  | @argument operator args arg node here below ih =>
    have hnested : arg.isArray := by
      cases below with
      | root => exact array
      | argument => rfl
    obtain ⟨_, _, o, heq, hfind, -⟩ := hsound [] _ (.root _) rfl
    obtain ⟨rfl, rfl⟩ := Expression.call.inj heq
    obtain ⟨position, hposition⟩ := List.mem_iff_getElem?.1 here
    refine ih array fun path node hexamined => ?_
    exact hsound _ node (.argument (by rw [hfind]; rfl) hposition hnested hexamined)

/-- A diagnostic that is the error about a node of an expression under a path. -/
structure ErrorAt (e : Expression) (path : List Nat) (node : Expression) (d : Diagnostic) :
    Prop where
  severity : d.severity = .error
  code : node.defect? = some d.code
  /-- The path is written down, and that of the root is not. -/
  located : d.path = if path = [] then none else some (Path.text (path.map .index))
  /-- The path leads to the node in the JSON value, which is the value that an expression was read
      from (`toJson_ofJson`). -/
  place : e.toJson.at? (path.map .index) = some node.toJson

theorem errorAt_of_error? {e : Expression} {v : Visit} {d : Diagnostic}
    (hexamined : Examined e v.trail.reverse v.node) (h : v.error? = some d) :
    ErrorAt e v.trail.reverse v.node d := by
  obtain ⟨fault, hfault, rfl⟩ := Option.map_eq_some_iff.1 h
  refine ⟨?_, ?_, ?_, hexamined.at?⟩
  · cases fault <;> rfl
  · rw [← code_ofNode?, hfault]
    rfl
  · show (if v.path.text.isEmpty then none else some v.path.text) = _
    rw [Visit.path]
    cases v.trail.reverse with
    | nil => rfl
    | cons position rest => simp [Path.text, Path.tailText]

/-- What a list is mapped to where that is defined, element by element. -/
theorem forall₂_filterMap {α β γ : Type} {f : α → Option β} {g : α → γ} {r : β → γ → Prop}
    {as : List α} (h : ∀ a ∈ as, ∀ b, f a = some b → r b (g a)) :
    List.Forall₂ r (as.filterMap f) ((as.filter fun a => (f a).isSome).map g) := by
  induction as with
  | nil => exact List.Forall₂.nil
  | cons a rest ih =>
    obtain ⟨hfirst, hrest⟩ := List.forall_mem_cons.1 h
    cases ha : f a with
    | none =>
      rw [List.filterMap_cons_none ha, List.filter_cons_of_neg (by simp [ha])]
      exact ih hrest
    | some b =>
      rw [List.filterMap_cons_some ha, List.filter_cons_of_pos (by simp [ha]), List.map_cons]
      exact (ih hrest).cons (hfirst b ha)

/-- **The errors of an expression are those of its examined nodes.** When nothing is nested beyond
    the limit, there is one error for each examined node with a defect, in the order of their paths
    and each with its path, and there is no error just when every array that is reached through
    arguments is a call of a known operator with as many arguments as it takes. -/
theorem validate_exact (e : Expression) (context : Option Context) (limits : Limits)
    (shallow : e.maxDepth ≤ limits.walkDepth) :
    (∃ nodes : List (List Nat × Expression),
      nodes.Pairwise (fun n m => n.1 < m.1) ∧
      (∀ path node, (path, node) ∈ nodes ↔ Examined e path node ∧ node.defect?.isSome) ∧
      List.Forall₂ (fun d n => ErrorAt e n.1 n.2 d)
        (e.validate context limits).findings.errors nodes) ∧
    ((e.validate context limits).findings.valid ↔
      ∀ node, Reached e node → node.isArray → node.Sound) := by
  have hlimit : ∀ path node, Examined e path node → path.length ≤ limits.walkDepth :=
    fun _ _ hexamined => Nat.le_trans hexamined.length_le shallow
  constructor
  · let examined := (e.walk limits.walkDepth []).filter (·.depth ≤ limits.walkDepth)
    have hmem : ∀ v, v ∈ examined ↔ Examined e v.trail.reverse v.node := by
      intro v
      rw [List.mem_filter, decide_eq_true_eq, mem_walk_iff]
      exact ⟨fun h => h.1, fun h => ⟨h, by simpa using hlimit _ _ h⟩⟩
    refine ⟨(examined.filter fun v => v.error?.isSome).map fun v => (v.trail.reverse, v.node),
      ?_, ?_, ?_⟩
    · rw [List.pairwise_map]
      exact ((pairwise_walk e []).filter _).filter _
    · intro path node
      have hdefect : ∀ v : Visit, v.error?.isSome ↔ v.node.defect?.isSome := by
        intro v
        rw [Option.isSome_iff_ne_none, Option.isSome_iff_ne_none, Ne, visit_error?_eq_none_iff]
      simp only [List.mem_map, List.mem_filter, hmem, hdefect, Prod.mk.injEq]
      constructor
      · rintro ⟨v, h, rfl, rfl⟩
        exact h
      · intro h
        exact ⟨⟨path.reverse, node⟩, by simpa using h, by simp, rfl⟩
    · exact forall₂_filterMap fun v hv d hd => errorAt_of_error? ((hmem v).1 hv) hd
  · rw [Findings.valid, errors_validate, List.isEmpty_iff, faults_walk_eq_nil_iff]
    constructor
    · intro h node hreached array
      refine hreached.sound array fun path node hexamined => ?_
      exact h path node hexamined (hlimit path node hexamined)
    · intro h path node hexamined _
      exact h node hexamined.reached

/-- Faults in three branches, and one below an unknown operator that is not examined. -/
theorem validate_exact_branches :
    let e := call "all"
      [call "bogus" [malformed []], call "get" [literal .null, malformed [.null]], call "!" []]
    e.maxDepth ≤ ({} : Limits).walkDepth ∧
    (∃ nodes : List (List Nat × Expression),
      nodes.Pairwise (fun n m => n.1 < m.1) ∧
      (∀ path node, (path, node) ∈ nodes ↔ Examined e path node ∧ node.defect?.isSome) ∧
      List.Forall₂ (fun d n => ErrorAt e n.1 n.2 d)
        (e.validate (some .filter) {}).findings.errors nodes) ∧
    ((e.validate (some .filter) {}).findings.valid ↔
      ∀ node, Reached e node → node.isArray → node.Sound) := by
  intro e
  have shallow : e.maxDepth ≤ ({} : Limits).walkDepth := by decide
  exact ⟨shallow, validate_exact e (some .filter) {} shallow⟩

example :
    (validate (call "all" [call "bogus" [malformed []], call "get" [literal .null, malformed [.null]],
      call "!" []]) none {}).findings.errors.map (fun d => (d.code, d.path)) =
      [(.unknownOperator, some "[1]"), (.invalidOperator, some "[2][2]"),
        (.argumentCount, some "[3]")] := by
  decide +kernel

end Expression

end CartoStyle
