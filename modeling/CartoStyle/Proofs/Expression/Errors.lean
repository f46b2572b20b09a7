import CartoStyle.Expression.Validate
import CartoStyle.Proofs.Expression.Simplify

set_option autoImplicit false

/-! # Folding and the errors of an expression

A constant that is folded is a call without fault, and so are the calls below it: folding takes away
only nodes at which validation finds nothing. So a folded expression has the errors of the expression,
at the same places and in the same order (`errors_validate_simplify`). -/

namespace CartoStyle

/-- The errors at the visited nodes that are examined. -/
def faults (limit : Nat) (visits : List Visit) : List Diagnostic :=
  (visits.filter (·.depth ≤ limit)).filterMap Visit.error?

variable {limit : Nat}

@[simp]
theorem faults_append (visits more : List Visit) :
    faults limit (visits ++ more) = faults limit visits ++ faults limit more := by
  simp [faults]

/-- A node without fault gives no error. -/
theorem faults_singleton_eq_nil {trail : List Nat} {e : Expression}
    (h : NodeFault.ofNode? e = none) : faults limit [⟨trail, e⟩] = [] := by
  rw [faults, List.filterMap_eq_nil_iff]
  intro visit hv
  obtain rfl := List.mem_singleton.1 (List.mem_of_mem_filter hv)
  rw [Visit.error?, h]
  rfl

theorem faults_singleton_congr {trail : List Nat} {e e' : Expression}
    (h : NodeFault.ofNode? e = NodeFault.ofNode? e') :
    faults limit [⟨trail, e⟩] = faults limit [⟨trail, e'⟩] := by
  have herror : Visit.error? ⟨trail, e⟩ = Visit.error? ⟨trail, e'⟩ := by
    rw [Visit.error?, Visit.error?, h]
    rfl
  by_cases hdepth : trail.length ≤ limit
  · simp [faults, Visit.depth, hdepth, List.filterMap_cons, herror]
  · simp [faults, Visit.depth, hdepth]

namespace Expression

/-- What is not written as an array has no errors. -/
theorem faults_walk_of_not_array {e : Expression} (h : e.isArray = false) (trail : List Nat) :
    faults limit (e.walk limit trail) = [] := by
  cases e with
  | literal value => exact faults_singleton_eq_nil rfl
  | literalObject members => exact faults_singleton_eq_nil rfl
  | _ => simp [isArray] at h

theorem faults_walkArgs_cons (trail : List Nat) (position : Nat) (arg : Expression)
    (rest : List Expression) :
    faults limit (walkArgs limit trail position (arg :: rest)) =
      faults limit (arg.walk limit (position :: trail)) ++
        faults limit (walkArgs limit trail (position + 1) rest) := by
  rw [walkArgs, faults_append]
  cases h : arg.isArray with
  | true => rfl
  | false =>
    rw [faults_walk_of_not_array h]
    rfl

theorem faults_walk_call (trail : List Nat) (operator : String) (args : List Expression) :
    faults limit ((call operator args).walk limit trail) =
      faults limit [⟨trail, call operator args⟩] ++
        (if trail.length ≤ limit ∧ (Operator.find? operator).isSome then
          faults limit (walkArgs limit trail 1 args)
        else []) := by
  rw [walk, ← List.singleton_append, faults_append]
  split
  · rfl
  · rfl

/-- The fault of a call depends on how many arguments it has, not on which. -/
theorem ofNode?_call_congr {operator : String} {args others : List Expression}
    (h : args.length = others.length) :
    NodeFault.ofNode? (call operator args) = NodeFault.ofNode? (call operator others) := by
  simp only [NodeFault.ofNode?, h]

/-- A call is without fault exactly when its operator is known and takes the arguments. -/
theorem ofNode?_call_eq_none_iff {operator : String} {args : List Expression} :
    NodeFault.ofNode? (call operator args) = none ↔
      ∃ o, Operator.find? operator = some o ∧ o.accepts args.length := by
  rw [NodeFault.ofNode?]
  cases Operator.find? operator with
  | none => simp
  | some o =>
    by_cases hleast : args.length < o.least
    · simp [hleast, Operator.accepts, Nat.not_le_of_lt hleast]
    · cases hmost : o.most with
      | none => simp [hleast, hmost, Operator.accepts, Nat.le_of_not_lt hleast]
      | some most => simp [hleast, hmost, Operator.accepts, Nat.le_of_not_lt hleast]

/-- The operators of constants are known and take one argument. -/
theorem ofNode?_constant {operator : String} {b value : Bool} {arg : Expression}
    (h : constant? operator b = some value) : NodeFault.ofNode? (call operator [arg]) = none := by
  have hknown : ∀ name ∈ ["all", "any", "!"], ∃ o, Operator.find? name = some o ∧ o.accepts 1 := by
    decide +kernel
  rw [ofNode?_call_eq_none_iff]
  exact hknown operator (mem_of_constant? h)

theorem faults_walkArgs_simplify {args : List Expression}
    (h : ∀ arg ∈ args, ∀ trail,
      faults limit (arg.simplify.walk limit trail) = faults limit (arg.walk limit trail))
    (trail : List Nat) (position : Nat) :
    faults limit (walkArgs limit trail position (args.map simplify)) =
      faults limit (walkArgs limit trail position args) := by
  induction args generalizing position with
  | nil => rfl
  | cons arg rest ih =>
    rw [List.map_cons, faults_walkArgs_cons, faults_walkArgs_cons, h arg (List.mem_cons_self ..),
      ih fun arg hm => h arg (List.mem_cons_of_mem _ hm)]

theorem faults_walk_simplify (e : Expression) (trail : List Nat) :
    faults limit (e.simplify.walk limit trail) = faults limit (e.walk limit trail) := by
  induction e using tree_induction generalizing trail with
  | literal value => rfl
  | literalObject members => rfl
  | malformed items => rfl
  | call operator args ih =>
    rw [simplify_call]
    have hargs := faults_walkArgs_simplify ih trail 1
    rcases simplifyNode_cases (.call operator (args.map simplify)) with
      ⟨_, b, value, heq, hconstant, hfold⟩ | hkeep
    · -- A constant: the call has no fault, and by induction its argument has none either.
      obtain ⟨rfl, hmap⟩ := Expression.call.inj heq
      obtain ⟨arg, rfl⟩ : ∃ arg, args = [arg] := by
        rw [← List.length_eq_one_iff, ← List.length_map (f := simplify), hmap]
        rfl
      have hbelow : faults limit (walkArgs limit trail 1 [arg]) = [] := by
        rw [← hargs, hmap, faults_walkArgs_cons, faults_walk_of_not_array rfl]
        rfl
      rw [hfold, faults_walk_of_not_array rfl, faults_walk_call, hbelow,
        faults_singleton_eq_nil (ofNode?_constant hconstant)]
      simp
    · rw [hkeep, faults_walk_call, faults_walk_call, hargs,
        faults_singleton_congr (ofNode?_call_congr (List.length_map _))]

theorem errors_validate (e : Expression) (context : Option Context) (limits : Limits) :
    (e.validate context limits).findings.errors =
      faults limits.walkDepth (e.walk limits.walkDepth []) := rfl

/-- **Folding does not change the errors of an expression.** -/
theorem errors_validate_simplify (e : Expression) (context : Option Context) (limits : Limits) :
    (e.simplify.validate context limits).findings.errors =
      (e.validate context limits).findings.errors := by
  rw [errors_validate, errors_validate, faults_walk_simplify]

/-- The warning about a filter is about the type of the whole. -/
theorem shape_of_filterWarning? {e : Expression} {context : Option Context} {d : Diagnostic}
    (h : filterWarning? e context = some d) :
    d.severity = .warning ∧ d.code = .typeMismatch ∧ d.path = none := by
  unfold filterWarning? at h
  split at h
  · split at h
    · simp at h
    · obtain rfl := Option.some.inj h
      exact ⟨rfl, rfl, rfl⟩
  · simp at h

end Expression

end CartoStyle
