import CartoStyle.Proofs.Expression.NormalForm

set_option autoImplicit false

/-! # Folding and meaning

A `Meaning` gives every literal a value and every operator a function on the values of its arguments;
nothing is asked of either. Folding rests on three laws of it (`Meaning.Boolean`), and on no others:
simplified expressions have the value of the original ones exactly when the laws hold
(`Meaning.eval_simplify_iff`). -/

namespace CartoStyle

universe u

/-- A compositional meaning of expressions: a value for everything that is no call, and a function for
    every operator. -/
structure Meaning (Value : Type u) where
  literal : Json → Value
  literalObject : List (String × Json) → Value
  malformed : List Json → Value
  operator : String → List Value → Value

namespace Meaning

variable {Value : Type u} (m : Meaning Value)

/-- The value of a truth value. -/
def truth (b : Bool) : Value := m.literal (.bool b)

/-- The laws of `all`, `any` and `!` that folding rests on. -/
structure Boolean : Prop where
  all_true : m.operator "all" [m.truth true] = m.truth true
  any_false : m.operator "any" [m.truth false] = m.truth false
  not_truth : ∀ b, m.operator "!" [m.truth b] = m.truth !b

mutual

/-- The value of an expression. -/
def eval : Expression → Value
  | .literal value => m.literal value
  | .call operator args => m.operator operator (evalArgs args)
  | .literalObject members => m.literalObject members
  | .malformed items => m.malformed items

/-- The values of arguments. -/
def evalArgs : List Expression → List Value
  | [] => []
  | arg :: rest => eval arg :: evalArgs rest

end

theorem evalArgs_eq_map (args : List Expression) : m.evalArgs args = args.map m.eval := by
  induction args with
  | nil => rfl
  | cons arg rest ih => rw [evalArgs, ih, List.map_cons]

variable {m}

/-- The constants have the value that is put in their place. -/
theorem Boolean.eval_identity (laws : m.Boolean) {e : Expression} {value : Bool}
    (h : Expression.Identity e value) : m.eval e = m.truth value := by
  cases h with
  | allTrue => exact laws.all_true
  | anyFalse => exact laws.any_false
  | notTrue => exact laws.not_truth true
  | notFalse => exact laws.not_truth false

/-- One fold keeps the value. -/
theorem Boolean.eval_fold (laws : m.Boolean) {e e' : Expression} (h : Expression.Fold e e') :
    m.eval e' = m.eval e := by
  induction h with
  | here hidentity => exact (laws.eval_identity hidentity).symm
  | argument _ ih =>
    rw [eval, eval, evalArgs_eq_map, evalArgs_eq_map, List.map_append, List.map_append,
      List.map_cons, List.map_cons, ih]

/-- Any run of folds keeps the value. -/
theorem Boolean.eval_folds (laws : m.Boolean) {e e' : Expression}
    (h : Relation.ReflTransGen Expression.Fold e e') : m.eval e' = m.eval e := by
  induction h with
  | refl => rfl
  | tail _ hfold ih => exact (laws.eval_fold hfold).trans ih

/-- A meaning that simplifying keeps obeys the laws. -/
theorem Boolean.of_eval_simplify (h : ∀ e : Expression, m.eval e.simplify = m.eval e) :
    m.Boolean where
  all_true := (h (.call "all" [.literal (.bool true)])).symm
  any_false := (h (.call "any" [.literal (.bool false)])).symm
  not_truth b := by
    cases b with
    | false => exact (h (.call "!" [.literal (.bool false)])).symm
    | true => exact (h (.call "!" [.literal (.bool true)])).symm

/-- **Simplifying keeps the value of every expression** under the meanings that obey the laws, and
    under no others. -/
theorem eval_simplify_iff (m : Meaning Value) :
    m.Boolean ↔ ∀ e : Expression, m.eval e.simplify = m.eval e :=
  ⟨fun laws e => laws.eval_folds (Expression.folds_simplify e), Boolean.of_eval_simplify⟩

/-- Expressions as values of JSON, with just the constants folded. -/
def folding : Meaning Json where
  literal value := value
  literalObject := .object
  malformed := .array
  operator operator args :=
    match args with
    | [.bool b] =>
      match Expression.constant? operator b with
      | some value => .bool value
      | none => .array [.string operator, .bool b]
    | args => .array (.string operator :: args)

/-- A meaning with the laws under which other operators, and other numbers of arguments, are told
    apart. -/
theorem eval_simplify_of_folding :
    folding.Boolean ∧
      folding.eval (Expression.call "any" [.call "!" [.call "all" [.literal (.bool true)]],
        .call "all" [.literal (.bool false)]]).simplify =
        .array [.string "any", .bool false, .array [.string "all", .bool false]] := by
  have laws : folding.Boolean := ⟨rfl, rfl, fun b => by cases b <;> rfl⟩
  refine ⟨laws, ?_⟩
  rw [(eval_simplify_iff folding).1 laws]
  rfl

end Meaning

end CartoStyle
