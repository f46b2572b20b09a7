import CartoStyle.Expression.Simplify
import CartoStyle.Proofs.Expression.Tree

set_option autoImplicit false

/-! # Folding an expression

What folding does to each kind of node, and that it is complete in one go: a folded expression is
not changed by folding it again (`simplify_simplify`). `Json.folded` is folding seen from the
document, as a rewriting of values. -/

namespace CartoStyle

namespace Expression

/-! ## One node -/

/-- A node is folded only when it is a call of a constant. -/
theorem simplifyNode_cases (e : Expression) :
    (∃ operator b value, e = .call operator [.literal (.bool b)] ∧
      constant? operator b = some value ∧ simplifyNode e = .literal (.bool value)) ∨
    simplifyNode e = e := by
  unfold simplifyNode
  split
  · next operator b =>
    cases hc : constant? operator b with
    | some value => exact Or.inl ⟨operator, b, value, rfl, hc, rfl⟩
    | none => exact Or.inr rfl
  · exact Or.inr rfl

/-- The operators of constants. -/
theorem mem_of_constant? {operator : String} {b value : Bool}
    (h : constant? operator b = some value) : operator ∈ ["all", "any", "!"] := by
  unfold constant? at h
  split at h
  · simp
  · simp
  · simp
  · simp at h

/-! ## Whole expressions -/

theorem simplify_call (operator : String) (args : List Expression) :
    (call operator args).simplify = simplifyNode (.call operator (args.map simplify)) := by
  rw [simplify, rewriteUp, rewriteUpArgs_eq_map]
  rfl

@[simp]
theorem simplify_literal (value : Json) : (literal value).simplify = .literal value := rfl

@[simp]
theorem simplify_literalObject (members : List (String × Json)) :
    (literalObject members).simplify = .literalObject members := rfl

@[simp]
theorem simplify_malformed (items : List Json) :
    (malformed items).simplify = .malformed items := rfl

/-- Only calls are folded. -/
theorem simplify_of_not_array {e : Expression} (h : e.isArray = false) : e.simplify = e := by
  cases e with
  | call operator args => simp [isArray] at h
  | _ => rfl

/-- Folding never makes an array of what is none. -/
theorem isArray_of_simplify {e : Expression} (h : e.simplify.isArray) : e.isArray := by
  by_contra hnot
  rw [simplify_of_not_array (by simpa using hnot)] at h
  exact hnot h

/-- **Folding is complete in one go.** -/
@[simp]
theorem simplify_simplify (e : Expression) : e.simplify.simplify = e.simplify := by
  induction e using tree_induction with
  | literal value => rfl
  | literalObject members => rfl
  | malformed items => rfl
  | call operator args ih =>
    rw [simplify_call]
    rcases simplifyNode_cases (.call operator (args.map simplify)) with
      ⟨_, _, value, -, -, h⟩ | h
    · rw [h, simplify_literal]
    · have hargs : (args.map simplify).map simplify = args.map simplify := by
        rw [List.map_map]
        exact List.map_congr_left ih
      rw [h, simplify_call, hargs, h]

/-! ## Folding and JSON -/

/-- Whether an expression is the one that its JSON value writes. -/
def Written (e : Expression) : Prop := ofJson e.toJson = e

theorem written_ofJson (value : Json) : (ofJson value).Written := by
  rw [Written, toJson_ofJson]

theorem written_call_iff (operator : String) (args : List Expression) :
    (call operator args).Written ↔ ∀ arg ∈ args, arg.Written := by
  rw [Written, toJson_call, ofJson_call, List.map_map, call.injEq]
  constructor
  · rintro ⟨-, h⟩ arg hm
    exact List.map_inj_left.1 (h.trans (List.map_id args).symm) arg hm
  · intro h
    exact ⟨rfl, (List.map_congr_left h).trans (List.map_id args)⟩

/-- Folding a written expression gives a written one. -/
theorem Written.simplify {e : Expression} (h : e.Written) : e.simplify.Written := by
  induction e using tree_induction with
  | literal value => exact h
  | literalObject members => exact h
  | malformed items => exact h
  | call operator args ih =>
    rw [simplify_call]
    rcases simplifyNode_cases (.call operator (args.map Expression.simplify)) with
      ⟨_, _, value, -, -, hfold⟩ | hfold
    · rw [hfold]
      rfl
    · rw [hfold, written_call_iff]
      intro arg hm
      obtain ⟨before, hbefore, rfl⟩ := List.mem_map.1 hm
      exact ih before hbefore ((written_call_iff operator args).1 h before hbefore)

end Expression

namespace Json

/-- The value of a folded expression. -/
def folded (value : Json) : Json := (Expression.ofJson value).simplify.toJson

end Json

end CartoStyle
