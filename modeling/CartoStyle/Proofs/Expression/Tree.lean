import CartoStyle.Expression.Basic
import CartoStyle.Proofs.Json.Tree
import Mathlib.Data.List.Basic

set_option autoImplicit false

/-! # Expressions as trees

The traversals of an expression in terms of `List.map` on the arguments, an induction principle that
gives the hypothesis for every argument, and the round trip from JSON: every value is the value of
the expression it writes (`toJson_ofJson`). -/

namespace CartoStyle

namespace Expression

/-! ## Induction -/

section Induction

set_option linter.unusedSectionVars false

variable {motive : Expression → Prop} (literal : ∀ value, motive (.literal value))
  (call : ∀ operator args, (∀ arg ∈ args, motive arg) → motive (.call operator args))
  (literalObject : ∀ members, motive (.literalObject members))
  (malformed : ∀ items, motive (.malformed items))

include literal call literalObject malformed

mutual

/-- Induction over an expression: a fact holds of a call when it holds of its arguments. -/
@[elab_as_elim]
theorem tree_induction (e : Expression) : motive e := by
  match e with
  | .literal value => exact literal value
  | .call operator args => exact call operator args (args_induction args)
  | .literalObject members => exact literalObject members
  | .malformed items => exact malformed items

theorem args_induction (args : List Expression) : ∀ arg ∈ args, motive arg := by
  match args with
  | [] => simp
  | first :: rest =>
    have hfirst := tree_induction first
    have hrest := args_induction rest
    intro arg hm
    rcases List.mem_cons.1 hm with rfl | hm'
    · exact hfirst
    · exact hrest arg hm'

end

end Induction

/-! ## Traversals as maps -/

theorem ofItems_eq_map (items : List Json) : ofItems items = items.map ofJson := by
  induction items with
  | nil => rfl
  | cons item rest ih => rw [ofItems, ih, List.map_cons]

theorem toItems_eq_map (args : List Expression) : toItems args = args.map toJson := by
  induction args with
  | nil => rfl
  | cons arg rest ih => rw [toItems, ih, List.map_cons]

theorem rewriteUpArgs_eq_map (rule : Expression → Expression) (args : List Expression) :
    rewriteUpArgs rule args = args.map (rewriteUp rule) := by
  induction args with
  | nil => rfl
  | cons arg rest ih => rw [rewriteUpArgs, ih, List.map_cons]

theorem toJson_call (operator : String) (args : List Expression) :
    (call operator args).toJson = .array (.string operator :: args.map toJson) := by
  rw [toJson, toItems_eq_map]

theorem ofJson_call (operator : String) (args : List Json) :
    ofJson (.array (.string operator :: args)) = call operator (args.map ofJson) := by
  rw [ofJson, ofItems_eq_map]

/-! ## Round trip -/

/-- An array is a call or kept as it is. -/
theorem ofJson_array_cases (items : List Json) :
    (∃ operator args, items = .string operator :: args) ∨
      ofJson (.array items) = .malformed items := by
  match items with
  | [] => exact Or.inr rfl
  | .string operator :: args => exact Or.inl ⟨operator, args, rfl⟩
  | .null :: _ => exact Or.inr rfl
  | .bool _ :: _ => exact Or.inr rfl
  | .number _ :: _ => exact Or.inr rfl
  | .array _ :: _ => exact Or.inr rfl
  | .object _ :: _ => exact Or.inr rfl

/-- **Every value is the value of the expression it writes.** -/
@[simp]
theorem toJson_ofJson (value : Json) : (ofJson value).toJson = value := by
  induction value using Json.tree_induction with
  | null => rfl
  | bool b => rfl
  | number n => rfl
  | string s => rfl
  | object members ih => rfl
  | array items ih =>
    rcases ofJson_array_cases items with ⟨operator, args, rfl⟩ | h
    · have hargs : args.map (toJson ∘ ofJson) = args.map id :=
        List.map_congr_left (fun arg hm => ih arg (List.mem_cons_of_mem _ hm))
      rw [ofJson_call, toJson_call, List.map_map, hargs, List.map_id]
    · rw [h, toJson]

end Expression

end CartoStyle
