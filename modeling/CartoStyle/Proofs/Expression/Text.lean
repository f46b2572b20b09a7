import CartoStyle.Proofs.Expression.Simplify
import CartoStyle.Proofs.Json.Size

set_option autoImplicit false

/-! # The text of an expression

An expression is written as its JSON value is (`Expression.text_eq`). Folding changes nothing or makes
the text shorter (`Expression.simplify_shortens`), so that whether an expression was folded can be told
from its text (`Expression.simplify_eq_self_iff_text`). -/

namespace CartoStyle

-- The empty sum is the numeral, also where monoids have a zero too.
attribute [local instance (high)] Zero.ofOfNat0

namespace Expression

/-! ## Characters -/

mutual

theorem toList_renderOnto (written : String) (e : Expression) :
    (e.renderOnto written).toList = written.toList ++ e.toJson.chars := by
  match e with
  | .literal value => exact Json.toList_renderOnto 0 written value
  | .literalObject members => exact Json.toList_renderOnto 0 written _
  | .malformed items => exact Json.toList_renderOnto 0 written _
  | .call operator args =>
    rw [renderOnto, toList_renderArgs, Json.toList_quoteOnto]
    simp [toJson, Json.chars, Json.itemParts, Json.sequence]

theorem toList_renderArgs (written : String) (args : List Expression) :
    (renderArgs written args).toList =
      written.toList ++ Json.continued ']' (Json.itemParts (toItems args)) := by
  match args with
  | [] => simp [renderArgs, toItems, Json.itemParts, Json.continued]
  | arg :: rest =>
    rw [renderArgs, toList_renderArgs, toList_renderOnto]
    simp [toItems, Json.itemParts, Json.continued]

end

/-- **An expression is written as its JSON value is.** -/
theorem text_eq (e : Expression) : e.text = e.toJson.compact := by
  rw [← String.toList_inj, Json.toList_compact, text, toList_renderOnto, String.toList_empty,
    List.nil_append]

/-! ## Folding -/

/-- A constant is shorter than the call that stands for it. -/
theorem bytes_constant_lt (operator : String) (b value : Bool) :
    (Json.bool value).bytes < (Json.array [.string operator, .bool b]).bytes := by
  have hvalue : ∀ b : Bool, 4 ≤ (Json.bool b).bytes ∧ (Json.bool b).bytes ≤ 5 := by decide
  have hb := hvalue b
  have hshort := hvalue value
  rw [Json.bytes_array]
  simp only [List.map_cons, List.map_nil, List.sum_cons, List.sum_nil, Json.itemWeight]
  omega

/-- The bytes of a call: its operator and arguments, and the brackets and commas. -/
theorem bytes_call (operator : String) (args : List Expression) :
    (call operator args).toJson.bytes = 1 + max 1 ((Json.string operator).itemWeight +
      (args.map fun arg => arg.toJson.itemWeight).sum) := by
  rw [toJson_call, Json.bytes_array, List.map_cons, List.sum_cons, List.map_map]
  rfl

/-- **Folding changes nothing or makes the text shorter.** -/
theorem simplify_shortens (e : Expression) :
    e.simplify = e ∨ e.simplify.toJson.bytes < e.toJson.bytes := by
  induction e using tree_induction with
  | literal value => exact Or.inl rfl
  | literalObject members => exact Or.inl rfl
  | malformed items => exact Or.inl rfl
  | call operator args ih =>
    have hargs : args.map simplify = args ∨
        (call operator (args.map simplify)).toJson.bytes < (call operator args).toJson.bytes := by
      have hfolded : List.Forall₂
          (fun a b => b = a ∨ b.toJson.itemWeight < a.toJson.itemWeight) args (args.map simplify) := by
        rw [List.forall₂_map_right_iff, List.forall₂_same]
        exact fun arg hm => (ih arg hm).imp_right Nat.succ_lt_succ
      have hweight : ∀ e : Expression, 1 < e.toJson.itemWeight := fun e =>
        Nat.succ_lt_succ e.toJson.bytes_pos
      refine (eq_or_sum_lt (List.Sublist.refl args) hweight hfolded).imp_right fun hlt => ?_
      rw [bytes_call, bytes_call]
      omega
    rw [simplify_call]
    rcases simplifyNode_cases (.call operator (args.map simplify)) with
      ⟨_, b, value, hcall, -, hfold⟩ | hfold
    · -- The call is no longer than before, and longer than the constant that takes its place.
      right
      have hconstant := bytes_constant_lt operator b value
      have hle : (call operator (args.map simplify)).toJson.bytes ≤
          (call operator args).toJson.bytes := by
        rcases hargs with h | h
        · rw [h]
        · exact Nat.le_of_lt h
      obtain ⟨rfl, hb⟩ := Expression.call.inj hcall
      rw [hfold]
      rw [hb] at hle
      exact Nat.lt_of_lt_of_le hconstant hle
    · rw [hfold]
      exact hargs.imp_left fun h => by rw [h]

/-- Whether folding changes an expression can be told from its text. -/
theorem simplify_eq_self_iff_text {e : Expression} : e.simplify = e ↔ e.simplify.text = e.text := by
  refine ⟨fun h => by rw [h], fun h => ?_⟩
  rcases e.simplify_shortens with heq | hlt
  · exact heq
  · rw [text_eq, text_eq] at h
    rw [← Json.utf8ByteSize_compact, ← Json.utf8ByteSize_compact, h] at hlt
    exact absurd hlt (Nat.lt_irrefl _)

end Expression

namespace Json

/-- Folding a value shortens it, if it changes anything. -/
theorem shortened_folded (value : Json) : Shortened value value.folded := by
  rcases (Expression.ofJson value).simplify_shortens with heq | hlt
  · left
    rw [folded, heq, Expression.toJson_ofJson]
  · right
    rwa [Expression.toJson_ofJson] at hlt

end Json

end CartoStyle
