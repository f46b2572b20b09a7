import CartoStyle.Expression.Basic

set_option autoImplicit false

/-! # Folding boolean constants

Four calls are constants: `["all", true]` and `["!", false]` are true, `["any", false]` and
`["!", true]` are false. `Expression.simplify` folds them wherever they stand among the arguments of
calls, from the leaves up, so that a fold can make another one possible. -/

namespace CartoStyle

namespace Expression

/-- The constant that a call with a boolean literal as its only argument stands for. -/
def constant? (operator : String) (argument : Bool) : Option Bool :=
  match operator, argument with
  | "all", true => some true
  | "any", false => some false
  | "!", b => some (!b)
  | _, _ => none

/-- Fold a node whose arguments are folded already. -/
def simplifyNode : Expression → Expression
  | .call operator [.literal (.bool b)] =>
    match constant? operator b with
    | some value => .literal (.bool value)
    | none => .call operator [.literal (.bool b)]
  | e => e

/-- Fold an expression. -/
def simplify (e : Expression) : Expression := e.rewriteUp simplifyNode

end Expression

end CartoStyle
