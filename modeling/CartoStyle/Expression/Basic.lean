import CartoStyle.Json.Format

set_option autoImplicit false

/-! # Expressions

The trees of the style expression language. Every JSON value is an expression: whether it is a
valid one is decided by `Expression.validate`, not here. An array headed by a string is a call; an
array without an operator name is kept as it is. -/

namespace CartoStyle

/-- A node of the expression language. -/
inductive Expression where
  /-- A string, number, boolean or null. -/
  | literal (value : Json)
  /-- An operator applied to its arguments. -/
  | call (operator : String) (args : List Expression)
  /-- An object; its values are not interpreted. -/
  | literalObject (members : List (String × Json))
  /-- An array that does not start with an operator name. -/
  | malformed (items : List Json)
  deriving Inhabited

namespace Expression

/-! ## Equality -/

mutual

/-- Whether two expressions are equal. -/
def same : Expression → Expression → Bool
  | .literal a, .literal b => a == b
  | .call o as, .call p bs => o == p && sameArgs as bs
  | .literalObject as, .literalObject bs => as == bs
  | .malformed as, .malformed bs => as == bs
  | _, _ => false

/-- Whether two lists of arguments are equal. -/
def sameArgs : List Expression → List Expression → Bool
  | [], [] => true
  | a :: as, b :: bs => a.same b && sameArgs as bs
  | _, _ => false

end

mutual

theorem same_iff (a b : Expression) : a.same b = true ↔ a = b := by
  match a with
  | .literal _ => cases b <;> simp [same]
  | .call _ as => cases b <;> simp [same, sameArgs_iff as]
  | .literalObject _ => cases b <;> simp [same]
  | .malformed _ => cases b <;> simp [same]

theorem sameArgs_iff (as bs : List Expression) : sameArgs as bs = true ↔ as = bs := by
  match as, bs with
  | [], [] => simp [sameArgs]
  | [], _ :: _ => simp [sameArgs]
  | _ :: _, [] => simp [sameArgs]
  | a :: as, b :: bs => simp [sameArgs, same_iff a b, sameArgs_iff as bs]

end

instance : DecidableEq Expression := fun a b => decidable_of_iff (a.same b = true) (same_iff a b)

/-! ## Expressions and JSON -/

mutual

/-- The expression that a JSON value writes. -/
def ofJson : Json → Expression
  | .array (.string operator :: args) => .call operator (ofItems args)
  | .array items => .malformed items
  | .object members => .literalObject members
  | value => .literal value

/-- The expressions of a list of items. -/
def ofItems : List Json → List Expression
  | [] => []
  | item :: rest => ofJson item :: ofItems rest

end

mutual

/-- The JSON value of an expression. -/
def toJson : Expression → Json
  | .literal value => value
  | .call operator args => .array (.string operator :: toItems args)
  | .literalObject members => .object members
  | .malformed items => .array items

/-- The JSON values of a list of expressions. -/
def toItems : List Expression → List Json
  | [] => []
  | arg :: rest => arg.toJson :: toItems rest

end

mutual

/-- Append the JSON text of an expression, without going through its JSON value. -/
def renderOnto (written : String) : Expression → String
  | .literal value => value.renderOnto .compact 0 written
  | .call operator args => renderArgs (Json.quoteOnto (written ++ "[") operator) args
  | .literalObject members => (Json.object members).renderOnto .compact 0 written
  | .malformed items => (Json.array items).renderOnto .compact 0 written

/-- Append the arguments of a call and its closing bracket. -/
def renderArgs (written : String) : List Expression → String
  | [] => written ++ "]"
  | arg :: rest => renderArgs (arg.renderOnto (written ++ ",")) rest

end

/-- The JSON text of an expression. -/
def text (e : Expression) : String := e.renderOnto ""

mutual

/-- An expression in a format, without going through its JSON value. -/
def encode {α : Type} (format : Json.Format α) : Expression → α
  | .literal value => value.encode format
  | .call operator args => format.array (format.string operator :: encodeArgs format args)
  | .literalObject members => format.object (Json.encodeMembers format members)
  | .malformed items => format.array (Json.encodeItems format items)

/-- The arguments of a call in a format. -/
def encodeArgs {α : Type} (format : Json.Format α) : List Expression → List α
  | [] => []
  | arg :: rest => arg.encode format :: encodeArgs format rest

end

/-! ## Views -/

/-- The name of a node's kind. -/
def typeName : Expression → String
  | .literal _ => "literal"
  | .literalObject _ => "literal-object"
  | .call _ _ => "expression"
  | .malformed _ => "expression"

/-- Whether a node is written as an array. -/
def isArray : Expression → Bool
  | .call _ _ => true
  | .malformed _ => true
  | _ => false

/-- The operator of a call. -/
def operator? : Expression → Option String
  | .call operator _ => some operator
  | _ => none

/-- The truth value of a boolean literal. -/
def asBool? : Expression → Option Bool
  | .literal (.bool b) => some b
  | _ => none

mutual

/-- How deep arrays nest below a node; literal arguments do not count. -/
def maxDepth : Expression → Nat
  | .call _ args => maxDepthArgs args
  | _ => 0

/-- The depth that arguments give to their call. -/
def maxDepthArgs : List Expression → Nat
  | [] => 0
  | arg :: rest => max (if arg.isArray then arg.maxDepth + 1 else 0) (maxDepthArgs rest)

end

/-! ## Rewriting from the leaves up -/

mutual

/-- Rewrite the arguments of a call, then the call. -/
def rewriteUp (rule : Expression → Expression) : Expression → Expression
  | .call operator args => rule (.call operator (rewriteUpArgs rule args))
  | .literal value => rule (.literal value)
  | .literalObject members => rule (.literalObject members)
  | .malformed items => rule (.malformed items)

/-- Rewrite each argument. -/
def rewriteUpArgs (rule : Expression → Expression) : List Expression → List Expression
  | [] => []
  | arg :: rest => arg.rewriteUp rule :: rewriteUpArgs rule rest

end

mutual

/-- The nodes in the order in which they are rewritten: arguments before their call. -/
def nodesUp : Expression → List Expression
  | .call operator args => nodesUpArgs args ++ [.call operator args]
  | .literal value => [.literal value]
  | .literalObject members => [.literalObject members]
  | .malformed items => [.malformed items]

/-- The nodes of arguments, in their order. -/
def nodesUpArgs : List Expression → List Expression
  | [] => []
  | arg :: rest => arg.nodesUp ++ nodesUpArgs rest

end

end Expression

end CartoStyle
