import CartoStyle.Proofs.Expression.Simplify
import Mathlib.Logic.Relation

set_option autoImplicit false

/-! # Folding as rewriting

`Identity` lists the four calls that are constants, and `Fold` replaces one of them anywhere among the
arguments of calls. Each fold takes one call away (`Fold.calls_eq`), and none changes what the
expression simplifies to (`Fold.simplify_eq`). So folding ends in any order, and always in
`Expression.simplify`, which has nothing left to fold (`simplify_unique_normal_form`). What is no call
stays where it is, the argument of a folded call apart (`node?_simplify`). -/

namespace CartoStyle

namespace Expression

/-! ## Single folds -/

/-- The calls that are constants, with their value. -/
inductive Identity : Expression → Bool → Prop where
  | allTrue : Identity (.call "all" [.literal (.bool true)]) true
  | anyFalse : Identity (.call "any" [.literal (.bool false)]) false
  | notTrue : Identity (.call "!" [.literal (.bool true)]) false
  | notFalse : Identity (.call "!" [.literal (.bool false)]) true

/-- One identity is applied to a call, or somewhere in one of its arguments. -/
inductive Fold : Expression → Expression → Prop where
  | here {e : Expression} {value : Bool} : Identity e value → Fold e (.literal (.bool value))
  | argument {operator : String} {before after : List Expression} {arg arg' : Expression} :
      Fold arg arg' →
      Fold (.call operator (before ++ arg :: after)) (.call operator (before ++ arg' :: after))

/-- Whether nothing is left to fold. -/
def Normal (e : Expression) : Prop := ∀ e', ¬Fold e e'

theorem identity_iff {e : Expression} {value : Bool} :
    Identity e value ↔ ∃ operator b, e = .call operator [.literal (.bool b)] ∧
      constant? operator b = some value := by
  constructor
  · rintro (_ | _ | _ | _)
    · exact ⟨"all", true, rfl, rfl⟩
    · exact ⟨"any", false, rfl, rfl⟩
    · exact ⟨"!", true, rfl, rfl⟩
    · exact ⟨"!", false, rfl, rfl⟩
  · rintro ⟨operator, b, rfl, h⟩
    unfold constant? at h
    split at h
    · obtain rfl := Option.some.inj h
      exact .allTrue
    · obtain rfl := Option.some.inj h
      exact .anyFalse
    · obtain rfl := Option.some.inj h
      cases b
      · exact .notFalse
      · exact .notTrue
    · simp at h

/-- Simplifying a node applies an identity, if there is one for it. -/
theorem simplifyNode_of_identity {e : Expression} {value : Bool} (h : Identity e value) :
    simplifyNode e = .literal (.bool value) := by
  cases h <;> rfl

theorem identity_or_simplifyNode_eq (e : Expression) :
    (∃ value, Identity e value ∧ simplifyNode e = .literal (.bool value)) ∨ simplifyNode e = e := by
  rcases simplifyNode_cases e with ⟨operator, b, value, he, hc, h⟩ | h
  · exact Or.inl ⟨value, identity_iff.2 ⟨operator, b, he, hc⟩, h⟩
  · exact Or.inr h

/-- Only calls are folded. -/
theorem normal_of_operator? {e : Expression} (h : e.operator? = none) : Normal e := by
  rintro _ (⟨⟨⟩⟩ | _) <;> simp [operator?] at h

/-! ## Folding ends -/

mutual

/-- The number of calls that can be reached through the arguments of calls. -/
def calls : Expression → Nat
  | .call _ args => callsArgs args + 1
  | _ => 0

/-- The number of calls in a list of arguments. -/
def callsArgs : List Expression → Nat
  | [] => 0
  | arg :: rest => arg.calls + callsArgs rest

end

theorem callsArgs_append (before after : List Expression) :
    callsArgs (before ++ after) = callsArgs before + callsArgs after := by
  induction before with
  | nil => simp [callsArgs]
  | cons arg rest ih => rw [List.cons_append, callsArgs, callsArgs, ih, Nat.add_assoc]

/-- Each fold takes one call away. -/
theorem Fold.calls_eq {e e' : Expression} (h : Fold e e') : e.calls = e'.calls + 1 := by
  induction h with
  | here h => cases h <;> rfl
  | argument _ ih =>
    simp only [calls, callsArgs_append, callsArgs, ih]
    omega

/-- A run of `n` folds takes `n` calls away. -/
theorem calls_of_run {run : Nat → Expression} {n : Nat} (h : ∀ i < n, Fold (run i) (run (i + 1))) :
    (run 0).calls = (run n).calls + n := by
  induction n with
  | zero => rfl
  | succ n ih =>
    have hfirst := ih fun i hi => h i (Nat.lt_succ_of_lt hi)
    have hlast := (h n (Nat.lt_succ_self n)).calls_eq
    omega

/-! ## Folding ends in the simplified expression -/

/-- No fold changes what the expression simplifies to. -/
theorem Fold.simplify_eq {e e' : Expression} (h : Fold e e') : e'.simplify = e.simplify := by
  induction h with
  | here h => cases h <;> rfl
  | argument _ ih => rw [simplify_call, simplify_call, List.map_append, List.map_append,
      List.map_cons, List.map_cons, ih]

theorem simplify_eq_of_folds {e e' : Expression} (h : Relation.ReflTransGen Fold e e') :
    e'.simplify = e.simplify := by
  induction h with
  | refl => rfl
  | tail _ hfold ih => exact hfold.simplify_eq.trans ih

/-- A call with arguments that have nothing left to fold is folded at most as a whole. -/
theorem normal_call {operator : String} {args : List Expression} (hargs : ∀ arg ∈ args, Normal arg)
    (h : ∀ value, ¬Identity (.call operator args) value) : Normal (.call operator args) := by
  intro e' hfold
  generalize he : call operator args = e at hfold
  cases hfold with
  | here hidentity => exact h _ (he ▸ hidentity)
  | @argument _ before after arg arg' harg =>
    obtain ⟨-, rfl⟩ := call.inj he
    exact hargs arg (by simp) arg' harg

theorem Normal.argument {operator : String} {args : List Expression}
    (h : Normal (.call operator args)) {arg : Expression} (hm : arg ∈ args) : Normal arg := by
  obtain ⟨before, after, rfl⟩ := List.append_of_mem hm
  exact fun _ harg => h _ (.argument harg)

/-- **Nothing is left to fold in a simplified expression.** -/
theorem normal_simplify (e : Expression) : Normal e.simplify := by
  induction e using tree_induction with
  | literal value => exact normal_of_operator? rfl
  | literalObject members => exact normal_of_operator? rfl
  | malformed items => exact normal_of_operator? rfl
  | call operator args ih =>
    rw [simplify_call]
    rcases identity_or_simplifyNode_eq (.call operator (args.map simplify)) with ⟨_, -, h⟩ | h
    · rw [h]
      exact normal_of_operator? rfl
    · rw [h]
      refine normal_call ?_ fun value hidentity => ?_
      · intro arg hm
        obtain ⟨arg₀, hm₀, rfl⟩ := List.mem_map.1 hm
        exact ih arg₀ hm₀
      · -- Had an identity applied to the call, it would have been folded.
        rw [simplifyNode_of_identity hidentity] at h
        simp at h

/-- An expression with nothing left to fold is simplified. -/
theorem Normal.simplify_eq {e : Expression} (h : Normal e) : e.simplify = e := by
  induction e using tree_induction with
  | literal value => rfl
  | literalObject members => rfl
  | malformed items => rfl
  | call operator args ih =>
    have hargs : args.map Expression.simplify = args :=
      (List.map_congr_left fun arg hm => ih arg hm (h.argument hm)).trans (List.map_id args)
    rw [simplify_call, hargs]
    rcases identity_or_simplifyNode_eq (.call operator args) with ⟨_, hidentity, -⟩ | heq
    · exact absurd (.here hidentity) (h _)
    · exact heq

theorem folds_argument {operator : String} {before after : List Expression} {arg arg' : Expression}
    (h : Relation.ReflTransGen Fold arg arg') :
    Relation.ReflTransGen Fold (.call operator (before ++ arg :: after))
      (.call operator (before ++ arg' :: after)) := by
  induction h with
  | refl => exact .refl
  | tail _ hfold ih => exact ih.tail (.argument hfold)

/-- The arguments of a call are folded one after the other. -/
theorem folds_arguments (operator : String) {args : List Expression} (done : List Expression)
    (h : ∀ arg ∈ args, Relation.ReflTransGen Fold arg arg.simplify) :
    Relation.ReflTransGen Fold (.call operator (done ++ args))
      (.call operator (done ++ args.map simplify)) := by
  induction args generalizing done with
  | nil => exact .refl
  | cons arg rest ih =>
    have hrest := ih (done ++ [arg.simplify]) fun a hm => h a (List.mem_cons_of_mem _ hm)
    rw [List.append_assoc, List.append_assoc] at hrest
    exact (folds_argument (h arg (List.mem_cons_self ..))).trans hrest

/-- **Folds lead to the simplified expression.** -/
theorem folds_simplify (e : Expression) : Relation.ReflTransGen Fold e e.simplify := by
  induction e using tree_induction with
  | literal value => exact .refl
  | literalObject members => exact .refl
  | malformed items => exact .refl
  | call operator args ih =>
    have hargs := folds_arguments operator [] ih
    rw [simplify_call]
    rcases identity_or_simplifyNode_eq (.call operator (args.map simplify)) with
      ⟨_, hidentity, h⟩ | h
    · rw [h]
      exact hargs.tail (.here hidentity)
    · rw [h]
      exact hargs

/-! ## What is no call -/

/-- The node that a path of argument positions leads to. -/
def node? : Expression → List Nat → Option Expression
  | e, [] => some e
  | .call _ args, position :: rest => args[position]?.bind (·.node? rest)
  | _, _ :: _ => none

theorem node?_append (e : Expression) (path more : List Nat) :
    e.node? (path ++ more) = (e.node? path).bind (·.node? more) := by
  induction path generalizing e with
  | nil => simp [node?]
  | cons position rest ih =>
    cases e with
    | call operator args =>
      rw [List.cons_append, node?, node?, Option.bind_assoc]
      exact Option.bind_congr fun arg _ => ih arg
    | _ => simp [node?]

/-- Whether a path leads to the argument of a constant. -/
def IsConstantArgument (e : Expression) (path : List Nat) : Prop :=
  ∃ parent constant value, path = parent ++ [0] ∧ e.node? parent = some constant ∧
    Identity constant value

/-- Lists that differ in one element agree everywhere else. -/
theorem getElem?_replaced {α : Type} (before after : List α) (a a' : α) (i : Nat) :
    i = before.length ∨ (before ++ a :: after)[i]? = (before ++ a' :: after)[i]? := by
  rcases Nat.lt_trichotomy i before.length with h | h | h
  · exact Or.inr (by rw [List.getElem?_append_left h, List.getElem?_append_left h])
  · exact Or.inl h
  · obtain ⟨k, rfl⟩ := Nat.exists_eq_add_of_lt h
    exact Or.inr (by simp [List.getElem?_append_right, Nat.add_assoc])

/-- One fold leaves what is no call where it is, unless it folds the call around it. -/
theorem Fold.node?_of_leaf {e e' leaf : Expression} {path : List Nat} (h : Fold e e')
    (hleaf : leaf.operator? = none) (hnode : e.node? path = some leaf) :
    e'.node? path = some leaf ∨ e.IsConstantArgument path := by
  induction h generalizing path with
  | @here e value hidentity =>
    obtain ⟨operator, b, rfl, -⟩ := identity_iff.1 hidentity
    match path with
    | [] =>
      obtain rfl := Option.some.inj hnode
      simp [operator?] at hleaf
    | [0] => exact Or.inr ⟨[], _, value, rfl, rfl, hidentity⟩
    | 0 :: _ :: _ => simp [node?] at hnode
    | (_ + 1) :: _ => simp [node?] at hnode
  | @argument operator before after arg arg' _ ih =>
    cases path with
    | nil =>
      obtain rfl := Option.some.inj hnode
      simp [operator?] at hleaf
    | cons position rest =>
      rcases getElem?_replaced before after arg arg' position with rfl | hsame
      · have harg : arg.node? rest = some leaf := by simpa [node?] using hnode
        rcases ih harg with hstays | ⟨parent, constant, value, rfl, hparent, hidentity⟩
        · exact Or.inl (by simpa [node?] using hstays)
        · exact Or.inr ⟨before.length :: parent, constant, value, rfl, by simpa [node?] using hparent,
            hidentity⟩
      · exact Or.inl (by rw [node?, ← hsame]; exact hnode)

/-- A call that is there after a fold was a call of the same operator before, with as many
    arguments. -/
theorem Fold.node?_of_call {e e' : Expression} {path : List Nat} (h : Fold e e') {operator : String}
    {args' : List Expression} (hnode : e'.node? path = some (.call operator args')) :
    ∃ args, e.node? path = some (.call operator args) ∧ args.length = args'.length := by
  induction h generalizing path with
  | here => cases path <;> simp [node?] at hnode
  | @argument outer before after arg arg' _ ih =>
    cases path with
    | nil =>
      obtain ⟨rfl, rfl⟩ := call.inj (Option.some.inj hnode)
      exact ⟨_, rfl, by simp⟩
    | cons position rest =>
      rcases getElem?_replaced before after arg arg' position with rfl | hsame
      · have harg' : arg'.node? rest = some (.call operator args') := by
          simpa [node?] using hnode
        obtain ⟨args, hargs, hlength⟩ := ih harg'
        exact ⟨args, by simpa [node?] using hargs, hlength⟩
      · exact ⟨args', by rw [node?, hsame]; exact hnode, rfl⟩

/-- What is the argument of a constant after a fold was that before. -/
theorem Fold.isConstantArgument {e e' leaf : Expression} {path : List Nat} (h : Fold e e')
    (hnode : e.node? path = some leaf) (hnode' : e'.node? path = some leaf)
    (hconstant : e'.IsConstantArgument path) : e.IsConstantArgument path := by
  obtain ⟨parent, _, value, rfl, hparent', hidentity⟩ := hconstant
  obtain ⟨operator, b, rfl, -⟩ := identity_iff.1 hidentity
  obtain ⟨args, hparent, hlength⟩ := h.node?_of_call hparent'
  obtain ⟨arg, rfl⟩ := List.length_eq_one_iff.1 hlength
  rw [node?_append, hparent] at hnode
  rw [node?_append, hparent'] at hnode'
  obtain rfl : arg = .literal (.bool b) := by
    simpa [node?] using hnode.trans hnode'.symm
  exact ⟨parent, _, value, rfl, hparent, hidentity⟩

/-- **What is no call stays where it is,** unless it is the argument of a constant. -/
theorem node?_of_folds {e e' leaf : Expression} {path : List Nat}
    (h : Relation.ReflTransGen Fold e e') (hleaf : leaf.operator? = none)
    (hnode : e.node? path = some leaf) :
    e'.node? path = some leaf ∨ e.IsConstantArgument path := by
  induction h using Relation.ReflTransGen.head_induction_on with
  | refl => exact Or.inl hnode
  | head hfold _ ih =>
    rcases hfold.node?_of_leaf hleaf hnode with hnode' | hconstant
    · exact (ih hnode').imp_right (hfold.isConstantArgument hnode hnode')
    · exact Or.inr hconstant

/-! ## The normal form -/

/-- **Simplifying computes the one normal form.** Nothing is left to fold in a simplified expression;
    folds end, in any order and at any place, after no more of them than there are calls; wherever they
    have led so far, they can be continued to the simplified expression, and only there do they end.
    What is no call is never altered: it stays where it is, or goes with the constant it is the argument
    of. -/
theorem simplify_unique_normal_form (e : Expression) :
    Normal e.simplify ∧
    (∀ run : Nat → Expression, run 0 = e → ∃ n ≤ e.calls, ¬Fold (run n) (run (n + 1))) ∧
    (∀ e', Relation.ReflTransGen Fold e e' →
      Relation.ReflTransGen Fold e' e.simplify ∧ (Normal e' → e' = e.simplify) ∧
      ∀ path leaf, leaf.operator? = none → e.node? path = some leaf →
        e'.node? path = some leaf ∨ e.IsConstantArgument path) ∧
    e.simplify.simplify = e.simplify := by
  refine ⟨normal_simplify e, ?_, ?_, simplify_simplify e⟩
  · intro run hrun
    by_contra hends
    -- As long as folds go on, each of them takes a call away.
    have hfolds : ∀ n < e.calls + 1, Fold (run n) (run (n + 1)) := by
      intro n hn
      by_contra hfold
      exact hends ⟨n, Nat.le_of_lt_succ hn, hfold⟩
    have hcalls := calls_of_run hfolds
    rw [hrun] at hcalls
    omega
  · intro e' hfolds
    have hsimplify := simplify_eq_of_folds hfolds
    refine ⟨hsimplify ▸ folds_simplify e', fun hnormal => ?_, fun path leaf hleaf hnode => ?_⟩
    · rw [← hsimplify, hnormal.simplify_eq]
    · exact node?_of_folds hfolds hleaf hnode

end Expression

end CartoStyle
