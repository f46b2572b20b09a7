import CartoStyle.Optimize.Pass
import CartoStyle.Proofs.Style.Entries

set_option autoImplicit false

/-! # Folding the expressions of a layer

Properties that are not written as arrays have nothing to fold, so folding a layer is folding every
expression it holds (`Layer.folded_eq`). What draws, and from which source, stays the same. -/

namespace CartoStyle

namespace Expression

theorem isNull_toJson_simplify (e : Expression) :
    e.simplify.toJson.isNull = e.toJson.isNull := by
  cases e with
  | call operator args =>
    rw [simplify_call]
    rcases simplifyNode_cases (.call operator (args.map simplify)) with ⟨_, _, _, -, -, h⟩ | h
    · rw [h]
      rfl
    · rw [h]
      rfl
  | _ => rfl

end Expression

namespace Layer

theorem foldAt_eq_simplify (place : Place) (e : Expression) : foldAt place e = e.simplify := by
  unfold foldAt
  split
  · rfl
  · next h =>
    have harray : e.isArray = false := by
      cases hb : e.isArray with
      | true => simp [hb] at h
      | false => rfl
    exact (Expression.simplify_of_not_array harray).symm

/-- Folding a layer folds every expression it holds. -/
theorem folded_eq (l : Layer) : l.folded = l.mapExpressions fun _ e => e.simplify := by
  rw [folded, funext fun place => funext (foldAt_eq_simplify place)]

/-- Folding leaves a layer as it is when it leaves every expression as it is. -/
theorem folded_eq_self {l : Layer} (h : ∀ entry ∈ l.expressions, entry.2.simplify = entry.2) :
    l.folded = l := by
  obtain ⟨hfilter, hlayout, hpaint⟩ := (forall_expressions_iff (p := fun e => e.simplify = e)).1 h
  have hblock : ∀ b : Option Block, (∀ entry ∈ b.getD [], entry.2.simplify = entry.2) →
      b.map (·.map fun entry => (entry.1, entry.2.simplify)) = b := by
    intro b hb
    cases b with
    | none => rfl
    | some properties =>
      refine congrArg some ((List.map_congr_left fun entry hm => ?_).trans (List.map_id properties))
      exact Prod.ext rfl (hb entry hm)
  have hexpression : l.filter.map Expression.simplify = l.filter := by
    cases hl : l.filter with
    | none => rfl
    | some e => exact congrArg some (hfilter e hl)
  rw [folded_eq, mapExpressions, hexpression, hblock l.layout hlayout, hblock l.paint hpaint]

theorem faithful_simplify : Faithful fun _ e => e.simplify where
  written _ value := (Expression.written_ofJson value).simplify
  filter_not_null value h := by
    rw [Expression.isNull_toJson_simplify, Expression.toJson_ofJson]
    exact h

/-- What folding makes of the members of a layer. -/
def foldMember (key : String) (value : Json) : Json := rewriteMember (fun _ e => e.simplify) key value

theorem toJson_folded {members : List (String × Json)} (nodup : (Members.keys members).Nodup) :
    (Layer.read members).folded.toJson = .object (Members.mapValues foldMember members) := by
  rw [folded_eq]
  exact toJson_mapExpressions nodup

theorem read_foldMember (members : List (String × Json)) :
    Layer.read (Members.mapValues foldMember members) = (Layer.read members).folded := by
  rw [folded_eq]
  exact faithful_simplify.read_mapValues members

theorem Decoded.folded {l : Layer} (h : l.Decoded) : l.folded.Decoded := by
  obtain ⟨members, nodup, rfl⟩ := h
  refine ⟨Members.mapValues foldMember members, ?_, (read_foldMember members).symm⟩
  rw [Members.keys_mapValues]
  exact nodup

/-- **Folding a layer is complete in one go.** -/
@[simp]
theorem folded_folded (l : Layer) : l.folded.folded = l.folded := by
  simp [folded_eq, mapExpressions, Function.comp_def]

/-! ## What folding leaves alone -/

@[simp]
theorem source_folded (l : Layer) : l.folded.source = l.source := rfl

@[simp]
theorem name_folded (l : Layer) : l.folded.name = l.name := rfl

@[simp]
theorem isBackground_folded (l : Layer) : l.folded.isBackground = l.isBackground := rfl

theorem hasEntries_map (block : Option Block) (rule : String × Expression → String × Expression) :
    hasEntries (block.map (·.map rule)) = hasEntries block := by
  cases block with
  | none => rfl
  | some properties => cases properties <;> rfl

@[simp]
theorem hasProperties_folded (l : Layer) : l.folded.hasProperties = l.hasProperties := by
  rw [folded_eq, hasProperties, hasProperties, mapExpressions, hasEntries_map, hasEntries_map]

/-- Whether a layer draws something: the background, or a layer with properties. -/
def Draws (l : Layer) : Bool := l.isBackground || l.hasProperties

@[simp]
theorem draws_folded (l : Layer) : l.folded.Draws = l.Draws := by
  simp [Draws]

/-! ## Counting folds -/

theorem expressions_mapExpressions (rule : Place → Expression → Expression) (l : Layer) :
    (l.mapExpressions rule).expressions =
      l.expressions.map fun (place, e) => (place, rule place e) := by
  have hblock : ∀ (b : Option Block) (f : String × Expression → String × Expression),
      (b.map (·.map f)).getD [] = (b.getD []).map f := by
    intro b f
    cases b <;> rfl
  have hfilter : (Option.map (fun e => (Place.filter, e)) (l.filter.map (rule .filter))).toList =
      (l.filter.map (Place.filter, ·)).toList.map fun (place, e) => (place, rule place e) := by
    cases l.filter <;> rfl
  simp only [expressions, mapExpressions, List.map_append, hfilter, hblock, List.map_map]
  rfl

/-- A folded layer has nothing left to fold. -/
theorem foldCount_folded (l : Layer) : l.folded.foldCount = 0 := by
  -- Each expression of the folded layer is a folded one, which folding leaves as it is.
  rw [foldCount, folded_eq, expressions_mapExpressions, List.countP_eq_zero]
  intro entry hm
  obtain ⟨⟨place, e⟩, -, rfl⟩ := List.mem_map.1 hm
  simp [foldAt_eq_simplify]

end Layer

end CartoStyle
