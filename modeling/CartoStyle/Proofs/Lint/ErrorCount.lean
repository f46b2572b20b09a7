import CartoStyle.Lint.Rule
import CartoStyle.Proofs.Expression.Errors
import Mathlib.Algebra.GroupWithZero.Nat
import Mathlib.Algebra.Order.BigOperators.Group.List

set_option autoImplicit false

/-! # Counting the errors of a rule

How many errors each rule reports on a style. Rules that look at layers one by one report a sum over
the layers, which does not depend on where a layer stands; the rule on ids reports how often a name
comes again. -/

namespace CartoStyle

/-! ## Diagnostics -/

/-- How many errors there are among diagnostics. -/
def errorCount (found : List Diagnostic) : Nat := found.countP (·.severity == .error)

@[simp]
theorem errorCount_append (found more : List Diagnostic) :
    errorCount (found ++ more) = errorCount found + errorCount more := List.countP_append

theorem errorCount_eq_zero {found : List Diagnostic} (h : ∀ d ∈ found, d.severity ≠ .error) :
    errorCount found = 0 := by
  rw [errorCount, List.countP_eq_zero]
  intro d hd
  simpa using h d hd

theorem errorCount_eq_length {found : List Diagnostic} (h : ∀ d ∈ found, d.severity = .error) :
    errorCount found = found.length := by
  rw [errorCount, List.countP_eq_length]
  intro d hd
  simpa using h d hd

theorem errorCount_map {change : Diagnostic → Diagnostic}
    (h : ∀ d, (change d).severity = d.severity) (found : List Diagnostic) :
    errorCount (found.map change) = errorCount found := by
  simp [errorCount, List.countP_map, Function.comp_def, h]

namespace Rule

theorem errorCount_eachLayer {find : Nat → Layer → List Diagnostic} {cost : Layer → Nat}
    (h : ∀ position l, errorCount (find position l) = cost l) (style : Style) :
    errorCount (eachLayer style find) = (style.layerList.map cost).sum := by
  have hcost : (errorCount ∘ fun entry : Layer × Nat => find entry.2 entry.1) = cost ∘ Prod.fst :=
    funext fun entry => h entry.2 entry.1
  have hcount : errorCount (eachLayer style find) =
      (style.layerList.zipIdx.map (errorCount ∘ fun entry => find entry.2 entry.1)).sum :=
    List.countP_flatMap
  rw [hcount, hcost, ← List.map_map, List.zipIdx_map_fst]

/-! ## The document -/

theorem errorCount_checkRequiredFields (style : Style) :
    errorCount (checkRequiredFields style) =
      (if style.sources.isNone then 1 else 0) + (if style.layers.isNone then 1 else 0) := by
  rw [checkRequiredFields, errorCount_append]
  congr 1
  · split <;> rfl
  · cases style.layers with
    | none => rfl
    | some layers => cases layers <;> rfl

/-! ## Layers and their sources -/

/-- The errors of a layer about its reference to a source. -/
def referenceErrors (style : Style) (l : Layer) : Nat :=
  if l.isBackground then 0
  else
    match l.source with
    | none => 1
    | some name => if (style.source? name).isSome then 0 else 1

theorem errorCount_checkSourceReference (style : Style) :
    errorCount (checkSourceReference style) =
      (style.layerList.map (referenceErrors style)).sum := by
  refine errorCount_eachLayer (fun position l => ?_) style
  dsimp only
  unfold referenceErrors
  split
  · rfl
  · cases l.source with
    | none => rfl
    | some name =>
      dsimp only
      split
      · rfl
      · cases Members.keys style.sourceList <;> rfl

/-- The errors of a layer about the part of its source that it draws. -/
def partErrors (style : Style) (l : Layer) : Nat :=
  if l.isBackground then 0
  else
    match l.source with
    | none => 0
    | some name =>
      match style.source? name with
      | none => 0
      | some source =>
        if source.requiresSourceLayer && l.sourceLayer.isNone then 1
        else if source.forbidsSourceLayer && l.sourceLayer.isSome then 1
        else 0

theorem errorCount_checkSourceLayer (style : Style) :
    errorCount (checkSourceLayer style) = (style.layerList.map (partErrors style)).sum := by
  refine errorCount_eachLayer (fun position l => ?_) style
  unfold partErrors
  split
  · rfl
  · cases l.source with
    | none => rfl
    | some name =>
      dsimp only
      cases style.source? name with
      | none => rfl
      | some source =>
        dsimp only
        split
        · rfl
        · split <;> rfl

end Rule

/-! ## Expressions -/

theorem severity_of_mem_faults {limit : Nat} {visits : List Visit} {d : Diagnostic}
    (h : d ∈ faults limit visits) : d.severity = .error := by
  obtain ⟨visit, -, herror⟩ := List.mem_filterMap.1 h
  obtain ⟨fault, -, rfl⟩ := Option.map_eq_some_iff.1 herror
  cases fault <;> rfl

/-- What validation counts as errors are errors, and nothing else is. -/
theorem errorCount_validate (e : Expression) (context : Option Context) (limits : Limits) :
    errorCount (e.validate context limits).findings.toList =
      (faults limits.walkDepth (e.walk limits.walkDepth [])).length := by
  have herrors : errorCount (e.validate context limits).findings.errors =
      (faults limits.walkDepth (e.walk limits.walkDepth [])).length := by
    rw [Expression.errors_validate]
    exact errorCount_eq_length fun _ => severity_of_mem_faults
  have hwarnings : errorCount (e.validate context limits).findings.warnings = 0 := by
    refine errorCount_eq_zero fun d hd => ?_
    have hseverity : d.severity = .warning := by
      simp only [Expression.validate, List.mem_append, Option.mem_toList, Option.map_eq_some_iff]
        at hd
      rcases hd with (⟨visit, -, rfl⟩ | ⟨visit, -, rfl⟩) | hfilter
      · rfl
      · rfl
      · exact (Expression.shape_of_filterWarning? hfilter).1
    rw [hseverity]
    decide
  have hinfos : (e.validate context limits).findings.infos = [] := rfl
  rw [Findings.toList, errorCount_append, errorCount_append, herrors, hwarnings, hinfos]
  rfl

namespace Rule

/-- The errors of the expressions of a layer. -/
def expressionErrors (limits : Limits) (l : Layer) : Nat :=
  (l.expressions.map fun entry =>
    (faults limits.walkDepth (entry.2.walk limits.walkDepth [])).length).sum

theorem errorCount_checkLayerExpressions (limits : Limits) (style : Style) :
    errorCount (checkLayerExpressions limits style) =
      (style.layerList.map (expressionErrors limits)).sum := by
  refine errorCount_eachLayer (fun position l => ?_) style
  refine List.countP_flatMap.trans ?_
  rw [expressionErrors]
  congr 1
  apply List.map_congr_left
  rintro ⟨place, e⟩ -
  show errorCount (if isChecked place e then _ else []) = _
  split
  · refine (errorCount_map ?_ _).trans (errorCount_validate e place.context limits)
    exact fun _ => rfl
  · next h =>
    -- A property that is not an array is not looked at, and has no errors.
    have harray : e.isArray = false := by
      simp only [isChecked, Bool.or_eq_true, not_or, Bool.not_eq_true] at h
      exact h.2
    rw [Expression.faults_walk_of_not_array harray]
    rfl

/-- The errors of a layer about its zoom levels. -/
def zoomErrors (l : Layer) : Nat :=
  match l.minzoom, l.maxzoom with
  | some least, some greatest => if greatest.toFloat < least.toFloat then 1 else 0
  | _, _ => 0

theorem errorCount_checkZoomBound (position : Nat) (l : Layer) (field : String)
    (bound : Option Number) : errorCount (checkZoomBound position l field bound) = 0 := by
  unfold checkZoomBound
  cases bound with
  | none => rfl
  | some n =>
    dsimp only
    split <;> rfl

theorem errorCount_checkZoomRange (style : Style) :
    errorCount (checkZoomRange style) = (style.layerList.map zoomErrors).sum := by
  refine errorCount_eachLayer (fun position l => ?_) style
  rw [errorCount_append, errorCount_append, errorCount_checkZoomBound, errorCount_checkZoomBound,
    Nat.add_zero, Nat.zero_add]
  unfold zoomErrors
  cases l.minzoom with
  | none => rfl
  | some least =>
    cases l.maxzoom with
    | none => rfl
    | some greatest =>
      dsimp only
      split <;> rfl

/-! ## Rules that report no errors -/

theorem sum_map_zero (layers : List Layer) : (layers.map fun _ => 0).sum = 0 := by
  simp

theorem errorCount_checkEmptyLayer (style : Style) : errorCount (checkEmptyLayer style) = 0 := by
  rw [← sum_map_zero style.layerList]
  refine errorCount_eachLayer (fun position l => ?_) style
  split <;> rfl

theorem errorCount_checkLayerType (style : Style) : errorCount (checkLayerType style) = 0 := by
  rw [← sum_map_zero style.layerList]
  refine errorCount_eachLayer (fun position l => ?_) style
  split <;> rfl

/-! ## Repeated names -/

/-- How many names stand behind an equal one, or are among those seen before. -/
def repeats : List String → List String → Nat
  | _, [] => 0
  | seen, name :: rest => (if name ∈ seen then 1 else 0) + repeats (name :: seen) rest

/-- Of fewer names no more are repeated. -/
theorem repeats_le_of_sublist {names kept : List String} (h : kept.Sublist names)
    {seen seen' : List String} (hseen : seen ⊆ seen') :
    repeats seen kept ≤ repeats seen' names := by
  induction h generalizing seen seen' with
  | slnil => exact Nat.le_refl _
  | @cons kept names name _ ih =>
    have hrest := ih (List.subset_cons_of_subset name hseen)
    rw [repeats]
    omega
  | @cons_cons kept names name _ ih =>
    have hrest := ih (List.cons_subset_cons name hseen)
    have hfirst : (if name ∈ seen then 1 else 0) ≤ if name ∈ seen' then 1 else 0 := by
      by_cases hname : name ∈ seen
      · rw [if_pos hname, if_pos (hseen hname)]
      · rw [if_neg hname]
        exact Nat.zero_le _
    rw [repeats, repeats]
    omega

/-- The first layer of the name of the layer at hand stands before it, or is that layer. -/
theorem findIdx?_name_append (before rest : List Layer) (l : Layer) :
    (before ++ l :: rest).findIdx? (·.name == l.name) =
      some (before.findIdx (·.name == l.name)) := by
  rw [List.findIdx?_append]
  cases h : before.findIdx? (·.name == l.name) with
  | some first =>
    rw [(List.findIdx?_eq_some_iff_findIdx_eq.1 h).2]
    rfl
  | none =>
    rw [List.findIdx?_eq_none_iff_findIdx_eq.1 h]
    simp [List.findIdx?_cons]

/-- The errors of the layers that stand behind others, whose names were seen before. -/
theorem errorCount_duplicates_from {find : Nat → Layer → List Diagnostic} {layers : List Layer}
    (h : ∀ before l rest, layers = before ++ l :: rest →
      errorCount (find before.length l) = if l.name ∈ before.map Layer.name then 1 else 0)
    (before rest : List Layer) (hsplit : layers = before ++ rest) {seen : List String}
    (hseen : ∀ name, name ∈ seen ↔ name ∈ before.map Layer.name) :
    errorCount ((rest.zipIdx before.length).flatMap fun (l, position) => find position l) =
      repeats seen (rest.map Layer.name) := by
  -- The names seen are those of the layers before, which the next layer joins.
  induction rest generalizing before seen with
  | nil => rfl
  | cons l rest ih =>
    have hsplit' : layers = (before ++ [l]) ++ rest := by simp [hsplit]
    have hseen' : ∀ name, name ∈ l.name :: seen ↔ name ∈ (before ++ [l]).map Layer.name := by
      intro name
      simp [hseen, or_comm]
    have hrest := ih (before ++ [l]) hsplit' hseen'
    rw [List.length_append, List.length_singleton] at hrest
    rw [List.zipIdx_cons, List.flatMap_cons, errorCount_append, hrest, h before l rest hsplit,
      List.map_cons, repeats]
    simp only [hseen]

/-- A check that reports each layer whose name an earlier layer has. -/
theorem errorCount_eachLayer_of_duplicates {find : Nat → Layer → List Diagnostic} {style : Style}
    (h : ∀ before l rest, style.layerList = before ++ l :: rest →
      errorCount (find before.length l) = if l.name ∈ before.map Layer.name then 1 else 0) :
    errorCount (eachLayer style find) = repeats [] (style.layerList.map Layer.name) := by
  have hnone : ∀ name : String, name ∈ [] ↔ name ∈ ([] : List Layer).map Layer.name := by simp
  exact errorCount_duplicates_from h [] style.layerList rfl hnone

theorem errorCount_checkDuplicateLayerId (style : Style) :
    errorCount (checkDuplicateLayerId style) = repeats [] (style.layerList.map Layer.name) := by
  refine errorCount_eachLayer_of_duplicates fun before l rest hsplit => ?_
  have hseen : l.name ∈ before.map Layer.name ↔
      before.findIdx (·.name == l.name) < before.length := by
    simp [List.findIdx_lt_length]
  rw [hsplit, findIdx?_name_append]
  simp only [hseen]
  split <;> rfl

end Rule

end CartoStyle
