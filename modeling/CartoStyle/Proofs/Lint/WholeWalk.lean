import CartoStyle.Proofs.Document
import CartoStyle.Proofs.Expression.Truncated
import CartoStyle.Proofs.Lint.Codes
import CartoStyle.Proofs.Style.Entries

set_option autoImplicit false

/-! # Documents that are walked whole

An expression nests calls no deeper than its JSON value nests arrays (`Expression.maxDepth_le_depth`),
and the expressions of a style stand inside it (`Style.maxDepth_of_mem_expressions`). Texts nest less deep
than the walk goes when no other limit is set, so whatever is read from text is walked whole, and no
report on it says that the walk was cut short (`Document.text_walked_whole`). -/

namespace CartoStyle

/-! ## Messages that end in a number -/

/-- Whether a message ends in a number. -/
def EndsInNumber (message : String) : Prop := ∃ (lead : String) (n : Nat), message = lead ++ toString n

theorem EndsInNumber.introduce {message : String} (h : EndsInNumber message) (lead : String) :
    EndsInNumber (lead ++ message) := by
  obtain ⟨rest, n, rfl⟩ := h
  exact ⟨lead ++ rest, n, (String.append_assoc ..).symm⟩

/-- The last character of a text that ends in a number is a digit. -/
theorem EndsInNumber.isDigit {message : String} (h : EndsInNumber message) :
    ∃ c, message.toList.getLast? = some c ∧ c.isDigit := by
  obtain ⟨lead, n, rfl⟩ := h
  have hdigits : (toString n).toList = Nat.toDigits 10 n := by simp
  refine ⟨(Nat.toDigits 10 n).getLast Nat.toDigits_ne_nil, ?_,
    Json.isDigit_of_mem_toDigits (List.getLast_mem _)⟩
  rw [String.toList_append, hdigits, List.getLast?_append_of_ne_nil _ Nat.toDigits_ne_nil,
    List.getLast?_eq_some_getLast]

namespace Diagnostic

/-- Whether a diagnostic is the warning that a walk was cut short, whatever its limit was, also when
    a rule reports it for a layer or as an error. -/
def SaysCut (d : Diagnostic) : Prop :=
  d.code = .excessiveDepth ∧ ∃ lead limit, d.message = lead ++ Expression.cutMessage limit

/-- A diagnostic about depth that ends in a number says something else. -/
theorem not_saysCut {d : Diagnostic} (h : d.code = .excessiveDepth → EndsInNumber d.message) :
    ¬d.SaysCut := by
  rintro ⟨hcode, lead, limit, hmessage⟩
  obtain ⟨c, hlast, hdigit⟩ := (h hcode).isDigit
  have hcut : d.message.toList.getLast? = some 'd' := by
    rw [hmessage]
    delta Expression.cutMessage
    simp only [String.toList_append]
    rw [← List.append_assoc]
    exact List.getLast?_append_of_ne_nil _ (List.cons_ne_nil _ _)
  obtain rfl := Option.some.inj (hlast.symm.trans hcut)
  exact absurd hdigit (by decide)

end Diagnostic

namespace Expression

/-! ## Nesting of calls and of arrays -/

theorem depth_pos_of_isArray {value : Json} (h : (ofJson value).isArray) : 0 < value.depth := by
  cases value with
  | array items => exact Nat.succ_pos _
  | _ => simp [ofJson, isArray] at h

/-- **An expression nests calls no deeper than its value nests arrays:** the innermost one does not
    count. -/
theorem maxDepth_le_depth (value : Json) : (ofJson value).maxDepth ≤ value.depth - 1 := by
  induction value using Json.tree_induction with
  | null => exact Nat.zero_le _
  | bool b => exact Nat.zero_le _
  | number n => exact Nat.zero_le _
  | string s => exact Nat.zero_le _
  | object members ih => exact Nat.zero_le _
  | array items ih =>
    rcases ofJson_array_cases items with ⟨operator, args, rfl⟩ | h
    · rw [ofJson_call, maxDepth]
      rcases maxDepthArgs_cases (args.map ofJson) with hzero | ⟨arg, hm, harray, heq⟩
      · omega
      · obtain ⟨item, hitem, rfl⟩ := List.mem_map.1 hm
        have hinner := ih item (List.mem_cons_of_mem _ hitem)
        have hpos := depth_pos_of_isArray harray
        have hdepth : item.depth ≤ Json.depthItems (.string operator :: args) :=
          Json.depthItems_le_iff.1 (Nat.le_refl _) item (List.mem_cons_of_mem _ hitem)
        rw [heq, Json.depth]
        omega
    · rw [h]
      exact Nat.zero_le _

/-! ## Walks that nothing cuts -/

/-- Whether a walk within limits examines all nodes that it would examine without. -/
def WalkedWhole (limits : Limits) (e : Expression) : Prop :=
  ∀ path node, Examined e path node →
    ⟨path.reverse, node⟩ ∈ (e.walk limits.walkDepth []).filter (·.depth ≤ limits.walkDepth)

variable {e : Expression} {context : Option Context} {limits : Limits}

theorem walkedWhole (shallow : e.maxDepth ≤ limits.walkDepth) : e.WalkedWhole limits := by
  intro path node hexamined
  have hlength := Nat.le_trans hexamined.length_le shallow
  have hvisit : (⟨path.reverse, node⟩ : Visit) ∈ e.walk limits.walkDepth [] ∧ _ :=
    mem_walk_iff.2 ⟨by simpa using hexamined, by simpa using hlength⟩
  exact List.mem_filter.2 ⟨hvisit.1, decide_eq_true hvisit.2⟩

/-- Where nothing is nested beyond the limit, what is said about depth ends in the recommended one. -/
theorem endsInNumber_of_mem_validate (shallow : e.maxDepth ≤ limits.walkDepth) {d : Diagnostic}
    (hd : d ∈ (e.validate context limits).findings.toList) (hcode : d.code = .excessiveDepth) :
    EndsInNumber d.message := by
  rw [Findings.toList, List.mem_append, List.mem_append] at hd
  rcases hd with (herror | hwarning) | hinfo
  · obtain ⟨visit, -, hvisit⟩ := List.mem_filterMap.1 herror
    obtain ⟨fault, -, rfl⟩ := Option.map_eq_some_iff.1 hvisit
    change fault.toDiagnostic.code = _ at hcode
    cases fault <;> cases hcode
  · have hnested : d ∈ (e.validate context limits).findings.warnings.filter
        (·.code == .excessiveDepth) := List.mem_filter.2 ⟨hwarning, beq_iff_eq.2 hcode⟩
    rw [depthWarnings_validate shallow] at hnested
    obtain ⟨visit, -, rfl⟩ := Option.map_eq_some_iff.1 (Option.mem_toList.1 hnested)
    exact ⟨_, limits.recommendedDepth, message_nestingWarning⟩
  · cases hinfo

end Expression

/-! ## The expressions of a style -/

namespace Style

variable {members : List (String × Json)}

/-- The expressions of a layer nest no deeper than its members. -/
theorem maxDepth_of_mem_expressions_read :
    ∀ entry ∈ (Layer.read members).expressions, entry.2.maxDepth ≤ Json.depthMembers members := by
  have hmember : ∀ {key value}, members.lookup key = some value →
      value.depth ≤ Json.depthMembers members := fun hv =>
    Json.depthMembers_le_iff.1 (Nat.le_refl _) _ (Members.mem_of_lookup hv)
  have hblock : ∀ key, ∀ entry ∈ (Shape.block.get? key members).getD [],
      entry.2.maxDepth ≤ Json.depthMembers members := by
    intro key entry hentry
    cases hb : Shape.block.get? key members with
    | none => simp [hb] at hentry
    | some block =>
      obtain ⟨properties, hv, rfl⟩ := Shape.get?_block_eq_some_iff.1 hb
      rw [hb] at hentry
      obtain ⟨⟨property, value⟩, hm, rfl⟩ := List.mem_map.1 hentry
      have hblock := hmember hv
      have hproperty : value.depth ≤ Json.depthMembers properties :=
        Json.depthMembers_le_iff.1 (Nat.le_refl _) _ hm
      have hexpression := Expression.maxDepth_le_depth value
      rw [Json.depth] at hblock
      dsimp only
      omega
  have hfilter : ∀ e, (Layer.read members).filter = some e →
      e.maxDepth ≤ Json.depthMembers members := by
    intro e he
    obtain ⟨value, hv, -, rfl⟩ := Shape.get?_expression_eq_some_iff.1 he
    have hvalue := hmember hv
    have hexpression := Expression.maxDepth_le_depth value
    omega
  exact (Layer.forall_expressions_iff (p := fun e => e.maxDepth ≤ _)).2
    ⟨hfilter, hblock "layout", hblock "paint"⟩

/-- An expression of a style nests less deep than the document that the style was read from. -/
theorem maxDepth_of_mem_expressions {mode : Mode} {value : Json} {style : Style} {layer : Layer}
    {entry : Layer.Place × Expression} (hstyle : ofJson mode value = .ok style)
    (hlayer : layer ∈ style.layerList) (hentry : entry ∈ layer.expressions) :
    entry.2.maxDepth ≤ value.depth := by
  obtain ⟨members, rfl, rfl⟩ := ofJson_eq_ok hstyle
  unfold layerList at hlayer
  cases hl : (read members).layers with
  | none => simp [hl] at hlayer
  | some list =>
    rw [hl] at hlayer
    obtain ⟨layers, hv, hread⟩ := Option.bind_eq_some_iff.1 hl
    obtain ⟨objects, rfl, rfl⟩ := Shape.read_layers_iff.1 hread
    obtain ⟨object, ho, rfl⟩ := List.mem_map.1 hlayer
    have hinner := maxDepth_of_mem_expressions_read _ hentry
    have hmembers : (Json.array (objects.map .object)).depth ≤ Json.depthMembers members :=
      Json.depthMembers_le_iff.1 (Nat.le_refl _) _ (Members.mem_of_lookup hv)
    have hobject : (Json.object object).depth ≤ Json.depthItems (objects.map .object) :=
      Json.depthItems_le_iff.1 (Nat.le_refl _) _ (List.mem_map.2 ⟨object, ho, rfl⟩)
    simp only [Json.depth] at hmembers hobject ⊢
    omega

end Style

/-! ## Reports -/

theorem Lint.not_saysCut {config : LintConfig} {style : Style}
    (shallow : ∀ layer ∈ style.layerList, ∀ entry ∈ layer.expressions,
      entry.2.maxDepth ≤ config.limits.walkDepth)
    {d : Diagnostic} (h : d ∈ run config Rule.all style) : ¬d.SaysCut := by
  rcases cases_of_mem_run h with ⟨rule, -, hd⟩ | rfl
  · obtain ⟨found, hfound, hcode, hmessage, -⟩ := Rule.exists_mem_check_of_findings hd
    refine Diagnostic.not_saysCut fun hdepth => ?_
    rw [hmessage]
    rw [hcode] at hdepth
    -- Only one rule reports anything about depth.
    have hrule := hdepth ▸ (Rule.makes_check config.limits rule found hfound).1
    obtain rfl : rule = .layerExpressions := by
      revert hrule
      cases rule <;> decide
    obtain ⟨⟨layer, position⟩, hlayer, hfound⟩ := List.mem_flatMap.1 hfound
    obtain ⟨⟨place, e⟩, hentry, hfound⟩ := List.mem_flatMap.1 hfound
    dsimp only at hfound
    split at hfound
    · obtain ⟨finding, hfinding, rfl⟩ := List.mem_map.1 hfound
      have hshallow := shallow layer (List.fst_mem_of_mem_zipIdx hlayer) _ hentry
      exact (Expression.endsInNumber_of_mem_validate hshallow hfinding hdepth).introduce _
    · simp at hfound
  · exact fun hcut => Code.noConfusion hcut.1

theorem DocumentError.not_saysCut {e : DocumentError} {rule : String} {d : Diagnostic}
    (h : d ∈ (Findings.ofList [e.toDiagnostic rule]).toList) : ¬d.SaysCut := by
  obtain rfl := List.mem_singleton.1 (Lint.mem_toList_ofList.1 h)
  rintro ⟨hcode, -⟩
  change (if e.kind = .inputParse then Code.inputParse else Code.invalidStructure) = _ at hcode
  split at hcode <;> cases hcode

namespace Document

/-- **What is read from text is walked whole.** With the limits that hold when none are set, neither
    validating a text as an expression nor as a style says that the walk was cut short, and of the
    expression and of every filter and property of the style all nodes are examined that there are to
    examine. -/
theorem text_walked_whole (text : String) :
    (∀ context, ∀ d ∈ (Validation.ofDocument (.text text) context {}).findings.toList,
      ¬d.SaysCut) ∧
    (∀ config : LintConfig,
      ∀ d ∈ (StyleReport.ofDocument { config with limits := {} } (.text text)).findings.toList,
        ¬d.SaysCut) ∧
    ∀ value, (Document.text text).resolve = .ok value →
      (Expression.ofJson value).WalkedWhole {} ∧
      ∀ mode style, Style.ofJson mode value = .ok style →
        ∀ layer ∈ style.layerList, ∀ entry ∈ layer.expressions, entry.2.WalkedWhole {} := by
  have hdepth : ∀ value, (Document.text text).resolve = .ok value →
      value.depth ≤ ({} : Limits).walkDepth := by
    intro value hvalue
    have hread := Json.depth_le_of_parse (resolve_text_eq_ok_iff.1 hvalue)
    exact Nat.le_trans hread (by decide)
  have hroot : ∀ value, (Document.text text).resolve = .ok value →
      (Expression.ofJson value).maxDepth ≤ ({} : Limits).walkDepth := by
    intro value hvalue
    have hle := Expression.maxDepth_le_depth value
    have hlimit := hdepth value hvalue
    omega
  refine ⟨?_, ?_, ?_⟩
  · intro context d hd
    cases hresolve : (Document.text text).resolve with
    | error e =>
      rw [Validation.ofDocument, hresolve] at hd
      exact DocumentError.not_saysCut hd
    | ok value =>
      rw [Validation.ofDocument, hresolve] at hd
      exact Diagnostic.not_saysCut
        (Expression.endsInNumber_of_mem_validate (hroot value hresolve) hd)
  · intro config d hd
    cases hresolve : (Document.text text).resolve with
    | error e =>
      rw [StyleReport.ofDocument, hresolve] at hd
      exact DocumentError.not_saysCut hd
    | ok value =>
      rw [StyleReport.ofDocument, hresolve] at hd
      cases hstyle : Style.ofJson .strict value with
      | error e =>
        simp only [StyleReport.ofJson, hstyle] at hd
        exact DocumentError.not_saysCut hd
      | ok style =>
        simp only [StyleReport.ofJson, hstyle] at hd
        refine Lint.not_saysCut (fun layer hlayer entry hentry => ?_) (Lint.mem_toList_ofList.1 hd)
        exact Nat.le_trans (Style.maxDepth_of_mem_expressions hstyle hlayer hentry)
          (hdepth value hresolve)
  · intro value hresolve
    refine ⟨Expression.walkedWhole (hroot value hresolve), ?_⟩
    intro mode style hstyle layer hlayer entry hentry
    exact Expression.walkedWhole (Nat.le_trans
      (Style.maxDepth_of_mem_expressions hstyle hlayer hentry) (hdepth value hresolve))

/-- The text of a style that nests just as deep as texts may, nearly all of it in a filter: nesting is
    warned about, and the walk goes to the end. -/
theorem text_walked_whole_brim :
    let filter := Json.nest [.string "!"] (.array []) 123
    let layer : Json :=
      .object [("id", .string "x"), ("type", .string "background"), ("filter", filter)]
    let value : Json := .object [("layers", .array [layer])]
    let text := value.compact
    value.depth = 127 ∧ (Document.text text).resolve = .ok value ∧
    (∃ d ∈ (StyleReport.ofDocument {} (.text text)).findings.toList,
      d.code = .excessiveDepth ∧ ¬d.SaysCut) ∧
    (Expression.ofJson filter).maxDepth = 123 ∧ (Expression.ofJson filter).WalkedWhole {} := by
  intro filter layer value text
  have hdepth : value.depth = 127 := by decide +kernel
  have hnest : ∀ n, (Json.nest [.string "!"] (.array []) n).WellFormed ∧
      (Json.nest [.string "!"] (.array []) n).floats = [] := by
    intro n
    induction n with
    | zero => exact ⟨trivial, rfl⟩
    | succ n ih =>
      simp [Json.nest, Json.wrap, Json.WellFormed, Json.WellFormedItems, Json.floats,
        Json.floatsItems, ih]
  have wf : value.WellFormed := by
    simp [value, layer, Json.WellFormed, Json.WellFormedMembers, Json.WellFormedItems,
      Members.keys, filter, hnest]
  have hfloats : value.floats = [] := by
    simp [value, layer, Json.floats, Json.floatsItems, Json.floatsMembers, filter, hnest]
  have hresolve : (Document.text text).resolve = .ok value :=
    resolve_text_eq_ok_iff.2 ((Json.parse_compact_iff wf (by simp [hfloats])).2
      (Nat.le_of_eq hdepth))
  obtain ⟨-, hreport, hwalk⟩ := text_walked_whole text
  have hstyle : Style.ofJson .lenient value = .ok (.read [("layers", .array [layer])]) := rfl
  obtain ⟨d, hd, hcode⟩ : ∃ d ∈ (StyleReport.ofDocument {} (.text text)).findings.toList,
      d.code = .excessiveDepth := by
    rw [StyleReport.ofDocument, hresolve]
    decide +kernel
  refine ⟨hdepth, hresolve, ⟨d, hd, hcode, hreport {} d hd⟩, by decide +kernel, ?_⟩
  exact (hwalk value hresolve).2 .lenient _ hstyle _ (List.mem_cons_self ..) (.filter, _)
    (List.mem_cons_self ..)

end Document

end CartoStyle
