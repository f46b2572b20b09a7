import CartoStyle.Proofs.Style.Entries
import CartoStyle.Tool.Call

set_option autoImplicit false

/-! # The arguments of a tool

Which arguments a tool takes, said without its signature (`Tool.Decodes`): a document, which is
given by name or in the first place, and for some tools an option, which may be left out or null. The
signature finds no fault just with those (`Tool.fault?_eq_none_iff`), and the work that they ask for
exists unless the option names something that does not (`Tool.exists_work_error_iff`). -/

namespace CartoStyle

namespace Tool

/-! ## Arguments that are taken -/

/-- The parameter besides the document, for the tools that have one. -/
def optionName? : Tool → Option String
  | .validateExpression => some "context"
  | .optimizeStyle => some "passes"
  | _ => none

/-- Whether a value is one for the option: the name of a context, or names of passes. -/
def Takes : Tool → Json → Prop
  | .validateExpression, value => ∃ text, value = .string text
  | .optimizeStyle, value =>
    ∃ items, value = .array items ∧ ∀ item ∈ items, ∃ text, item = .string text
  | _, _ => False

/-- Whether a value is a list of arguments for a tool. Arguments of other names do not matter. -/
inductive Decodes (tool : Tool) : Json → Prop
  | named {members : List (String × Json)} {document : Json}
      (there : members.lookup tool.subject = some document)
      (option : ∀ name value, (name, value) ∈ members → tool.optionName? = some name →
        value = .null ∨ tool.Takes value) : Decodes tool (.object members)
  | alone {document : Json} : Decodes tool (.array [document])
  | both {document option : Json} {name : String} (has : tool.optionName? = some name)
      (takes : option = .null ∨ tool.Takes option) : Decodes tool (.array [document, option])

/-- The document among arguments. -/
def documentArgument (tool : Tool) : Json → Json
  | .object members => (members.lookup tool.subject).getD .null
  | .array (document :: _) => document
  | _ => .null

/-- The option among arguments. -/
def optionArgument (tool : Tool) : Json → Option Json
  | .object members => tool.optionName?.bind fun name => members.lookup name
  | .array (_ :: option :: _) => some option
  | _ => none

/-- Whether the option names a context or a pass that there is not. -/
inductive NamesUnknown : Tool → Json → Prop
  | context {given : Json} {text : String}
      (option : optionArgument validateExpression given = some (.string text))
      (unknown : text ∉ Context.all.map Context.text) : NamesUnknown validateExpression given
  | pass {given : Json} {items : List Json} {text : String}
      (option : optionArgument optimizeStyle given = some (.array items))
      (named : .string text ∈ items) (unknown : text ∉ Pass.all.map Pass.text) :
      NamesUnknown optimizeStyle given

/-! ## Signatures -/

/-- The parameter of the option. -/
def option? : Tool → Option Param
  | .validateExpression => some (.optional "context" .text)
  | .optimizeStyle => some (.texts "passes")
  | _ => none

/-- A signature asks for a document first. -/
theorem params_signature (tool : Tool) :
    tool.signature.params = .mandatory tool.subject .any :: tool.option?.toList := by
  cases tool <;> rfl

theorem name_option? (tool : Tool) : tool.option?.map (·.name) = tool.optionName? := by
  cases tool <;> rfl

theorem name_option?_ne {tool : Tool} {option : Param} (h : tool.option? = some option) :
    option.name ≠ tool.subject := by
  cases tool <;> cases h <;> decide

theorem required_option? {tool : Tool} {option : Param} (h : tool.option? = some option) :
    option.required = false := by
  cases tool <;> cases h <;> rfl

theorem shapeFault?_eq_none_iff {α : Type} {shape : Shape α} {value : Json} :
    Param.shapeFault? shape value = none ↔ shape.Fits value := by
  simp [Param.shapeFault?]

theorem fits_text_iff {value : Json} : Shape.text.Fits value ↔ ∃ text, value = .string text := by
  simp [Shape.Fits, Option.isSome_iff_exists, Shape.read_text_iff]

theorem textsFault?_eq_none_iff {value : Json} :
    Param.textsFault? value = none ↔
      ∃ items, value = .array items ∧ ∀ item ∈ items, ∃ text, item = .string text := by
  cases value with
  | array items =>
    simp [Param.textsFault?, List.findSome?_eq_none_iff, shapeFault?_eq_none_iff, fits_text_iff]
  | _ => simp [Param.textsFault?]

/-- The option may be null. -/
theorem fault?_option?_eq_none_iff {tool : Tool} {option : Param} (h : tool.option? = some option)
    (value : Json) : option.fault? value = none ↔ value = .null ∨ tool.Takes value := by
  have hnull : ∀ {fault : Json → Option ArgumentFault},
      (if value.isNull then none else fault value) = none ↔ value = .null ∨ fault value = none := by
    intro fault
    cases value <;> simp [Json.isNull]
  cases tool with
  | validateExpression =>
    cases h
    exact hnull.trans (or_congr_right (shapeFault?_eq_none_iff.trans fits_text_iff))
  | optimizeStyle =>
    cases h
    exact hnull.trans (or_congr_right textsFault?_eq_none_iff)
  | _ => cases h

/-- An argument given by name suits the signature unless it is a bad option. -/
theorem namedFault?_eq_none_iff (tool : Tool) (name : String) (value : Json) :
    tool.signature.namedFault? name value = none ↔
      (tool.optionName? = some name → value = .null ∨ tool.Takes value) := by
  rw [Signature.namedFault?, params_signature, List.find?_cons, ← name_option?]
  by_cases hsubject : tool.subject = name
  · -- Any value is a document, and no option has the name of the document.
    subst hsubject
    have hother : tool.option?.map (·.name) ≠ some tool.subject := by
      intro h
      obtain ⟨option, hoption, hname⟩ := Option.map_eq_some_iff.1 h
      exact name_option?_ne hoption hname
    simp [Param.mandatory, Param.shapeFault?, Shape.Fits, Shape.any, hother]
  · have hskip : ((Param.mandatory tool.subject Shape.any).name == name) = false := by
      simpa [Param.mandatory] using hsubject
    rw [hskip]
    cases hoption : tool.option? with
    | none => simp
    | some option =>
      have hfault := fault?_option?_eq_none_iff hoption value
      by_cases hname : option.name = name
      · simp [hname, hfault]
      · simp [hname]

theorem membersFault?_eq_none_iff (tool : Tool) (members : List (String × Json)) :
    tool.signature.membersFault? members = none ↔ tool.Decodes (.object members) := by
  have hmissing : (tool.signature.params.findSome? fun p =>
      if p.required && (members.lookup p.name).isNone then some (ArgumentFault.missing p.name)
      else none) = none ↔ ∃ document, members.lookup tool.subject = some document := by
    rw [params_signature, List.findSome?_eq_none_iff, List.forall_mem_cons]
    refine (and_iff_left ?optional).trans ?document
    case optional =>
      intro option hoption
      simp [required_option? (Option.mem_toList.1 hoption)]
    case document =>
      cases there : members.lookup tool.subject <;> simp [Param.mandatory, there]
  have hnamed :
      (members.findSome? fun member => tool.signature.namedFault? member.1 member.2) = none ↔
      ∀ name value, (name, value) ∈ members → tool.optionName? = some name →
        value = .null ∨ tool.Takes value := by
    simp only [List.findSome?_eq_none_iff, Prod.forall, namedFault?_eq_none_iff]
  rw [Signature.membersFault?, Option.orElse_eq_orElse, Option.orElse_eq_or, Option.or_eq_none_iff,
    hnamed, hmissing]
  constructor
  · rintro ⟨option, document, there⟩
    exact .named there option
  · rintro ⟨there, option⟩
    exact ⟨option, _, there⟩

theorem decodes_array_iff {tool : Tool} {items : List Json} :
    tool.Decodes (.array items) ↔
      (∃ document, items = [document]) ∨
        ∃ document option, items = [document, option] ∧ tool.option?.isSome ∧
          (option = .null ∨ tool.Takes option) := by
  have hhas : tool.option?.isSome ↔ ∃ name, tool.optionName? = some name := by
    rw [← Option.isSome_iff_exists, ← name_option?, Option.isSome_map]
  constructor
  · rintro (_ | _ | ⟨has, takes⟩)
    · exact .inl ⟨_, rfl⟩
    · exact .inr ⟨_, _, rfl, hhas.2 ⟨_, has⟩, takes⟩
  · rintro (⟨document, rfl⟩ | ⟨document, option, rfl, has, takes⟩)
    · exact .alone
    · obtain ⟨name, has⟩ := hhas.1 has
      exact .both has takes

theorem itemsFault?_eq_none_iff (tool : Tool) (items : List Json) :
    tool.signature.itemsFault? items = none ↔ tool.Decodes (.array items) := by
  have hdocument : ∀ document, (Param.mandatory tool.subject Shape.any).fault? document = none :=
    fun _ => rfl
  have hmust : (Param.mandatory tool.subject Shape.any).required = true := rfl
  rw [Signature.itemsFault?, params_signature, decodes_array_iff]
  cases hoption : tool.option? with
  | none =>
    match items with
    | [] => simp [hmust]
    | [document] => simp [hdocument]
    | document :: value :: more => simp [hdocument]
  | some option =>
    have hfault := fault?_option?_eq_none_iff hoption
    match items with
    | [] => simp [hmust]
    | [document] => simp [hdocument, required_option? hoption]
    | [document, value] => simp [hdocument, hfault]
    | document :: value :: other :: more => simp [hdocument]

/-- **The signature of a tool finds no fault just with the arguments that the tool takes.** -/
theorem fault?_eq_none_iff (tool : Tool) (given : Json) :
    tool.signature.fault? given = none ↔ tool.Decodes given := by
  cases given with
  | object members => exact tool.membersFault?_eq_none_iff members
  | array items => exact tool.itemsFault?_eq_none_iff items
  | _ =>
    constructor
    · intro h
      cases h
    · rintro ⟨⟩

/-! ## Arguments by name -/

/-- The document is found under its name, however it was given. -/
theorem lookup_subject {tool : Tool} {given : Json} (decodes : tool.Decodes given) :
    ((tool.signature.named given).lookup tool.subject).getD .null =
      tool.documentArgument given := by
  cases decodes with
  | named => rfl
  | alone | both => simp [Signature.named, params_signature, Param.mandatory, documentArgument]

/-- So is the option. -/
theorem lookup_option {tool : Tool} {given : Json} {name : String} (decodes : tool.Decodes given)
    (has : tool.optionName? = some name) :
    (tool.signature.named given).lookup name = tool.optionArgument given := by
  rw [← name_option?] at has
  obtain ⟨option, hoption, rfl⟩ := Option.map_eq_some_iff.1 has
  have hne := name_option?_ne hoption
  cases decodes with
  | named => simp [Signature.named, optionArgument, ← name_option?, hoption]
  | alone => simp [Signature.named, params_signature, Param.mandatory, optionArgument, hoption, hne]
  | both =>
    have hother : (option.name == tool.subject) = false := by simpa using hne
    simp [Signature.named, params_signature, Param.mandatory, optionArgument, hoption,
      List.lookup_cons, hother]

/-! ## Names -/

theorem find?_eq_none_iff_not_named {α : Type} {name : α → String} {all : List α} {text : String} :
    all.find? (name · == text) = none ↔ text ∉ all.map name := by
  simp

theorem exists_ofText_context_error_iff {text : String} :
    (∃ e, Context.ofText text = .error e) ↔ text ∉ Context.all.map Context.text := by
  rw [← find?_eq_none_iff_not_named, Context.ofText]
  cases Context.all.find? (·.text == text) <;> simp

theorem exists_ofText_pass_error_iff {text : String} :
    (∃ e, Pass.ofText text = .error e) ↔ text ∉ Pass.all.map Pass.text := by
  rw [← find?_eq_none_iff_not_named, Pass.ofText]
  cases Pass.all.find? (·.text == text) <;> simp

theorem exists_map_error_iff {ε α β : Type} {read : Except ε α} {f : α → β} :
    (∃ e, (do let a ← read; return f a) = Except.error e) ↔ ∃ e, read = .error e := by
  cases read <;> simp [bind, Except.bind, pure, Except.pure]

/-- Reading a list fails when one of its elements cannot be read. -/
theorem exists_mapM_error_iff {ε α β : Type} {read : α → Except ε β} {as : List α} :
    (∃ e, as.mapM read = .error e) ↔ ∃ a ∈ as, ∃ e, read a = .error e := by
  induction as with
  | nil => simp [pure, Except.pure]
  | cons a rest ih =>
    rw [List.mapM_cons, List.exists_mem_cons_iff, ← ih]
    cases read a with
    | error e => simp [bind, Except.bind]
    | ok b => cases rest.mapM read <;> simp [bind, Except.bind, pure, Except.pure]

theorem exists_ofTexts_error_iff {texts : List String} :
    (∃ e, Pass.ofTexts texts = .error e) ↔ ∃ text ∈ texts, text ∉ Pass.all.map Pass.text := by
  cases texts with
  | nil => simp [Pass.ofTexts]
  | cons text rest =>
    simp only [Pass.ofTexts, List.isEmpty_cons, Bool.false_eq_true, if_false,
      exists_mapM_error_iff, exists_ofText_pass_error_iff]

theorem mem_textsOf_iff {name : String} {members : List (String × Json)} {text : String} :
    text ∈ textsOf name members ↔
      ∃ items, members.lookup name = some (.array items) ∧ .string text ∈ items := by
  have hstring : ∀ value : Json, value.asString? = some text ↔ value = .string text := by
    intro value
    cases value <;> simp [Json.asString?]
  rw [textsOf, List.mem_filterMap]
  simp only [hstring, exists_eq_right]
  cases members.lookup name with
  | none => simp
  | some value => cases value <;> simp [Json.asArray?]

/-! ## The work that is asked for -/

/-- **There is no work to do when the option names something that does not exist.** -/
theorem exists_work_error_iff {tool : Tool} {given : Json} (decodes : tool.Decodes given) :
    (∃ e, tool.work (tool.signature.named given) = .error e) ↔ NamesUnknown tool given := by
  cases tool with
  | validateExpression =>
    have hoption := lookup_option decodes rfl
    have htext : ∀ text, Shape.text.get? "context" (validateExpression.signature.named given) =
        some text ↔ validateExpression.optionArgument given = some (.string text) := by
      intro text
      rw [Shape.get?_text_eq_some_iff, hoption]
    rw [work, exists_map_error_iff]
    cases hget : Shape.text.get? "context" (validateExpression.signature.named given) with
    | none =>
      constructor
      · rintro ⟨e, he⟩
        cases he
      · rintro ⟨option, -⟩
        cases hget.symm.trans ((htext _).2 option)
    | some text =>
      have hread : (∃ e, (some text).mapM Context.ofText = .error e) ↔
          ∃ e, Context.ofText text = .error e := exists_map_error_iff
      rw [hread, exists_ofText_context_error_iff]
      constructor
      · exact .context ((htext text).1 hget)
      · rintro ⟨option, unknown⟩
        cases hget.symm.trans ((htext _).2 option)
        exact unknown
  | optimizeStyle =>
    have hoption := lookup_option decodes rfl
    rw [work, exists_map_error_iff, exists_ofTexts_error_iff]
    simp only [mem_textsOf_iff, hoption]
    constructor
    · rintro ⟨text, ⟨items, option, named⟩, unknown⟩
      exact .pass option named unknown
    · rintro (_ | ⟨option, named, unknown⟩)
      exact ⟨_, ⟨_, option, named⟩, unknown⟩
  | _ =>
    constructor
    · rintro ⟨e, he⟩
      cases he
    · rintro ⟨⟩

end Tool

end CartoStyle
