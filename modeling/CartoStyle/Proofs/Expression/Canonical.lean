import CartoStyle.Proofs.Expression.Text

set_option autoImplicit false

/-! # Expressions represent JSON

Not every expression is the one that its JSON value writes: a literal may hold an array, and an array
that is kept as it is may start with an operator name. `Expression.Canonical` rules out just these, on
every level (`Expression.canonical_iff_written`), and folding does not bring them in. An expression is
encoded in every format as its JSON value is (`Expression.encode_eq`), the texts among them
(`Json.encode_text`), so reading a value as an expression loses nothing that any writer could show
(`Expression.represents_json`). -/

namespace CartoStyle

namespace Json

/-! ## Formats -/

namespace Format

theorem encodeItems_plain (items : List Json) (h : ∀ item ∈ items, item.encode plain = item) :
    encodeItems plain items = items := by
  induction items with
  | nil => rfl
  | cons item rest ih =>
    rw [encodeItems, h item (List.mem_cons_self ..), ih fun i hi => h i (List.mem_cons_of_mem _ hi)]

theorem encodeMembers_plain (members : List (String × Json))
    (h : ∀ key value, (key, value) ∈ members → value.encode plain = value) :
    encodeMembers plain members = members := by
  induction members with
  | nil => rfl
  | cons member rest ih =>
    obtain ⟨key, value⟩ := member
    rw [encodeMembers, h key value (List.mem_cons_self ..),
      ih fun k v hm => h k v (List.mem_cons_of_mem _ hm)]

end Format

/-- Encoding a value as JSON is the value. -/
@[simp]
theorem encode_plain (value : Json) : value.encode Format.plain = value := by
  induction value using tree_induction with
  | null => rfl
  | bool b => rfl
  | number n => rfl
  | string s => rfl
  | array items ih => rw [encode, Format.encodeItems_plain items ih, Format.plain]
  | object members ih => rw [encode, Format.encodeMembers_plain members ih, Format.plain]

variable {spacing : Spacing}

mutual

/-- **The texts of values are formats.** -/
theorem encode_text (level : Nat) (written : String) (value : Json) :
    value.encode (Format.text spacing) level written = value.renderOnto spacing level written := by
  match value with
  | .null => rfl
  | .bool b => rfl
  | .number n => rfl
  | .string s => rfl
  | .array [] => rfl
  | .array (item :: rest) =>
    rw [renderOnto, ← appendItems_encodeItems, ← encode_text (level + 1) _ item]
    rfl
  | .object [] => rfl
  | .object ((key, value) :: rest) =>
    rw [renderOnto, ← appendMembers_encodeMembers, ← encode_text (level + 1) _ value]
    rfl

theorem appendItems_encodeItems (level : Nat) (written : String) (items : List Json) :
    Format.appendItems spacing level written (encodeItems (Format.text spacing) items) =
      renderItems spacing level written items := by
  match items with
  | [] => rfl
  | item :: rest =>
    rw [encodeItems, Format.appendItems, renderItems, encode_text, appendItems_encodeItems]

theorem appendMembers_encodeMembers (level : Nat) (written : String)
    (members : List (String × Json)) :
    Format.appendMembers spacing level written (encodeMembers (Format.text spacing) members) =
      renderMembers spacing level written members := by
  match members with
  | [] => rfl
  | (key, value) :: rest =>
    rw [encodeMembers, Format.appendMembers, renderMembers, encode_text,
      appendMembers_encodeMembers]

end

end Json

namespace Expression

mutual

/-- **An expression is encoded as its JSON value is,** in every format. -/
theorem encode_eq {α : Type} (format : Json.Format α) (e : Expression) :
    e.encode format = e.toJson.encode format := by
  match e with
  | .literal value => rfl
  | .literalObject members => rfl
  | .malformed items => rfl
  | .call operator args => rw [encode, encodeArgs_eq, toJson, Json.encode, Json.encodeItems, Json.encode]

theorem encodeArgs_eq {α : Type} (format : Json.Format α) (args : List Expression) :
    encodeArgs format args = Json.encodeItems format (toItems args) := by
  match args with
  | [] => rfl
  | arg :: rest => rw [encodeArgs, encode_eq, encodeArgs_eq, toItems, Json.encodeItems]

end

/-! ## Canonical expressions -/

/-- Whether on every level literals are neither arrays nor objects, and the arrays that are kept as
    they are do not start with an operator name. -/
inductive Canonical : Expression → Prop
  | literal {value : Json} (notArray : ∀ items, value ≠ .array items)
      (notObject : ∀ members, value ≠ .object members) : Canonical (.literal value)
  | call {operator : String} {args : List Expression} (each : ∀ arg ∈ args, Canonical arg) :
      Canonical (.call operator args)
  | literalObject (members : List (String × Json)) : Canonical (.literalObject members)
  | malformed {items : List Json} (headless : ∀ operator rest, items ≠ .string operator :: rest) :
      Canonical (.malformed items)

theorem written_literal_iff {value : Json} :
    (literal value).Written ↔
      (∀ items, value ≠ .array items) ∧ ∀ members, value ≠ .object members := by
  unfold Written
  cases value with
  | array items =>
    rcases ofJson_array_cases items with ⟨operator, args, rfl⟩ | h
    · simp [toJson, ofJson]
    · simp [toJson, h]
  | _ => simp [toJson, ofJson]

theorem written_malformed_iff {items : List Json} :
    (malformed items).Written ↔ ∀ operator rest, items ≠ .string operator :: rest := by
  unfold Written
  rw [toJson]
  rcases ofJson_array_cases items with ⟨operator, args, rfl⟩ | h
  · simp [ofJson]
  · rw [h, eq_self, true_iff]
    rintro operator rest rfl
    simp [ofJson] at h

/-- **The canonical expressions are those that their JSON values write.** -/
theorem canonical_iff_written (e : Expression) : e.Canonical ↔ e.Written := by
  induction e using tree_induction with
  | literal value =>
    rw [written_literal_iff]
    constructor
    · rintro ⟨notArray, notObject⟩
      exact ⟨notArray, notObject⟩
    · rintro ⟨notArray, notObject⟩
      exact .literal notArray notObject
  | literalObject members => exact ⟨fun _ => rfl, fun _ => .literalObject members⟩
  | malformed items =>
    rw [written_malformed_iff]
    constructor
    · rintro ⟨⟩
      assumption
    · exact .malformed
  | call operator args ih =>
    rw [written_call_iff]
    constructor
    · rintro ⟨⟩ arg hm
      next each => exact (ih arg hm).1 (each arg hm)
    · intro each
      exact .call fun arg hm => (ih arg hm).2 (each arg hm)

instance (e : Expression) : Decidable e.Canonical :=
  decidable_of_iff (ofJson e.toJson = e) (canonical_iff_written e).symm

theorem canonical_ofJson (value : Json) : (ofJson value).Canonical :=
  (canonical_iff_written _).2 (written_ofJson value)

theorem Canonical.simplify {e : Expression} (h : e.Canonical) : e.simplify.Canonical :=
  (canonical_iff_written _).2 ((canonical_iff_written e).1 h).simplify

/-- **Expressions represent JSON exactly.** A value is the value of the expression it writes, and that
    is encoded as the value is in every format: as JSON, as the text in any spacing, and so as the
    compact text. An expression is the one that its value writes just when it is canonical; those that
    values write are, and so is what they fold to. -/
theorem represents_json :
    (∀ value : Json, (ofJson value).toJson = value ∧
      (∀ (α : Type) (format : Json.Format α), (ofJson value).encode format = value.encode format) ∧
      (ofJson value).encode .plain = value ∧
      (∀ spacing, (ofJson value).encode (.text spacing) 0 "" = value.renderOnto spacing 0 "") ∧
      (ofJson value).text = value.compact) ∧
    (∀ e : Expression, ofJson e.toJson = e ↔ e.Canonical) ∧
    (∀ value, (ofJson value).Canonical) ∧
    ∀ e : Expression, e.Canonical → e.simplify.Canonical := by
  have hencode : ∀ (value : Json) (α : Type) (format : Json.Format α),
      (ofJson value).encode format = value.encode format := by
    intro value α format
    rw [encode_eq, toJson_ofJson]
  refine ⟨fun value => ⟨toJson_ofJson value, hencode value, ?_, fun spacing => ?_, ?_⟩, fun e => ?_,
    canonical_ofJson, fun e h => h.simplify⟩
  · rw [hencode, Json.encode_plain]
  · rw [hencode, Json.encode_text]
  · rw [text_eq, toJson_ofJson]
  · exact (canonical_iff_written e).symm

/-- Calls, an object, an empty array and one with a string behind its head; the fold leaves a
    literal among the arguments. -/
theorem represents_json_mixed :
    let e := call "case"
      [call "!" [call "any" [literal (.bool false)]], malformed [],
        malformed [.number (.integer 3), .string "all"],
        literalObject [("k", .array [.string "get"])], literal .null]
    e.Canonical ∧ ofJson e.toJson = e ∧ e.simplify ≠ e ∧ e.simplify.Canonical := by
  intro e
  have h : e.Canonical := by decide +kernel
  exact ⟨h, (represents_json.2.1 e).2 h, by decide +kernel, represents_json.2.2.2 e h⟩

end Expression

end CartoStyle
