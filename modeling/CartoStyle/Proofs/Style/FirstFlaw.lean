import CartoStyle.Proofs.Style.Strict

set_option autoImplicit false

/-! # The grammar of styles, and the first flaw of a document

Which documents are styles is said here by tables of members (`Style.grammar`, `Source.grammar`,
`Layer.grammar`), apart from the fields that the readings use. A document that is not one may be
wrong at many places at once (`Style.Flaw`). Each flaw has a rank: the numbers of the container, the
entry and the member, so that the order of ranks is the order of the document.

A search through a list finds the flaw of least rank when each of its steps does
(`Pinpoints.findSome?`). A strict reading is three such searches inside one another, so it accepts
the grammar and else reports the first flaw (`Style.ofJson_strict_exact`). -/

namespace CartoStyle

/-! ## Grammars -/

/-- What a member holds. -/
inductive MemberKind where
  | text
  | number
  | object

/-- Whether a value is of the kind. -/
def MemberKind.Holds : MemberKind → Json → Prop
  | .text, value => ∃ s, value = .string s
  | .number, value => ∃ n, value = .number n
  | .object, value => ∃ members, value = .object members

/-- What is asked of one member of an object. -/
structure MemberRule where
  key : String
  required : Bool
  kind : MemberKind

namespace MemberRule

/-- Null stands for a member that may be absent. -/
def Allows (rule : MemberRule) (value : Json) : Prop :=
  rule.kind.Holds value ∨ (value = .null ∧ ¬rule.required)

/-- Whether an object keeps the rule. -/
def Kept (rule : MemberRule) (members : List (String × Json)) : Prop :=
  match members.lookup rule.key with
  | none => ¬rule.required
  | some value => rule.Allows value

end MemberRule

/-- Whether a value is an object that keeps all rules of a grammar. -/
def Json.Follows (grammar : List MemberRule) (value : Json) : Prop :=
  ∃ members, value = .object members ∧ ∀ rule ∈ grammar, rule.Kept members

/-- The members of a source. -/
def Source.grammar : List MemberRule := [⟨"type", true, .text⟩]

/-- The members of a layer. -/
def Layer.grammar : List MemberRule :=
  [⟨"id", true, .text⟩, ⟨"type", true, .text⟩, ⟨"source", false, .text⟩,
    ⟨"source-layer", false, .text⟩, ⟨"minzoom", false, .number⟩, ⟨"maxzoom", false, .number⟩,
    ⟨"layout", false, .object⟩, ⟨"paint", false, .object⟩]

/-- The members of a style that are not containers. -/
def Style.grammar : List MemberRule := [⟨"name", false, .text⟩, ⟨"glyphs", false, .text⟩]

/-- Whether the members are those of a style. -/
structure Style.Grammatical (members : List (String × Json)) : Prop where
  texts : ∀ rule ∈ Style.grammar, rule.Kept members
  sources : ∀ value, members.lookup "sources" = some value → value = .null ∨
    ∃ entries, value = .object entries ∧ ∀ entry ∈ entries, entry.2.Follows Source.grammar
  layers : ∀ value, members.lookup "layers" = some value → value = .null ∨
    ∃ items, value = .array items ∧ ∀ item ∈ items, item.Follows Layer.grammar

/-- Whether a document is a style. -/
def Json.IsStyle (value : Json) : Prop :=
  ∃ members, value = .object members ∧ Style.Grammatical members

/-! ## Flaws -/

/-- What keeps the value at `base` from following a grammar: the number of the broken rule and the
    place to report. A member that is missing is reported at the object. -/
inductive Json.Flaw (grammar : List MemberRule) (base : Path) : Json → List Nat → Path → Prop
  | notAnObject {value : Json} (other : ∀ members, value ≠ .object members) :
      Flaw grammar base value [] base
  | missing {members : List (String × Json)} {i : Nat} {rule : MemberRule}
      (here : grammar[i]? = some rule) (required : rule.required)
      (absent : members.lookup rule.key = none) : Flaw grammar base (.object members) [i] base
  | misfit {members : List (String × Json)} {i : Nat} {rule : MemberRule} {value : Json}
      (here : grammar[i]? = some rule) (there : members.lookup rule.key = some value)
      (misfit : ¬rule.Allows value) :
      Flaw grammar base (.object members) [i] (base ++ [.member rule.key])

/-- What keeps a value from being the sources of a style. -/
inductive Style.SourcesFlaw : Json → List Nat → Path → Prop
  | notAContainer {value : Json} (notNull : value ≠ .null)
      (other : ∀ entries, value ≠ .object entries) : SourcesFlaw value [] [.member "sources"]
  | entry {entries : List (String × Json)} {i : Nat} {key : String} {value : Json}
      {rank : List Nat} {path : Path} (here : entries[i]? = some (key, value))
      (flaw : Json.Flaw Source.grammar [.member "sources", .member key] value rank path) :
      SourcesFlaw (.object entries) (i :: rank) path

/-- What keeps a value from being the layers of a style. -/
inductive Style.LayersFlaw : Json → List Nat → Path → Prop
  | notAContainer {value : Json} (notNull : value ≠ .null)
      (other : ∀ items, value ≠ .array items) : LayersFlaw value [] [.member "layers"]
  | entry {items : List Json} {i : Nat} {value : Json} {rank : List Nat} {path : Path}
      (here : items[i]? = some value)
      (flaw : Json.Flaw Layer.grammar [.member "layers", .index i] value rank path) :
      LayersFlaw (.array items) (i :: rank) path

/-- What keeps an object from being a style: texts, then the sources and then the layers, each in
    the order of the document. -/
inductive Style.Flaw (members : List (String × Json)) : List Nat → Path → Prop
  | text {rank : List Nat} {path : Path}
      (flaw : Json.Flaw Style.grammar [] (.object members) rank path) : Flaw members (0 :: rank) path
  | sources {value : Json} {rank : List Nat} {path : Path}
      (there : members.lookup "sources" = some value) (flaw : SourcesFlaw value rank path) :
      Flaw members (1 :: rank) path
  | layers {value : Json} {rank : List Nat} {path : Path}
      (there : members.lookup "layers" = some value) (flaw : LayersFlaw value rank path) :
      Flaw members (2 :: rank) path

/-- Whether a path is that of the flaw of least rank. -/
def FirstFlaw (flaws : List Nat → Path → Prop) (path : Path) : Prop :=
  ∃ rank, flaws rank path ∧
    ∀ rank' path', flaws rank' path' → rank < rank' ∨ (rank' = rank ∧ path' = path)

/-! ## Searches -/

/-- Whether a search reports the first flaw, and nothing only when there is none. -/
def Pinpoints (flaws : List Nat → Path → Prop) : Option Violation → Prop
  | none => ∀ rank path, ¬flaws rank path
  | some violation => FirstFlaw flaws violation.path

theorem Pinpoints.of_iff {flaws flaws' : List Nat → Path → Prop} {found : Option Violation}
    (h : Pinpoints flaws found) (same : ∀ rank path, flaws' rank path ↔ flaws rank path) :
    Pinpoints flaws' found := by
  have : flaws' = flaws := by
    funext rank path
    exact propext (same rank path)
  rwa [this]

/-- A check that can report one flaw only has no ranks to order. -/
theorem Pinpoints.of_single {flaws : List Nat → Path → Prop} {found : Option Violation}
    (h : ∀ rank path, flaws rank path ↔
      rank = [] ∧ ∃ violation, found = some violation ∧ violation.path = path) :
    Pinpoints flaws found := by
  cases found with
  | none => simp [Pinpoints, h]
  | some violation =>
    refine ⟨[], (h [] violation.path).2 ⟨rfl, violation, rfl, rfl⟩, fun rank path flaw => .inr ?_⟩
    obtain ⟨hrank, _, hfound, hpath⟩ := (h rank path).1 flaw
    cases hfound
    exact ⟨hrank, hpath.symm⟩

/-- A search finds the first flaw when the flaws of the `i`-th element are those whose rank starts
    with `i`, and each element is searched rightly. -/
theorem Pinpoints.findSome? {α : Type} {as : List α} {search : α → Option Violation}
    {flaws : List Nat → Path → Prop}
    (each : ∀ i a, as[i]? = some a → Pinpoints (fun rank => flaws (i :: rank)) (search a))
    (inside : ∀ rank path, flaws rank path → ∃ i a rest, rank = i :: rest ∧ as[i]? = some a) :
    Pinpoints flaws (as.findSome? search) := by
  cases h : as.findSome? search with
  | none =>
    intro rank path flaw
    obtain ⟨i, a, rest, rfl, here⟩ := inside rank path flaw
    have hnone : search a = none := List.findSome?_eq_none_iff.1 h a (List.mem_of_getElem? here)
    have hclear := each i a here
    rw [hnone] at hclear
    exact hclear rest path flaw
  | some violation =>
    obtain ⟨before, a, after, rfl, hfound, hbefore⟩ := List.findSome?_eq_some_iff.1 h
    have hfirst := each before.length a (by simp)
    rw [hfound] at hfirst
    obtain ⟨rank, flaw, least⟩ := hfirst
    refine ⟨before.length :: rank, flaw, fun rank' path' flaw' => ?_⟩
    obtain ⟨i, a', rest, rfl, here⟩ := inside rank' path' flaw'
    rcases Nat.lt_trichotomy i before.length with hi | rfl | hi
    · -- An earlier element was searched in vain.
      rw [List.getElem?_append_left hi] at here
      have hclear := each i a' (by rw [List.getElem?_append_left hi, here])
      rw [hbefore a' (List.mem_of_getElem? here)] at hclear
      exact absurd flaw' (hclear rest path')
    · rcases least rest path' flaw' with hlt | ⟨rfl, rfl⟩
      · exact .inl (List.cons_lt_cons_self.2 hlt)
      · exact .inr ⟨rfl, rfl⟩
    · exact .inl (List.Lex.rel hi)

/-! ## Rules and fields -/

namespace MemberRule

/-- The field that checks a rule. -/
def field (rule : MemberRule) : Field :=
  match rule.kind with
  | .text => ⟨rule.key, rule.required, Shape.text.expected, Shape.text.Fits⟩
  | .number => ⟨rule.key, rule.required, Shape.number.expected, Shape.number.Fits⟩
  | .object => ⟨rule.key, rule.required, Shape.block.expected, Shape.block.Fits⟩

@[simp]
theorem field_key (rule : MemberRule) : rule.field.key = rule.key := by
  unfold field
  split <;> rfl

@[simp]
theorem field_required (rule : MemberRule) : rule.field.required = rule.required := by
  unfold field
  split <;> rfl

theorem field_fits_iff {rule : MemberRule} {value : Json} :
    rule.field.fits value ↔ rule.kind.Holds value := by
  unfold field
  cases rule.kind <;> cases value <;>
    simp [MemberKind.Holds, Shape.Fits, Shape.text, Shape.number, Shape.block, Json.asString?,
      Json.asNumber?, Json.asObject?]

theorem field_allows_iff {rule : MemberRule} {value : Json} :
    (rule.field.fits value ∨ (value.isNull ∧ ¬rule.field.required)) ↔ rule.Allows value := by
  have hnull : value.isNull ↔ value = .null := by cases value <;> simp [Json.isNull]
  rw [field_fits_iff, hnull, field_required, Allows]

theorem met_field_iff {rule : MemberRule} {members : List (String × Json)} :
    rule.field.Met members ↔ rule.Kept members := by
  unfold Field.Met Kept
  rw [field_key]
  cases members.lookup rule.key with
  | none => simp
  | some value => exact field_allows_iff

/-- One field finds the flaw of its rule. -/
theorem pinpoints_violation? {grammar : List MemberRule} {base : Path}
    {members : List (String × Json)} {i : Nat} {rule : MemberRule}
    (here : grammar[i]? = some rule) :
    Pinpoints (fun rank => Json.Flaw grammar base (.object members) (i :: rank))
      (rule.field.violation? base members) := by
  apply Pinpoints.of_single
  intro rank path
  constructor
  · intro flaw
    cases flaw with
    | missing here' required absent =>
      -- Both name the rule at the same place of the grammar.
      cases here'.symm.trans here
      simp [Field.violation?, absent, required]
    | misfit here' there misfit =>
      cases here'.symm.trans here
      have hrefused := mt field_allows_iff.1 misfit
      simp only [Field.violation?, field_key, there, if_neg hrefused]
      simp
  · rintro ⟨rfl, violation, hfound, rfl⟩
    unfold Field.violation? at hfound
    rw [field_key] at hfound
    cases there : members.lookup rule.key with
    | none =>
      simp only [there, field_required, Option.ite_none_right_eq_some, Option.some.injEq] at hfound
      obtain ⟨required, rfl⟩ := hfound
      exact .missing here required there
    | some value =>
      simp only [there, field_allows_iff, Option.ite_none_left_eq_some, Option.some.injEq]
        at hfound
      obtain ⟨misfit, rfl⟩ := hfound
      exact .misfit here there misfit

end MemberRule

/-! ## Objects -/

/-- Whether checking the fields is checking the rules. -/
def Checks (fields : List Field) (grammar : List MemberRule) : Prop :=
  ∀ base members, fields.findSome? (Field.violation? base members) =
    (grammar.map MemberRule.field).findSome? (Field.violation? base members)

/-- A filter is never at fault: it may be absent, and any value is an expression or null. -/
theorem violation?_filter {base : Path} {members : List (String × Json)} :
    Field.violation? base members (.optional "filter" .expression) = none := by
  unfold Field.violation? Field.optional
  cases members.lookup "filter" with
  | none => rfl
  | some value => cases value <;> rfl

theorem Layer.checks_fields : Checks Layer.fields Layer.grammar := by
  intro base members
  -- The filter stands behind the zooms and before the blocks.
  have hsplit : Layer.fields = (Layer.grammar.take 6).map MemberRule.field ++
      .optional "filter" .expression :: (Layer.grammar.drop 6).map MemberRule.field := rfl
  rw [hsplit, List.findSome?_append, List.findSome?_cons, violation?_filter,
    ← List.findSome?_append, ← List.map_append, List.take_append_drop]

theorem Source.checks_fields : Checks Source.fields Source.grammar := fun _ _ => rfl

theorem Style.checks_texts :
    Checks [.optional "name" .text, .optional "glyphs" .text] Style.grammar := fun _ _ => rfl

section

variable {fields : List Field} {grammar : List MemberRule}

/-- The search through one object, or through a value that should be one. -/
theorem pinpoints_entryViolation? (checks : Checks fields grammar) (base : Path) (value : Json) :
    Pinpoints (Json.Flaw grammar base value) (Style.entryViolation? fields base value) := by
  cases value with
  | object members =>
    rw [Style.entryViolation?, checks, List.findSome?_map]
    apply Pinpoints.findSome?
    · intro i rule here
      exact MemberRule.pinpoints_violation? here
    · rintro rank path (other | ⟨here, -, -⟩ | ⟨here, -, -⟩)
      · exact absurd rfl (other members)
      all_goals exact ⟨_, _, [], rfl, here⟩
  | _ =>
    refine Pinpoints.of_single fun rank path => ⟨?_, ?_⟩
    · rintro ⟨⟩
      exact ⟨rfl, _, rfl, rfl⟩
    · rintro ⟨rfl, _, ⟨⟩, rfl⟩
      exact .notAnObject (by simp)

theorem forall_kept_iff (checks : Checks fields grammar) {members : List (String × Json)} :
    (∀ rule ∈ grammar, rule.Kept members) ↔ ∀ field ∈ fields, field.Met members := by
  have hnone := congrArg (· = none) (checks [] members)
  simp only [List.findSome?_eq_none_iff, Field.violation?_eq_none_iff, List.forall_mem_map,
    MemberRule.met_field_iff, eq_iff_iff] at hnone
  exact hnone.symm

theorem follows_iff (checks : Checks fields grammar) {value : Json} :
    value.Follows grammar ↔
      ∃ members, value = .object members ∧ ∀ field ∈ fields, field.Met members := by
  simp only [Json.Follows, forall_kept_iff checks]

end

/-! ## Documents -/

namespace Style

theorem pinpoints_sourcesViolation? (value : Json) :
    Pinpoints (SourcesFlaw value) (sourcesViolation? (some value)) := by
  cases value with
  | null =>
    rintro rank path ⟨notNull, -⟩
    exact notNull rfl
  | object entries =>
    apply Pinpoints.findSome?
    · rintro i ⟨key, value⟩ here
      have hentry := pinpoints_entryViolation? Source.checks_fields
        [.member "sources", .member key] value
      refine hentry.of_iff fun rank path => ⟨?_, .entry here⟩
      rintro (_ | ⟨here', flaw⟩)
      cases here'.symm.trans here
      exact flaw
    · rintro rank path (⟨-, other⟩ | ⟨here, -⟩)
      · exact absurd rfl (other entries)
      · exact ⟨_, _, _, rfl, here⟩
  | _ =>
    refine Pinpoints.of_single fun rank path => ⟨?_, ?_⟩
    · rintro ⟨⟩
      exact ⟨rfl, _, rfl, rfl⟩
    · rintro ⟨rfl, _, ⟨⟩, rfl⟩
      exact .notAContainer (by simp) (by simp)

theorem pinpoints_layersViolation? (value : Json) :
    Pinpoints (LayersFlaw value) (layersViolation? (some value)) := by
  cases value with
  | null =>
    rintro rank path ⟨notNull, -⟩
    exact notNull rfl
  | array items =>
    apply Pinpoints.findSome?
    · rintro i ⟨value, position⟩ hzip
      obtain ⟨here, rfl⟩ : items[i]? = some value ∧ i = position := by
        simpa [List.getElem?_zipIdx] using hzip
      have hentry := pinpoints_entryViolation? Layer.checks_fields
        [.member "layers", .index i] value
      refine hentry.of_iff fun rank path => ⟨?_, .entry here⟩
      rintro (_ | ⟨here', flaw⟩)
      cases here'.symm.trans here
      exact flaw
    · rintro rank path (⟨-, other⟩ | ⟨here, -⟩)
      · exact absurd rfl (other items)
      · exact ⟨_, _, _, rfl, by rw [List.getElem?_zipIdx, here]; rfl⟩
  | _ =>
    refine Pinpoints.of_single fun rank path => ⟨?_, ?_⟩
    · rintro ⟨⟩
      exact ⟨rfl, _, rfl, rfl⟩
    · rintro ⟨rfl, _, ⟨⟩, rfl⟩
      exact .notAContainer (by simp) (by simp)

/-- A container that is absent has no flaw. -/
theorem pinpoints_lookup (members : List (String × Json)) (key : String)
    {flaws : Json → List Nat → Path → Prop} {search : Option Json → Option Violation}
    (absent : search none = none) (there : ∀ value, Pinpoints (flaws value) (search (some value))) :
    Pinpoints (fun rank path => ∃ value, members.lookup key = some value ∧ flaws value rank path)
      (search (members.lookup key)) := by
  cases members.lookup key with
  | none => simp [absent, Pinpoints]
  | some value => exact (there value).of_iff (by simp)

/-- Three searches one after the other are a search through three parts. -/
theorem orElse_orElse_eq_findSome? {α : Type} (a b c : Option α) :
    (a <|> b <|> c) = [a, b, c].findSome? id := by
  cases a <;> cases b <;> cases c <;> rfl

/-- The search through a document. -/
theorem pinpoints_violation? (members : List (String × Json)) :
    Pinpoints (Flaw members) (violation? members) := by
  have htexts := pinpoints_entryViolation? checks_texts [] (.object members)
  have hsources := pinpoints_lookup members "sources" rfl pinpoints_sourcesViolation?
  have hlayers := pinpoints_lookup members "layers" rfl pinpoints_layersViolation?
  -- The parts are searched like the elements of a list, so their numbers start the ranks.
  rw [violation?, orElse_orElse_eq_findSome?]
  apply Pinpoints.findSome?
  · intro i part here
    rcases i with _ | _ | _ | i
    · cases here
      refine htexts.of_iff fun rank path => ⟨?_, .text⟩
      rintro ⟨flaw⟩
      exact flaw
    · cases here
      refine hsources.of_iff fun rank path => ⟨?_, ?_⟩
      · rintro (_ | ⟨there, flaw⟩)
        exact ⟨_, there, flaw⟩
      · rintro ⟨_, there, flaw⟩
        exact .sources there flaw
    · cases here
      refine hlayers.of_iff fun rank path => ⟨?_, ?_⟩
      · rintro (_ | _ | ⟨there, flaw⟩)
        exact ⟨_, there, flaw⟩
      · rintro ⟨_, there, flaw⟩
        exact .layers there flaw
    · cases here
  · rintro rank path (flaw | ⟨there, flaw⟩ | ⟨there, flaw⟩)
    all_goals exact ⟨_, _, _, rfl, rfl⟩

/-! ## The grammar -/

theorem sourcesViolation?_eq_none_iff {value : Json} :
    sourcesViolation? (some value) = none ↔ value = .null ∨
      ∃ entries, value = .object entries ∧ ∀ entry ∈ entries, entry.2.Follows Source.grammar := by
  cases value with
  | object entries =>
    simp [sourcesViolation?_object_eq_none_iff, follows_iff Source.checks_fields]
  | _ => simp [sourcesViolation?]

theorem layersViolation?_eq_none_iff {value : Json} :
    layersViolation? (some value) = none ↔ value = .null ∨
      ∃ items, value = .array items ∧ ∀ item ∈ items, item.Follows Layer.grammar := by
  cases value with
  | array items =>
    simp [layersViolation?_array_eq_none_iff, IsLayer, follows_iff Layer.checks_fields]
  | _ => simp [layersViolation?]

theorem search_eq_none_iff (search : Option Json → Option Violation) {found : Option Json}
    (absent : search none = none) :
    search found = none ↔ ∀ value, found = some value → search (some value) = none := by
  cases found with
  | none => simp [absent]
  | some value => simp

/-- The violations that are looked for are those of the grammar. -/
theorem violation?_eq_none_iff_grammatical {members : List (String × Json)} :
    violation? members = none ↔ Grammatical members := by
  rw [violation?_eq_none_iff, ← forall_kept_iff checks_texts,
    search_eq_none_iff sourcesViolation? rfl, search_eq_none_iff layersViolation? rfl]
  simp only [sourcesViolation?_eq_none_iff, layersViolation?_eq_none_iff]
  exact ⟨fun ⟨texts, sources, layers⟩ => ⟨texts, sources, layers⟩,
    fun ⟨texts, sources, layers⟩ => ⟨texts, sources, layers⟩⟩

/-- A strict reading accepts the styles and no other document. It reports any other at its first
    flaw: at the member of the wrong shape, or at the object that lacks one. A document that is not
    an object has no place to report. -/
theorem ofJson_strict_exact (value : Json) :
    ((∃ style, ofJson .strict value = .ok style) ↔ value.IsStyle) ∧
    ∀ e, ofJson .strict value = .error e → e.kind = .schema ∧
      match value with
      | .object members => ∃ path, FirstFlaw (Flaw members) path ∧ e.path = some path.text
      | _ => e.path = none := by
  constructor
  · simp only [ofJson_strict_iff, Json.IsStyle, violation?_eq_none_iff_grammatical]
    constructor
    · rintro ⟨_, members, hvalue, grammatical, -⟩
      exact ⟨members, hvalue, grammatical⟩
    · rintro ⟨members, hvalue, grammatical⟩
      exact ⟨read members, members, hvalue, grammatical, rfl⟩
  · intro e refused
    cases value with
    | object members =>
      have hfirst := pinpoints_violation? members
      cases hfound : violation? members with
      | none => simp [ofJson, hfound] at refused
      | some violation =>
        rw [hfound] at hfirst
        obtain rfl : violation.toError = e := by simpa [ofJson, hfound] using refused
        exact ⟨rfl, violation.path, hfirst, rfl⟩
    | _ =>
      cases refused
      exact ⟨rfl, rfl⟩

/-- All three layers are at fault, the first one twice: its source is checked before the zoom that
    is written first. -/
theorem ofJson_strict_first_of_many :
    let members : List (String × Json) :=
      [("layers", .array [
          .object [("minzoom", .string "1"), ("type", .string "fill"), ("source", .ofNat 5),
            ("id", .string "a")],
          .object [("paint", .array [])],
          .null]),
        ("name", .null), ("sources", .object [("a", .object [("type", .string "vector")])])]
    let e : DocumentError :=
      { kind := .schema, message := "invalid type: integer `5`, expected a string"
        path := some "layers[0].source" }
    ofJson .strict (.object members) = .error e ∧ e.kind = .schema ∧
      ∃ path, FirstFlaw (Flaw members) path ∧ e.path = some path.text := by
  intro members e
  have refused : ofJson .strict (.object members) = .error e := by decide +kernel
  exact ⟨refused, (ofJson_strict_exact (.object members)).2 e refused⟩

end Style

end CartoStyle
