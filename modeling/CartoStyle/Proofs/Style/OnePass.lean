import CartoStyle.Proofs.Style.Strict

set_option autoImplicit false

/-! # Reading a style in one pass

A style can be read field by field: each field is taken out of the members that were not read yet,
and is decoded, refused or put aside before the next one is looked at (`FieldReader`). What to do
with a value that does not fit is asked of the mode at that moment, at every field of the document,
of its sources and of its layers.

Checking all fields first and reading afterwards comes to the same (`Style.ofJson_eq_ofMembers`):
what one field leaves behind does not change what the next one finds, because the fields have
different keys. -/

namespace CartoStyle

/-! ## Field readers -/

/-- The members that were not read yet, and those that were and did not fit. -/
structure FieldReader where
  unread : List (String × Json)
  aside : List (String × Json) := []

/-- Reading from the members of an object, until a violation. -/
abbrev Reading (α : Type) := StateT FieldReader (Except Violation) α

namespace FieldReader

variable {α : Type}

/-- Take a member out of those that were not read yet. -/
def take (key : String) : Reading (Option Json) := do
  let reader ← get
  set { reader with unread := Members.erase key reader.unread }
  return reader.unread.lookup key

/-- Put a member aside: nothing is read. -/
def setAside (key : String) (value : Json) : Reading (Option α) := do
  modify fun reader => { reader with aside := reader.aside ++ [(key, value)] }
  return none

/-- Decode the value of a field. One that does not fit is refused or put aside. -/
def typed (mode : Style.Mode) (base : Path) (key : String) (shape : Shape α) (value : Json) :
    Reading (Option α) :=
  match shape.read value, mode with
  | some a, _ => return some a
  | none, .strict => throw ⟨base ++ [.member key], .mismatch value shape.expected⟩
  | none, .lenient => setAside key value

/-- Read a field that may be missing. Null is put aside in both modes. -/
def optional (mode : Style.Mode) (base : Path) (key : String) (shape : Shape α) :
    Reading (Option α) := do
  match ← take key with
  | none => return none
  | some .null => setAside key .null
  | some value => typed mode base key shape value

/-- Read a field that a strict reading asks for. -/
def mandatory (mode : Style.Mode) (base : Path) (key : String) (shape : Shape α) :
    Reading (Option α) := do
  match ← take key, mode with
  | some value, _ => typed mode base key shape value
  | none, .lenient => return none
  | none, .strict => throw ⟨base, .missing key⟩

/-- All that no field took. -/
def finish : Reading (List (String × Json)) := do
  let reader ← get
  return reader.aside ++ reader.unread

/-- A container that cannot be decoded. Null is put aside in both modes. -/
def misfit (mode : Style.Mode) (key expected : String) (value : Json) : Reading (Option α) :=
  if mode = .strict ∧ ¬value.isNull then throw ⟨[.member key], .notAContainer key expected value⟩
  else setAside key value

/-- Read a container. A lenient reading decodes it only when all its entries are objects. -/
def container {β : Type} (mode : Style.Mode) (key : String) (shape : Shape (List β))
    (entries? : Json → Option (List α)) (isObject : α → Bool)
    (decode : α → Except Violation β) : Reading (Option (List β)) := do
  match ← take key with
  | none => return none
  | some value =>
    match (entries? value).filter fun entries => mode = .strict ∨ entries.all isObject with
    | some entries => do
      let decoded ← (entries.mapM decode : Except Violation (List β))
      return some decoded
    | none => misfit mode key shape.expected value

/-- Read the members of an object with fields. -/
def run (reading : Reading α) (members : List (String × Json)) : Except Violation α :=
  (reading ⟨members, []⟩).map Prod.fst

/-- Read an entry of a container. -/
def entry (read : Path → List (String × Json) → Except Violation α) (path : Path) :
    Json → Except Violation α
  | .object members => read path members
  | other => .error ⟨path, .notAnObject other⟩

end FieldReader

open FieldReader

/-! ## Sources, layers and styles -/

/-- Read a source field by field. -/
def Source.ofMembers (mode : Style.Mode) (base : Path) (members : List (String × Json)) :
    Except Violation Source :=
  run (do
    let kind ← mandatory mode base "type" .text
    let extra ← finish
    return { kind := kind.map SourceKind.ofText, extra, order := Members.keys members }) members

/-- Read a layer field by field. -/
def Layer.ofMembers (mode : Style.Mode) (base : Path) (members : List (String × Json)) :
    Except Violation Layer :=
  run (do
    let id ← mandatory mode base "id" .text
    let kind ← mandatory mode base "type" .text
    let source ← optional mode base "source" .text
    let sourceLayer ← optional mode base "source-layer" .text
    let minzoom ← optional mode base "minzoom" .number
    let maxzoom ← optional mode base "maxzoom" .number
    let filter ← optional mode base "filter" .expression
    let layout ← optional mode base "layout" .block
    let paint ← optional mode base "paint" .block
    let extra ← finish
    return { id, kind := kind.map LayerKind.ofText, source, sourceLayer, minzoom, maxzoom, filter,
             layout, paint, extra, order := Members.keys members }) members

/-- Read a style field by field. -/
def Style.ofMembers (mode : Mode) (members : List (String × Json)) : Except Violation Style :=
  run (do
    let version ← take "version"
    let name ← optional mode [] "name" .text
    let metadata ← take "metadata"
    let sprite ← take "sprite"
    let glyphs ← optional mode [] "glyphs" .text
    let sources ← container mode "sources" .sources Json.asObject? (·.2.isObject) fun (key, v) =>
      (entry (Source.ofMembers mode) [.member "sources", .member key] v).map (key, ·)
    let layers ← container mode "layers" .layers (·.asArray?.map (·.zipIdx)) (·.1.isObject)
      fun (v, position) => entry (Layer.ofMembers mode) [.member "layers", .index position] v
    let extra ← finish
    return { version, name, metadata, sprite, glyphs, sources, layers, extra,
             order := Members.keys members }) members

/-! ## Outcomes -/

namespace Style.Mode

variable {α β : Type} {mode : Mode} {violation : Option Violation}

/-- What a reading comes to when only a strict one refuses a violation. -/
def outcome (mode : Mode) (violation : Option Violation) (a : α) : Except Violation α :=
  match mode, violation with
  | .strict, some v => .error v
  | _, _ => .ok a

@[simp]
theorem outcome_none (a : α) : mode.outcome none a = .ok a := by
  cases mode <;> rfl

theorem map_outcome (f : α → β) (a : α) :
    (mode.outcome violation a).map f = mode.outcome violation (f a) := by
  cases mode <;> cases violation <;> rfl

/-- The first of two violations decides. -/
theorem outcome_bind {violation' : Option Violation} {a : α} {f : α → Except Violation β} {b : β}
    (h : f a = mode.outcome violation' b) :
    mode.outcome violation a >>= f = mode.outcome (violation.or violation') b := by
  cases mode with
  | lenient => exact h
  | strict =>
    cases violation with
    | none => exact h
    | some v => rfl

/-- What is read matters only when nothing is refused. -/
theorem outcome_congr {a b : α} (h : mode = .lenient ∨ violation = none → a = b) :
    mode.outcome violation a = mode.outcome violation b := by
  cases mode with
  | lenient => rw [h (.inl rfl)]
  | strict =>
    cases violation with
    | none => rw [h (.inr rfl)]
    | some v => rfl

/-- Decoding in turn is refused for the first violation. -/
theorem mapM_outcome {as : List α} {decode : α → Except Violation β}
    {violation? : α → Option Violation} {read : α → β}
    (h : ∀ a ∈ as, decode a = mode.outcome (violation? a) (read a)) :
    as.mapM decode = mode.outcome (as.findSome? violation?) (as.map read) := by
  induction as with
  | nil => exact (outcome_none _).symm
  | cons a rest ih =>
    have hfirst : (a :: rest).findSome? violation? =
        (violation? a).or (rest.findSome? violation?) := by
      rw [List.findSome?_cons]
      cases violation? a <;> rfl
    have hrest : rest.mapM decode >>= (fun bs => pure (read a :: bs)) =
        mode.outcome (rest.findSome? violation?) (read a :: rest.map read) := by
      rw [ih fun a hm => h a (List.mem_cons_of_mem _ hm)]
      exact map_outcome (read a :: ·) _
    rw [List.mapM_cons, h a (List.mem_cons_self ..), hfirst]
    exact outcome_bind hrest

end Style.Mode

/-! ## Steps of a reading -/

namespace FieldReader

variable {α β : Type} {mode : Style.Mode} {members : List (String × Json)}
  {done fields : List Field} {field : Field}

/-- Where a reading stands when it has read some fields. -/
def after (done : List Field) (members : List (String × Json)) : FieldReader :=
  { unread := members.filter fun member => !(done.map (·.key)).contains member.1
    aside := done.filterMap (Field.misfit? members) }

/-- Where a reading stands when it has taken a field and not yet looked at it. -/
def taken (done : List Field) (field : Field) (members : List (String × Json)) : FieldReader :=
  { unread := (after (done ++ [field]) members).unread
    aside := (after done members).aside }

/-- A field that was not read before is found as the object has it. -/
theorem take_after (fresh : field.key ∉ done.map (·.key)) :
    take field.key (after done members) =
      .ok (members.lookup field.key, taken done field members) := by
  have hlookup : (after done members).unread.lookup field.key = members.lookup field.key := by
    rw [after, Members.lookup_filter fun key => !(done.map (·.key)).contains key]
    simp [fresh]
  have herase : Members.erase field.key (after done members).unread =
      (after (done ++ [field]) members).unread := by
    simp only [Members.erase, after, List.filter_filter]
    refine List.filter_congr fun member _ => ?_
    simp only [List.map_append, List.map_cons, List.map_nil, List.contains_append,
      List.contains_cons, List.contains_nil, Bool.or_false, Bool.not_or, Bool.and_comm, bne]
  show Except.ok (_, _) = _
  rw [hlookup, herase]
  rfl

/-- A field without a misfit leaves nothing aside. -/
theorem taken_eq_after (h : Field.misfit? members field = none) :
    taken done field members = after (done ++ [field]) members := by
  simp [taken, after, h]

theorem taken_of_missing (missing : members.lookup field.key = none) :
    taken done field members = after (done ++ [field]) members :=
  taken_eq_after (by simp [Field.misfit?, missing])

theorem taken_of_fits {value : Json} (there : members.lookup field.key = some value)
    (fits : field.fits value) : taken done field members = after (done ++ [field]) members :=
  taken_eq_after (by simp [Field.misfit?, there, fits])

/-- A field that does not fit is put aside. -/
theorem setAside_taken {value : Json} (there : members.lookup field.key = some value)
    (misfits : ¬field.fits value) :
    (setAside field.key value : Reading (Option α)) (taken done field members) =
      .ok (none, after (done ++ [field]) members) := by
  have haside : (after done members).aside ++ [(field.key, value)] =
      (after (done ++ [field]) members).aside := by
    simp [after, Field.misfit?, there, misfits]
  show Except.ok (none, FieldReader.mk (after (done ++ [field]) members).unread
    ((after done members).aside ++ [(field.key, value)])) = _
  rw [haside]

/-- A value is decoded when it fits, and else refused or put aside. -/
theorem typed_taken {base : Path} {key : String} {required : Bool} {shape : Shape α} {value : Json}
    (there : members.lookup key = some value) :
    typed mode base key shape value
        (taken done ⟨key, required, shape.expected, shape.Fits⟩ members) =
      mode.outcome
        (if shape.Fits value then none
          else some ⟨base ++ [.member key], .mismatch value shape.expected⟩)
        (shape.read value,
          after (done ++ [⟨key, required, shape.expected, shape.Fits⟩]) members) := by
  cases hread : shape.read value with
  | some a =>
    have fits : shape.Fits value = true := by simp [Shape.Fits, hread]
    rw [if_pos fits, Style.Mode.outcome_none, ← taken_of_fits there fits]
    simp only [typed, hread]
    rfl
  | none =>
    have misfits : ¬shape.Fits value = true := by simp [Shape.Fits, hread]
    rw [if_neg misfits]
    simp only [typed, hread]
    cases mode with
    | strict => rfl
    | lenient => exact setAside_taken there misfits

/-- A container that does not fit is refused or put aside. -/
theorem misfit_taken {key : String} {shape : Shape α} {value : Json}
    (there : members.lookup key = some value) (misfits : shape.read value = none) :
    (misfit mode key shape.expected value : Reading (Option α))
        (taken done (.optional key shape) members) =
      mode.outcome
        (if value.isNull then none
          else some ⟨[.member key], .notAContainer key shape.expected value⟩)
        (none, after (done ++ [.optional key shape]) members) := by
  have haside :
      (setAside key value : Reading (Option α)) (taken done (.optional key shape) members) =
        .ok (none, after (done ++ [.optional key shape]) members) :=
    setAside_taken there (by simp [Field.optional, Shape.Fits, misfits])
  by_cases hnull : value.isNull = true
  · rw [if_pos hnull, Style.Mode.outcome_none, misfit, if_neg (by simp [hnull])]
    exact haside
  · rw [if_neg hnull]
    cases mode with
    | strict =>
      rw [misfit, if_pos ⟨rfl, hnull⟩]
      rfl
    | lenient =>
      rw [misfit, if_neg (by simp)]
      exact haside

/-- Whether a reading that has read some fields reads further ones: it is refused for the first of
    their violations, and finds a value. -/
def Reads (mode : Style.Mode) (members : List (String × Json)) (done fields : List Field)
    (violations : List (Option Violation)) (reading : Reading α) (a : α) : Prop :=
  reading (after done members) =
    mode.outcome (violations.findSome? id) (a, after (done ++ fields) members)

namespace Reads

/-- A reading of a whole object starts with all its members. -/
theorem run (fields : List Field) {reading : Reading α} {violations : List (Option Violation)}
    {a : α} (h : Reads mode members [] fields violations reading a) :
    FieldReader.run reading members = mode.outcome (violations.findSome? id) a := by
  have hstart : (⟨members, []⟩ : FieldReader) = after [] members := by
    simp [after]
  rw [FieldReader.run, hstart, h]
  exact Style.Mode.map_outcome Prod.fst _

theorem run_fields {base : Path} {reading : Reading α} {a : α}
    (h : Reads mode members [] fields (fields.map (Field.violation? base members)) reading a) :
    FieldReader.run reading members =
      mode.outcome (fields.findSome? (Field.violation? base members)) a := by
  rw [run fields h, List.findSome?_map]
  rfl

/-- Fields are read one after the other. -/
theorem cons {violation : Option Violation} {violations : List (Option Violation)}
    {reading : Reading α} {next : α → Reading β} {a : α} {b : β}
    (h : Reads mode members done [field] [violation] reading a)
    (h' : Reads mode members (done ++ [field]) fields violations (next a) b) :
    Reads mode members done (field :: fields) (violation :: violations) (reading >>= next) b := by
  have hfirst : (violation :: violations).findSome? id =
      ([violation].findSome? id).or (violations.findSome? id) := by
    rw [← List.findSome?_append]
    rfl
  rw [Reads, hfirst, List.append_cons]
  -- The next fields are read from where the first one has left the reader.
  show reading _ >>= (fun (a, reader) => next a reader) = _
  rw [h]
  exact Style.Mode.outcome_bind h'

/-- In the end there is what no field took. -/
theorem finish (f : List (String × Json) → α) :
    Reads mode members done [] [] (do let extra ← finish; return f extra)
      (f (Field.leftover done members)) := by
  rw [Reads, List.append_nil]
  exact (Style.Mode.outcome_none _).symm

/-- A field that was not read before is taken, and then what was found is looked at. -/
theorem of_taken {violation : Option Violation} {look : Option Json → Reading α}
    {a : α} (fresh : field.key ∉ done.map (·.key))
    (h : look (members.lookup field.key) (taken done field members) =
      mode.outcome violation (a, after (done ++ [field]) members)) :
    Reads mode members done [field] [violation] (FieldReader.take field.key >>= look) a := by
  have hone : [violation].findSome? id = violation := by
    cases violation <;> rfl
  rw [Reads, hone]
  show FieldReader.take field.key _ >>= (fun (found, reader) => look found reader) = _
  rw [take_after fresh]
  exact h

/-- A member is taken as it is. -/
theorem take {key : String} (fresh : key ∉ done.map (·.key)) :
    Reads mode members done [.optional key .any] [none] (take key)
      (Shape.any.get? key members) := by
  have hread : Shape.any.get? key members = members.lookup key := by
    simp [Shape.get?, Shape.any]
  have hmisfit : Field.misfit? members (.optional key .any) = none := by
    unfold Field.misfit?
    split <;> rfl
  rw [← bind_pure (FieldReader.take key), hread]
  refine of_taken fresh ?_
  rw [Style.Mode.outcome_none, ← taken_eq_after hmisfit]
  rfl

/-- A field that must be there. -/
theorem mandatory {base : Path} {key : String} {shape : Shape α}
    (fresh : key ∉ done.map (·.key)) :
    Reads mode members done [.mandatory key shape]
      [Field.violation? base members (.mandatory key shape)] (mandatory mode base key shape)
      (shape.get? key members) := by
  refine of_taken fresh ?_
  cases there : members.lookup key with
  | none =>
    simp only [Field.mandatory, Field.violation?, Shape.get?, there]
    cases mode with
    | strict => rfl
    | lenient => exact congrArg (fun reader => Except.ok (none, reader)) (taken_of_missing there)
  | some value =>
    simp only [Field.mandatory, Field.violation?, Shape.get?, there, not_true_eq_false, and_false,
      or_false, Option.bind_some]
    exact typed_taken there

/-- A field that may be missing. -/
theorem optional {base : Path} {key : String} {shape : Shape α}
    (fresh : key ∉ done.map (·.key)) (notNull : shape.read .null = none) :
    Reads mode members done [.optional key shape]
      [Field.violation? base members (.optional key shape)] (optional mode base key shape)
      (shape.get? key members) := by
  refine of_taken fresh ?_
  cases there : members.lookup key with
  | none =>
    rw [Field.violation?, ← taken_of_missing there]
    simp only [Field.optional, Shape.get?, there]
    exact (Style.Mode.outcome_none _).symm
  | some value =>
    cases value with
    | null =>
      -- Null fits no shape but is no violation either, so both modes put it aside.
      have misfits : ¬shape.Fits .null = true := by simp [Shape.Fits, notNull]
      simp only [Field.optional, Field.violation?, Shape.get?, there, Json.isNull,
        Bool.false_eq_true, not_false_eq_true, and_self, or_true, if_true, Option.bind_some, notNull]
      exact (setAside_taken there misfits).trans (Style.Mode.outcome_none _).symm
    | _ =>
      simp only [Field.optional, Field.violation?, Shape.get?, there, Json.isNull,
        Bool.false_eq_true, false_and, or_false, Option.bind_some]
      exact typed_taken there

/-- A container whose entries should all be objects. A strict reading of other entries is refused,
    so the guard of the lenient reading changes nothing there. -/
theorem container {key : String} {shape : Shape (List β)} {entries? : Json → Option (List α)}
    {isObject : α → Bool} {decode : α → Except Violation β}
    {violation : Option Json → Option Violation} (entryViolation? : α → Option Violation)
    (read : α → β) (fresh : key ∉ done.map (·.key)) (absent : violation none = none)
    (present : ∀ value, violation (some value) =
      match entries? value with
      | some entries => entries.findSome? entryViolation?
      | none =>
        if value.isNull then none
        else some ⟨[.member key], .notAContainer key shape.expected value⟩)
    (shaped : ∀ value, shape.read value =
      (entries? value).bind fun entries =>
        if entries.all isObject then some (entries.map read) else none)
    (object : ∀ entry, entryViolation? entry = none → isObject entry)
    (each : ∀ entry, mode = .strict ∨ isObject entry →
      decode entry = mode.outcome (entryViolation? entry) (read entry)) :
    Reads mode members done [.optional key shape] [violation (members.lookup key)]
      (container mode key shape entries? isObject decode) (shape.get? key members) := by
  refine of_taken fresh ?_
  cases there : members.lookup key with
  | none =>
    rw [absent, Style.Mode.outcome_none, ← taken_of_missing there]
    simp only [Field.optional, Shape.get?, there]
    rfl
  | some value =>
    have hread : shape.get? key members = shape.read value := by simp [Shape.get?, there]
    rw [present, hread]
    cases hentries : entries? value with
    | none =>
      have misfits : shape.read value = none := by simp [shaped, hentries]
      simp only [Field.optional, there, hentries, misfits]
      exact misfit_taken there misfits
    | some entries =>
      simp only [Field.optional, there, hentries, Option.filter_some]
      by_cases guarded : mode = .strict ∨ entries.all isObject = true
      · have hdecoded : entries.mapM decode =
            mode.outcome (entries.findSome? entryViolation?) (entries.map read) :=
          Style.Mode.mapM_outcome fun entry hm =>
            each entry (guarded.imp_right fun hall => List.all_eq_true.1 hall entry hm)
        have hlift : ∀ (found : Except Violation (List β)) (reader : FieldReader),
            (do let decoded ← found; return some decoded : Reading (Option (List β))) reader =
              found.map fun decoded => (some decoded, reader) := by
          intro found reader
          cases found <;> rfl
        rw [if_pos (by simpa using guarded)]
        refine (hlift _ _).trans ?_
        rw [hdecoded, Style.Mode.map_outcome]
        -- Nothing is refused, so all entries are objects and the container fits.
        refine Style.Mode.outcome_congr fun accepted => ?_
        have hall : entries.all isObject = true := by
          rcases accepted with rfl | hnone
          · simpa using guarded
          · exact List.all_eq_true.2 fun entry hm =>
              object entry (List.findSome?_eq_none_iff.1 hnone entry hm)
        have hread : shape.read value = some (entries.map read) := by
          rw [shaped, hentries, Option.bind_some, if_pos hall]
        rw [hread, taken_of_fits there (by simp [Shape.Fits, hread])]
      · -- Only a lenient reading gets here. One entry is no object, so it puts aside the container.
        rw [if_neg (by simpa using guarded)]
        obtain ⟨hmode, hall⟩ := not_or.1 guarded
        have misfits : shape.read value = none := by
          rw [shaped, hentries, Option.bind_some, if_neg hall]
        cases mode with
        | strict => exact absurd rfl hmode
        | lenient =>
          rw [misfits]
          exact misfit_taken there misfits

end Reads

end FieldReader

/-! ## Objects -/

open FieldReader

theorem Source.ofMembers_eq (mode : Style.Mode) (base : Path) (members : List (String × Json)) :
    ofMembers mode base members =
      mode.outcome (fields.findSome? (Field.violation? base members)) (read members) := by
  unfold ofMembers
  refine Reads.run_fields ?_
  exact .cons (.mandatory (by decide)) <| .finish _

theorem Layer.ofMembers_eq (mode : Style.Mode) (base : Path) (members : List (String × Json)) :
    ofMembers mode base members =
      mode.outcome (fields.findSome? (Field.violation? base members)) (read members) := by
  unfold ofMembers
  refine Reads.run_fields ?_
  exact .cons (.mandatory (by decide)) <| .cons (.mandatory (by decide)) <|
    .cons (.optional (by decide) rfl) <| .cons (.optional (by decide) rfl) <|
    .cons (.optional (by decide) rfl) <| .cons (.optional (by decide) rfl) <|
    .cons (.optional (by decide) rfl) <| .cons (.optional (by decide) rfl) <|
    .cons (.optional (by decide) rfl) <| .finish _

/-! ## Containers -/

/-- An entry that is an object is read as one; a strict reading refuses all others. -/
theorem entry_eq {α : Type} {mode : Style.Mode} {fields : List Field} {path : Path} {value : Json}
    {ofMembers : Path → List (String × Json) → Except Violation α} {read : List (String × Json) → α}
    (h : ∀ members, ofMembers path members =
      mode.outcome (fields.findSome? (Field.violation? path members)) (read members))
    (guarded : mode = .strict ∨ value.isObject) :
    entry ofMembers path value =
      mode.outcome (Style.entryViolation? fields path value) (read (value.asObject?.getD [])) := by
  cases value with
  | object members => exact h members
  | _ =>
    obtain rfl : mode = .strict := by simpa [Json.isObject] using guarded
    rfl

theorem isObject_of_entryViolation? {fields : List Field} {path : Path} {value : Json}
    (h : Style.entryViolation? fields path value = none) : value.isObject := by
  cases value with
  | object members => rfl
  | _ => simp [Style.entryViolation?] at h

/-- Reading objects from a list succeeds when all its elements are objects. -/
theorem mapM_asObject? {α β : Type} (value : α → Json) (read : α → List (String × Json) → β)
    (as : List α) :
    (as.mapM fun a => (value a).asObject?.map (read a)) =
      if as.all fun a => (value a).isObject then
        some (as.map fun a => read a ((value a).asObject?.getD []))
      else none := by
  induction as with
  | nil => rfl
  | cons a rest ih =>
    rw [List.mapM_cons, ih, List.all_cons, List.map_cons]
    cases value a with
    | object members =>
      cases rest.all fun a => (value a).isObject <;> rfl
    | _ => rfl

theorem reads_sources {mode : Style.Mode} {members : List (String × Json)} {done : List Field}
    (fresh : "sources" ∉ done.map (·.key)) :
    Reads mode members done [.optional "sources" .sources]
      [Style.sourcesViolation? (members.lookup "sources")]
      (container mode "sources" .sources Json.asObject? (·.2.isObject) fun (key, v) =>
        (entry (Source.ofMembers mode) [.member "sources", .member key] v).map (key, ·))
      (Shape.sources.get? "sources" members) := by
  refine .container
    (fun (key, v) => Style.entryViolation? Source.fields [.member "sources", .member key] v)
    (fun (key, v) => (key, Source.read (v.asObject?.getD []))) fresh rfl ?present ?shaped
    (fun _ => isObject_of_entryViolation?) ?each
  case present =>
    intro value
    cases value <;> rfl
  case shaped =>
    intro value
    show (value.asObject?.bind fun entries => entries.mapM fun entry =>
      entry.2.asObject?.map fun members => (entry.1, Source.read members)) = _
    simp only [mapM_asObject? Prod.snd fun entry members => (entry.1, Source.read members)]
  case each =>
    rintro ⟨key, v⟩ guarded
    simp only [entry_eq (Source.ofMembers_eq mode _) guarded, Style.Mode.map_outcome]

theorem reads_layers {mode : Style.Mode} {members : List (String × Json)} {done : List Field}
    (fresh : "layers" ∉ done.map (·.key)) :
    Reads mode members done [.optional "layers" .layers]
      [Style.layersViolation? (members.lookup "layers")]
      (container mode "layers" .layers (·.asArray?.map (·.zipIdx)) (·.1.isObject)
        fun (v, position) => entry (Layer.ofMembers mode) [.member "layers", .index position] v)
      (Shape.layers.get? "layers" members) := by
  refine .container
    (fun (v, position) =>
      Style.entryViolation? Layer.fields [.member "layers", .index position] v)
    (fun (v, _) => Layer.read (v.asObject?.getD [])) fresh rfl ?present ?shaped
    (fun _ => isObject_of_entryViolation?) ?each
  case present =>
    intro value
    cases value <;> rfl
  case shaped =>
    intro value
    show (value.asArray?.bind fun items => items.mapM fun v => v.asObject?.map Layer.read) = _
    cases value with
    | array items =>
      have hpositions := mapM_asObject? (fun entry : Json × Nat => entry.1) (fun _ => Layer.read)
        items.zipIdx
      have hitems : items.mapM (fun v => v.asObject?.map Layer.read) =
          items.zipIdx.mapM fun entry => entry.1.asObject?.map Layer.read := by
        conv_lhs => rw [← List.zipIdx_map_fst 0 items, List.mapM_map]
        rfl
      exact hitems.trans hpositions
    | _ => rfl
  case each =>
    rintro ⟨v, position⟩ guarded
    exact entry_eq (Layer.ofMembers_eq mode _) guarded

/-! ## Styles -/

theorem Style.ofMembers_eq (mode : Mode) (members : List (String × Json)) :
    ofMembers mode members = mode.outcome (violation? members) (read members) := by
  have hviolation : violation? members =
      [none, Field.violation? [] members (.optional "name" .text), none, none,
        Field.violation? [] members (.optional "glyphs" .text),
        sourcesViolation? (members.lookup "sources"),
        layersViolation? (members.lookup "layers")].findSome? id := by
    simp only [violation?, List.findSome?_cons, List.findSome?_nil, id]
    cases Field.violation? [] members (.optional "name" .text) <;>
      cases Field.violation? [] members (.optional "glyphs" .text) <;>
      cases sourcesViolation? (members.lookup "sources") <;>
      cases layersViolation? (members.lookup "layers") <;> rfl
  rw [hviolation]
  unfold ofMembers
  refine Reads.run fields ?_
  exact .cons (.take (by decide)) <| .cons (.optional (by decide) rfl) <|
    .cons (.take (by decide)) <| .cons (.take (by decide)) <|
    .cons (.optional (by decide) rfl) <| .cons (reads_sources (by decide)) <|
    .cons (reads_layers (by decide)) <| .finish _

/-- **Checking a style before it is read comes to the same as reading it in one pass.** -/
theorem Style.ofJson_eq_ofMembers (mode : Mode) (members : List (String × Json)) :
    ofJson mode (.object members) = (ofMembers mode members).mapError Violation.toError := by
  rw [ofMembers_eq]
  cases mode with
  | lenient => rfl
  | strict =>
    rw [ofJson]
    cases violation? members <;> rfl

end CartoStyle
