import CartoStyle.Proofs.Geo.Grammar

set_option autoImplicit false

/-! # The first flaw of geographic data

Decoding accepts the grammar and else reports the flaw that comes first in the document
(`GeoJson.decode_exact`). Places are ordered by their paths (`Path.Before`): a value comes before
what it holds, and the items of an array come from left to right. Every decoder finds the first flaw
of its value (`Locates`); one that decodes items in turn does when the decoder of an item does
(`locates_decodeItems`). -/

namespace CartoStyle

/-! ## The order of places -/

/-- Whether a place comes before another one: it holds the other one, or where the paths part it is
    an earlier item. -/
def Path.Before : Path → Path → Prop
  -- Two members of one object are not compared: of each object at most one is looked into.
  | [], _ :: _ => True
  | .index i :: rest, .index j :: rest' => i < j ∨ i = j ∧ Before rest rest'
  | .member key :: rest, .member key' :: rest' => key = key' ∧ Before rest rest'
  | _, _ => False

theorem Path.before_cons {step : Step} {path path' : Path} :
    Before (step :: path) (step :: path') ↔ Before path path' := by
  cases step <;> simp [Before]

theorem Path.Before.asymm {path path' : Path} (h : Before path path') : ¬Before path' path := by
  induction path generalizing path' with
  | nil => cases path' <;> simp [Before]
  | cons step rest ih =>
    cases path' with
    | nil => simp [Before] at h
    | cons step' rest' =>
      cases step <;> cases step' <;> simp only [Before] at h ⊢
      case member.member =>
        rintro ⟨-, h'⟩
        exact ih h.2 h'
      case index.index =>
        rintro (later | ⟨rfl, h'⟩)
        · omega
        · exact ih (by simpa using h) h'

/-- Whether a mistake is the first one: all others stand at later places. -/
def GeoMistake.First (flaws : Path → GeoMistake → Prop) (path : Path) (mistake : GeoMistake) :
    Prop :=
  flaws path mistake ∧
    ∀ path' mistake', flaws path' mistake' → path' = path ∧ mistake' = mistake ∨ path.Before path'

theorem GeoMistake.First.unique {flaws : Path → GeoMistake → Prop} {path path' : Path}
    {mistake mistake' : GeoMistake} (h : First flaws path mistake)
    (h' : First flaws path' mistake') :
    path' = path ∧ mistake' = mistake := by
  rcases h.2 path' mistake' h'.1 with same | before
  · exact same
  rcases h'.2 path mistake h.1 with ⟨rfl, rfl⟩ | after
  · exact ⟨rfl, rfl⟩
  · exact absurd after before.asymm

/-! ## Searches -/

/-- Whether the decoding of a value at `base` reports the first flaw, and succeeds only when there
    is none. -/
def Locates {α : Type} (flaws : Path → GeoMistake → Prop) (base : Path) : Except GeoError α → Prop
  | .ok _ => Flawless flaws
  | .error e => ∃ path mistake, GeoMistake.First flaws path mistake ∧
      e = mistake.report (base ++ path)

namespace Locates

variable {α β : Type} {flaws flaws' : Path → GeoMistake → Prop} {base : Path}

theorem of_iff {result : Except GeoError α} (h : Locates flaws base result)
    (same : ∀ path mistake, flaws' path mistake ↔ flaws path mistake) :
    Locates flaws' base result := by
  have : flaws' = flaws := by
    funext path mistake
    exact propext (same path mistake)
  rwa [this]

/-- What a success is made into does not matter. -/
theorem map {result : Except GeoError α} (f : α → β) (h : Locates flaws base result) :
    Locates flaws base (result.map f) := by
  cases result with
  | ok a => exact h
  | error e => exact h

/-- The only mistake at the value itself comes before all flaws inside. -/
theorem refuse (mistake : GeoMistake) (here : flaws [] mistake)
    (only : ∀ mistake', flaws [] mistake' → mistake' = mistake) :
    Locates flaws base (.error (mistake.report base) : Except GeoError α) := by
  refine ⟨[], mistake, ⟨here, fun path' mistake' flaw => ?_⟩, by rw [List.append_nil]⟩
  cases path' with
  | nil => exact .inl ⟨rfl, only mistake' flaw⟩
  | cons step rest => exact .inr trivial

/-- A single flaw is the first one. -/
theorem only (place : Path) (mistake : GeoMistake)
    (single : ∀ path' mistake', flaws path' mistake' ↔ path' = place ∧ mistake' = mistake) :
    Locates flaws base (.error (mistake.report (base ++ place)) : Except GeoError α) :=
  ⟨place, mistake, ⟨(single _ _).2 ⟨rfl, rfl⟩, fun _ _ flaw => .inl ((single _ _).1 flaw)⟩, rfl⟩

/-- When all flaws stand inside the value that one step leads to, it is enough to search there. -/
theorem step {result : Except GeoError α} {step : Step} (h : Locates flaws (base ++ [step]) result)
    (inside : ∀ path mistake, flaws' path mistake ↔
      ∃ rest, path = step :: rest ∧ flaws rest mistake) :
    Locates flaws' base result := by
  cases result with
  | ok a =>
    intro path mistake flaw
    obtain ⟨rest, -, flaw⟩ := (inside path mistake).1 flaw
    exact h rest mistake flaw
  | error e =>
    obtain ⟨path, mistake, ⟨here, first⟩, rfl⟩ := h
    refine ⟨step :: path, mistake, ⟨(inside _ _).2 ⟨path, rfl, here⟩, ?_⟩, by simp⟩
    intro path' mistake' flaw
    obtain ⟨rest, rfl, inner⟩ := (inside path' mistake').1 flaw
    rcases first rest mistake' inner with ⟨rfl, rfl⟩ | before
    · exact .inl ⟨rfl, rfl⟩
    · exact .inr (Path.before_cons.2 before)

end Locates

/-- The flaws of the items of a list, of which the first stands at `index`. -/
def ItemFlaw (flaws : Json → Path → GeoMistake → Prop) (index : Nat) (items : List Json)
    (path : Path) (mistake : GeoMistake) : Prop :=
  ∃ i item rest, items[i]? = some item ∧ path = .index (index + i) :: rest ∧ flaws item rest mistake

theorem itemFlaw_cons {flaws : Json → Path → GeoMistake → Prop} {index : Nat} {first : Json}
    {items : List Json} {path : Path} {mistake : GeoMistake} :
    ItemFlaw flaws index (first :: items) path mistake ↔
      (∃ rest, path = .index index :: rest ∧ flaws first rest mistake) ∨
        ItemFlaw flaws (index + 1) items path mistake := by
  constructor
  · rintro ⟨i, item, rest, here, rfl, flaw⟩
    cases i with
    | zero =>
      obtain rfl : first = item := by simpa using here
      exact .inl ⟨rest, rfl, flaw⟩
    | succ i => exact .inr ⟨i, item, rest, here, by rw [Nat.add_right_comm]; rfl, flaw⟩
  · rintro (⟨rest, rfl, flaw⟩ | ⟨i, item, rest, here, rfl, flaw⟩)
    · exact ⟨0, first, rest, rfl, rfl, flaw⟩
    · exact ⟨i + 1, item, rest, here, by rw [Nat.add_right_comm]; rfl, flaw⟩

/-- The flaws of all items of an array. -/
theorem itemFlaw_zero {flaws : Json → Path → GeoMistake → Prop} {items : List Json} {path : Path}
    {mistake : GeoMistake} :
    ItemFlaw flaws 0 items path mistake ↔ ∃ i item rest, items[i]? = some item ∧
      path = .index i :: rest ∧ flaws item rest mistake := by
  simp only [ItemFlaw, Nat.zero_add]

/-- Items decoded in turn: the first flaw is that of the first item that has one. -/
theorem locates_decodeItems {α : Type} {item : Path → Json → Except GeoError α}
    {flaws : Json → Path → GeoMistake → Prop} {items : List Json}
    (each : ∀ value ∈ items, ∀ base, Locates (flaws value) base (item base value)) (base : Path)
    (index : Nat) :
    Locates (ItemFlaw flaws index items) base (decodeItems item base index items) := by
  induction items generalizing index with
  | nil =>
    rintro path mistake ⟨i, value, rest, here, -⟩
    simp at here
  | cons first rest ih =>
    have hfirst := each first (List.mem_cons_self ..) (base ++ [.index index])
    have hrest := ih (fun value hm => each value (List.mem_cons_of_mem _ hm)) (index + 1)
    rw [decodeItems]
    cases hdecoded : item (base ++ [.index index]) first with
    | error e =>
      rw [hdecoded] at hfirst
      obtain ⟨path, mistake, ⟨here, before⟩, rfl⟩ := hfirst
      -- Other flaws of the first item come later within it, those of the rest stand at a later item.
      refine ⟨.index index :: path, mistake, ⟨itemFlaw_cons.2 (.inl ⟨path, rfl, here⟩), ?_⟩, ?_⟩
      · intro path' mistake' flaw
        rcases itemFlaw_cons.1 flaw with ⟨path', rfl, inner⟩ | ⟨i, _, path', -, rfl, -⟩
        · rcases before path' mistake' inner with ⟨rfl, rfl⟩ | hbefore
          · exact .inl ⟨rfl, rfl⟩
          · exact .inr (Path.before_cons.2 hbefore)
        · exact .inr (.inl (by omega))
      · simp
    | ok a =>
      -- The first item has no flaw, so the flaws of the list are those of the rest.
      rw [hdecoded] at hfirst
      have hsame : ∀ path mistake, ItemFlaw flaws index (first :: rest) path mistake ↔
          ItemFlaw flaws (index + 1) rest path mistake := by
        intro path mistake
        rw [itemFlaw_cons]
        refine or_iff_right ?_
        rintro ⟨path, rfl, flaw⟩
        exact hfirst path mistake flaw
      exact (hrest.map (a :: ·)).of_iff hsame

theorem length_of_decodeItems {α : Type} {item : Path → Json → Except GeoError α} {base : Path}
    {index : Nat} {items : List Json} {as : List α}
    (h : decodeItems item base index items = .ok as) : as.length = items.length := by
  induction items generalizing index as with
  | nil =>
    cases h
    rfl
  | cons first rest ih =>
    rw [decodeItems] at h
    obtain ⟨a, -, h⟩ := bind_eq_ok.1 h
    obtain ⟨as', hrest, h⟩ := bind_eq_ok.1 h
    cases h
    rw [List.length_cons, List.length_cons, ih hrest]

/-- The flaws of a member that should be an array: it is none, or its items have flaws. -/
inductive MemberFlaw (flaws : Json → Path → GeoMistake → Prop) (key : String)
    (members : List (String × Json)) : Path → GeoMistake → Prop
  | notAnArray (other : ∀ items, members.lookup key ≠ some (.array items)) :
      MemberFlaw flaws key members [.member key] (.shape .notAnArray)
  | item {items : List Json} {i : Nat} {item : Json} {path : Path} {mistake : GeoMistake}
      (there : members.lookup key = some (.array items)) (here : items[i]? = some item)
      (flaw : flaws item path mistake) :
      MemberFlaw flaws key members (.member key :: .index i :: path) mistake

/-- A member whose items are decoded in turn, and which may be missing. -/
theorem locates_memberItems {α β : Type} {item : Path → Json → Except GeoError α}
    {flaws : Json → Path → GeoMistake → Prop} {key : String} {members : List (String × Json)}
    (f : List α → β)
    (each : ∀ items, members.lookup key = some (.array items) →
      ∀ value ∈ items, ∀ base, Locates (flaws value) base (item base value)) (base : Path) :
    Locates (MemberFlaw flaws key members) base
      (match members.lookup key with
        | some (.array items) => (decodeItems item (base ++ [.member key]) 0 items).map f
        | _ => .error (.invalidGeometry (base ++ [.member key]) .notAnArray)) := by
  split
  · next items there =>
    have hitems := locates_decodeItems (each items there) (base ++ [.member key]) 0
    refine (hitems.map f).step fun path mistake => ?_
    simp only [itemFlaw_zero]
    constructor
    · rintro (other | ⟨there', here, flaw⟩)
      · exact absurd there (other items)
      · cases there.symm.trans there'
        exact ⟨_, rfl, _, _, _, here, rfl, flaw⟩
    · rintro ⟨_, rfl, i, value, rest, here, rfl, flaw⟩
      exact .item there here flaw
  · next other =>
    refine .only [.member key] (.shape .notAnArray) fun path mistake => ?_
    constructor
    · rintro (_ | ⟨there, -, -⟩)
      · exact ⟨rfl, rfl⟩
      · exact absurd there (other _)
    · rintro ⟨rfl, rfl⟩
      exact .notAnArray other

/-! ## Coordinates -/

open CartoStyle.Geometry

theorem locates_decodeOrdinate (value : Json) (base : Path) :
    Locates (fun path mistake => path = [] ∧ mistake = .shape .notANumber ∧ ∀ n, value ≠ .number n)
      base (decodeOrdinate base value) := by
  cases value with
  | number n =>
    rintro path mistake ⟨-, -, other⟩
    exact other n rfl
  | _ => exact .refuse (.shape .notANumber) ⟨rfl, rfl, by simp⟩ fun mistake' ⟨_, h, _⟩ => h

theorem locates_decodePosition (value : Json) (base : Path) :
    Locates (CoordinatesFlaw 0 value) base (decodePosition base value) := by
  cases value with
  | array items =>
    rw [decodePosition]
    by_cases few : items.length < 2
    · rw [if_pos few]
      refine .refuse (.shape (.shortPosition items.length)) (.short few) ?_
      rintro _ (other | _)
      · exact absurd rfl (other items)
      · rfl
    · rw [if_neg few]
      -- With two items at least, only items can be at fault.
      have hsame : ∀ path mistake, CoordinatesFlaw 0 (.array items) path mistake ↔
          ItemFlaw (fun value path mistake => path = [] ∧ mistake = .shape .notANumber ∧
            ∀ n, value ≠ .number n) 0 items path mistake := by
        intro path mistake
        rw [itemFlaw_zero]
        constructor
        · rintro (other | short | ⟨here, other⟩)
          · exact absurd rfl (other items)
          · exact absurd short few
          · exact ⟨_, _, [], here, rfl, rfl, rfl, other⟩
        · rintro ⟨i, item, _, here, rfl, rfl, rfl, other⟩
          exact .notANumber here other
      have hitems := (locates_decodeItems (fun value _ => locates_decodeOrdinate value) base
        0).of_iff hsame
      cases hdecoded : decodeItems decodeOrdinate base 0 items with
      | error e =>
        rw [hdecoded] at hitems
        exact hitems
      | ok ordinates =>
        rw [hdecoded] at hitems
        have hlength := length_of_decodeItems hdecoded
        -- As many ordinates were decoded as there are items, so the last check always succeeds.
        match ordinates with
        | x :: y :: more => exact hitems
        | [] | [_] => simp at hlength; omega
  | _ =>
    refine .refuse (.shape .notAPosition) (.notAPosition (by simp)) ?_
    rintro _ ⟨⟩
    rfl

/-- An array whose items are decoded in turn. -/
theorem locates_decodeArray {α : Type} {item : Path → Json → Except GeoError α} {depth : Nat}
    (each : ∀ value base, Locates (CoordinatesFlaw depth value) base (item base value))
    (value : Json) (base : Path) :
    Locates (CoordinatesFlaw (depth + 1) value) base (decodeArray item base value) := by
  cases value with
  | array items =>
    have hsame : ∀ path mistake, CoordinatesFlaw (depth + 1) (.array items) path mistake ↔
        ItemFlaw (CoordinatesFlaw depth) 0 items path mistake := by
      intro path mistake
      rw [itemFlaw_zero]
      constructor
      · rintro (_ | _ | _ | other | ⟨here, flaw⟩)
        · exact absurd rfl (other items)
        · exact ⟨_, _, _, here, rfl, flaw⟩
      · rintro ⟨i, item, rest, here, rfl, flaw⟩
        exact .item here flaw
    exact (locates_decodeItems (fun value _ => each value) base 0).of_iff hsame
  | _ =>
    refine .refuse (.shape .notAnArray) (.notAnArray (by simp)) ?_
    rintro _ ⟨⟩
    rfl

/-- The coordinates of a type are decoded as deep as its positions stand. -/
theorem locates_coordinateDecoder? {type : String}
    {decode : Path → Json → Except GeoError Geometry} (h : coordinateDecoder? type = some decode) :
    ∃ depth, coordinateDepth? type = some depth ∧
      ∀ value base, Locates (CoordinatesFlaw depth value) base (decode base value) := by
  have hline := locates_decodeArray locates_decodePosition
  have hlines := locates_decodeArray hline
  unfold coordinateDecoder? at h
  split at h
  · cases h
    exact ⟨0, rfl, fun value base => (locates_decodePosition value base).map _⟩
  · cases h
    exact ⟨1, rfl, fun value base => (hline value base).map _⟩
  · cases h
    exact ⟨1, rfl, fun value base => (hline value base).map _⟩
  · cases h
    exact ⟨2, rfl, fun value base => (hlines value base).map _⟩
  · cases h
    exact ⟨2, rfl, fun value base => (hlines value base).map _⟩
  · cases h
    exact ⟨3, rfl, fun value base => (locates_decodeArray hlines value base).map _⟩
  · cases h

theorem coordinateDecoder?_eq_none {type : String} (h : coordinateDecoder? type = none) :
    coordinateDepth? type = none := by
  unfold coordinateDecoder? at h
  split at h
  all_goals simp_all [coordinateDepth?]

/-! ## Types -/

theorem geoType_eq_ok_iff {members : List (String × Json)} {type : String} :
    geoType members = .ok type ↔ Json.Typed type members := by
  unfold geoType Json.Typed
  cases members.lookup "type" with
  | none => simp
  | some value => cases value <;> simp

/-- A type that is missing or no text is reported as what the object says. -/
theorem geoType_error {members : List (String × Json)} {e : GeoError}
    (h : geoType members = .error e) :
    e = .unsupportedType (Json.typeText members) ∧ ∀ type, ¬Json.Typed type members := by
  refine ⟨?_, fun type typed => by simp [geoType_eq_ok_iff.2 typed] at h⟩
  revert h
  unfold geoType Json.typeText
  cases members.lookup "type" with
  | none => simp [eq_comm]
  | some value => cases value <;> simp [eq_comm]

theorem Json.Typed.typeText_eq {members : List (String × Json)} {type : String}
    (h : Json.Typed type members) : Json.typeText members = type := by
  rw [typeText, h]

/-! ## Geometries -/

namespace Geometry

theorem decodeNested_eq (base : Path) (index : Nat) (items : List Json) :
    decodeNested base index items = decodeItems decode base index items := by
  induction items generalizing index with
  | nil => rfl
  | cons first rest ih =>
    rw [decodeNested, decodeItems, ih]
    cases decode (base ++ [.index index]) first with
    | error e => rfl
    | ok g => cases decodeItems decode base (index + 1) rest <;> rfl

/-- The geometries of a collection are the first member of that name. -/
theorem decodeMember_eq (base : Path) (members : List (String × Json)) :
    decodeMember base members =
      match members.lookup "geometries" with
      | some (.array items) => (decodeNested base 0 items).map .collection
      | _ => .error (.invalidGeometry base .notAnArray) := by
  induction members with
  | nil => rfl
  | cons member rest ih =>
    obtain ⟨key, value⟩ := member
    by_cases hkey : key = "geometries"
    · subst hkey
      cases value <;> simp [decodeMember]
    · rw [Members.lookup_cons_of_ne (Ne.symm hkey), ← ih]
      cases value <;> simp [decodeMember, hkey]

/-- Decoding a geometry, by its type. -/
theorem decode_object {members : List (String × Json)} {type : String} (base : Path)
    (typed : Json.Typed type members) :
    decode base (.object members) =
      if type = "GeometryCollection" then decodeMember (base ++ [.member "geometries"]) members
      else decodeCoordinates type (base ++ [.member "coordinates"])
        (members.lookup "coordinates") := by
  rw [decode, geoType_eq_ok_iff.2 typed]

/-- The flaws of an object whose type has no geometries. -/
theorem flaw_refused_iff {members : List (String × Json)} {path : Path} {mistake : GeoMistake}
    (refused : ¬∃ type, Json.Typed type members ∧ Supports type) :
    Flaw (.object members) path mistake ↔
      path = [] ∧ mistake = .type (Json.typeText members) := by
  constructor
  · intro flaw
    cases flaw with
    | notAnObject other => exact absurd rfl (other members)
    | type => exact ⟨rfl, rfl⟩
    | noCoordinates typed nesting => exact absurd ⟨_, typed, .inr nesting⟩ refused
    | coordinates typed nesting => exact absurd ⟨_, typed, .inr (by simp [nesting])⟩ refused
    | notACollection typed | item typed => exact absurd ⟨_, typed, .inl rfl⟩ refused
  · rintro ⟨rfl, rfl⟩
    exact .type refused

/-- The flaws of an object of a type that has coordinates. -/
theorem flaw_coordinates_iff {members : List (String × Json)} {type : String} {depth : Nat}
    {path : Path} {mistake : GeoMistake} (typed : Json.Typed type members)
    (nesting : coordinateDepth? type = some depth) :
    Flaw (.object members) path mistake ↔
      match members.lookup "coordinates" with
      | none => path = [.member "coordinates"] ∧ mistake = .shape .noCoordinates
      | some value => ∃ rest, path = .member "coordinates" :: rest ∧
          CoordinatesFlaw depth value rest mistake := by
  constructor
  · intro flaw
    cases flaw with
    | notAnObject other => exact absurd rfl (other members)
    | type refused => exact absurd ⟨type, typed, .inr (by simp [nesting])⟩ refused
    | noCoordinates _ _ absent =>
      rw [absent]
      exact ⟨rfl, rfl⟩
    | coordinates typed' nesting' there flaw =>
      obtain rfl := typed.unique typed'
      cases nesting.symm.trans nesting'
      rw [there]
      exact ⟨_, rfl, flaw⟩
    | notACollection typed' | item typed' =>
      obtain rfl := typed.unique typed'
      cases nesting
  · cases there : members.lookup "coordinates" with
    | none =>
      rintro ⟨rfl, rfl⟩
      exact .noCoordinates typed (by simp [nesting]) there
    | some value =>
      rintro ⟨rest, rfl, flaw⟩
      exact .coordinates typed nesting there flaw

/-- The flaws of a collection are those of its geometries. -/
theorem flaw_collection_iff {members : List (String × Json)} {path : Path} {mistake : GeoMistake}
    (typed : Json.Typed "GeometryCollection" members) :
    Flaw (.object members) path mistake ↔ MemberFlaw Flaw "geometries" members path mistake := by
  constructor
  · intro flaw
    cases flaw with
    | notAnObject other => exact absurd rfl (other members)
    | type refused => exact absurd ⟨_, typed, .inl rfl⟩ refused
    | noCoordinates typed' nesting | coordinates typed' nesting =>
      obtain rfl := typed.unique typed'
      cases nesting
    | notACollection _ other => exact .notAnArray other
    | item _ there here flaw => exact .item there here flaw
  · rintro (other | ⟨there, here, flaw⟩)
    · exact .notACollection typed other
    · exact .item typed there here flaw

/-- Coordinates that may be missing. -/
theorem locates_decodeCoordinates {members : List (String × Json)} {type : String} (base : Path)
    (typed : Json.Typed type members) (other : type ≠ "GeometryCollection") :
    Locates (Flaw (.object members)) base
      (decodeCoordinates type (base ++ [.member "coordinates"])
        (members.lookup "coordinates")) := by
  cases hdecoder : coordinateDecoder? type with
  | none =>
    have unsupported : ¬Supports type := by
      rintro (collection | nesting)
      · exact other collection
      · simp [coordinateDecoder?_eq_none hdecoder] at nesting
    have refused : ¬∃ type, Json.Typed type members ∧ Supports type := by
      rintro ⟨type', typed', supported⟩
      exact unsupported (typed.unique typed' ▸ supported)
    simp only [decodeCoordinates, hdecoder]
    rw [← typed.typeText_eq, ← List.append_nil base]
    exact .only [] _ fun _ _ => flaw_refused_iff refused
  | some decode =>
    obtain ⟨depth, nesting, hdecode⟩ := locates_coordinateDecoder? hdecoder
    have hflaws := fun path mistake => @flaw_coordinates_iff _ _ _ path mistake typed nesting
    simp only [decodeCoordinates, hdecoder]
    cases there : members.lookup "coordinates" with
    | none =>
      simp only [there] at hflaws
      exact .only _ _ hflaws
    | some value =>
      simp only [there] at hflaws
      exact (hdecode value _).step hflaws

/-- **Decoding a geometry reports its first flaw.** -/
theorem locates_decode (value : Json) (base : Path) :
    Locates (Flaw value) base (decode base value) := by
  induction value using Json.geometries_induction generalizing base with
  | step value ih =>
  cases value with
  | object members =>
    cases htype : geoType members with
    | error e =>
      obtain ⟨rfl, untyped⟩ := geoType_error htype
      rw [decode, htype, ← List.append_nil base]
      exact .only [] _ fun _ _ => flaw_refused_iff fun ⟨type, typed, _⟩ => untyped type typed
    | ok type =>
      have typed := geoType_eq_ok_iff.1 htype
      rw [decode_object base typed]
      by_cases hcollection : type = "GeometryCollection"
      · subst hcollection
        rw [if_pos rfl, decodeMember_eq]
        simp only [decodeNested_eq]
        exact (locates_memberItems Geometry.collection ih base).of_iff fun _ _ =>
          flaw_collection_iff typed
      · rw [if_neg hcollection]
        exact locates_decodeCoordinates base typed hcollection
  | _ =>
    refine .refuse (.shape .notAnObject) (.notAnObject (by simp)) ?_
    rintro _ ⟨⟩
    rfl

end Geometry

/-! ## Features -/

namespace Feature

/-- The flaws of an object that is no feature. -/
theorem flaw_refused_iff {members : List (String × Json)} {path : Path} {mistake : GeoMistake}
    (refused : ¬Json.Typed "Feature" members) :
    Flaw (.object members) path mistake ↔
      path = [] ∧ mistake = .type (Json.typeText members) := by
  constructor
  · intro flaw
    cases flaw with
    | notAnObject other => exact absurd rfl (other members)
    | type => exact ⟨rfl, rfl⟩
    | geometry typed => exact absurd typed refused
  · rintro ⟨rfl, rfl⟩
    exact .type refused

/-- The flaws of a feature are those of its geometry. -/
theorem flaw_typed_iff {members : List (String × Json)} {path : Path} {mistake : GeoMistake}
    (typed : Json.Typed "Feature" members) :
    Flaw (.object members) path mistake ↔
      ∃ value rest, members.lookup "geometry" = some value ∧ value ≠ .null ∧
        path = .member "geometry" :: rest ∧ Geometry.Flaw value rest mistake := by
  constructor
  · intro flaw
    cases flaw with
    | notAnObject other => exact absurd rfl (other members)
    | type refused => exact absurd typed refused
    | geometry _ there notNull flaw => exact ⟨_, _, there, notNull, rfl, flaw⟩
  · rintro ⟨value, rest, there, notNull, rfl, flaw⟩
    exact .geometry typed there notNull flaw

theorem locates_decodeMembers {members : List (String × Json)} (base : Path)
    (typed : Json.Typed "Feature" members) :
    Locates (Flaw (.object members)) base (decodeMembers base members) := by
  unfold decodeMembers
  refine Locates.map _ ?_
  cases there : members.lookup "geometry" with
  | none =>
    rintro path mistake flaw
    obtain ⟨value, rest, there', -⟩ := (flaw_typed_iff typed).1 flaw
    simp [there] at there'
  | some value =>
    by_cases hnull : value = .null
    · subst hnull
      rintro path mistake flaw
      obtain ⟨value, rest, there', notNull, -⟩ := (flaw_typed_iff typed).1 flaw
      cases there.symm.trans there'
      exact notNull rfl
    · have hdecode : decodeGeometry (base ++ [.member "geometry"]) (some value) =
          (Geometry.decode (base ++ [.member "geometry"]) value).map some := by
        cases value with
        | null => exact absurd rfl hnull
        | _ => rfl
      rw [hdecode]
      refine ((Geometry.locates_decode value _).map some).step fun path mistake => ?_
      simp [flaw_typed_iff typed, there, hnull]

/-- Decoding a feature reports its first flaw. -/
theorem locates_decode (value : Json) (base : Path) :
    Locates (Flaw value) base (decode base value) := by
  cases value with
  | object members =>
    rw [decode]
    cases htype : geoType members with
    | error e =>
      obtain ⟨rfl, untyped⟩ := geoType_error htype
      exact .only [] (.type _) fun _ _ => flaw_refused_iff (untyped "Feature")
    | ok type =>
      have typed := geoType_eq_ok_iff.1 htype
      by_cases hfeature : type = "Feature"
      · subst hfeature
        exact locates_decodeMembers base typed
      · have refused : ¬Json.Typed "Feature" members := fun typed' => hfeature (typed.unique typed')
        change Locates _ base (if type = "Feature" then _ else throw (.unsupportedType type))
        rw [if_neg hfeature, ← typed.typeText_eq, ← List.append_nil base]
        exact .only [] (.type _) fun _ _ => flaw_refused_iff refused
  | _ =>
    refine .refuse (.shape .notAnObject) (.notAnObject (by simp)) ?_
    rintro _ ⟨⟩
    rfl

end Feature

/-! ## Documents -/

namespace GeoJson

theorem flaw_feature_iff {members : List (String × Json)} {path : Path} {mistake : GeoMistake}
    (typed : Json.Typed "Feature" members) :
    Flaw (.object members) path mistake ↔ Feature.Flaw (.object members) path mistake := by
  refine ⟨fun flaw => ?_, .feature typed⟩
  cases flaw with
  | feature _ flaw => exact flaw
  | notACollection typed' | item typed' => exact absurd (typed.unique typed') (by decide)
  | geometry other => exact absurd typed (other members rfl).1

theorem flaw_collection_iff {members : List (String × Json)} {path : Path} {mistake : GeoMistake}
    (typed : Json.Typed "FeatureCollection" members) :
    Flaw (.object members) path mistake ↔
      MemberFlaw Feature.Flaw "features" members path mistake := by
  constructor
  · intro flaw
    cases flaw with
    | feature typed' => exact absurd (typed.unique typed') (by decide)
    | notACollection _ other => exact .notAnArray other
    | item _ there here flaw => exact .item there here flaw
    | geometry other => exact absurd typed (other members rfl).2
  · rintro (other | ⟨there, here, flaw⟩)
    · exact .notACollection typed other
    · exact .item typed there here flaw

theorem flaw_geometry_iff {value : Json} {path : Path} {mistake : GeoMistake}
    (other : ∀ members, value = .object members →
      ¬Json.Typed "Feature" members ∧ ¬Json.Typed "FeatureCollection" members) :
    Flaw value path mistake ↔ Geometry.Flaw value path mistake := by
  refine ⟨fun flaw => ?_, .geometry other⟩
  cases flaw with
  | feature typed => exact absurd typed (other _ rfl).1
  | notACollection typed | item typed => exact absurd typed (other _ rfl).2
  | geometry _ flaw => exact flaw

/-- An array of features, which may be missing. -/
theorem locates_features {members : List (String × Json)}
    (typed : Json.Typed "FeatureCollection" members) :
    Locates (Flaw (.object members)) []
      (match members.lookup "features" with
        | some features =>
          (decodeArray Feature.decode [.member "features"] features).map featureCollection
        | none => .error (.invalidGeometry [.member "features"] .notAnArray)) := by
  have hitems : Locates (MemberFlaw Feature.Flaw "features" members) [] _ :=
    locates_memberItems featureCollection (fun _ _ value _ => Feature.locates_decode value) []
  refine Locates.of_iff ?_ fun _ _ => flaw_collection_iff typed
  revert hitems
  cases members.lookup "features" with
  | none => exact id
  | some features => cases features <;> exact id

/-- Decoding a document reports its first flaw. -/
theorem locates_decode (value : Json) : Locates (Flaw value) [] (decode value) := by
  cases value with
  | object members =>
    rw [decode]
    cases htype : geoType members with
    | error e =>
      obtain ⟨rfl, untyped⟩ := geoType_error htype
      refine .only [] (.type _) fun path mistake => ?_
      rw [flaw_geometry_iff (by rintro _ ⟨⟩; exact ⟨untyped _, untyped _⟩)]
      exact Geometry.flaw_refused_iff fun ⟨type, typed, _⟩ => untyped type typed
    | ok type =>
      have typed := geoType_eq_ok_iff.1 htype
      change Locates _ [] (if type = "Feature" then (Feature.decode [] _).map feature
        else if type = "FeatureCollection" then _ else (Geometry.decode [] _).map geometry)
      split
      · next hfeature =>
        subst hfeature
        exact ((Feature.locates_decode _ []).map feature).of_iff fun _ _ => flaw_feature_iff typed
      split
      · next hcollection =>
        subst hcollection
        exact locates_features typed
      next hfeature hcollection =>
      refine ((Geometry.locates_decode _ []).map geometry).of_iff fun _ _ => flaw_geometry_iff ?_
      rintro _ ⟨⟩
      exact ⟨fun typed' => hfeature (typed.unique typed'),
        fun typed' => hcollection (typed.unique typed')⟩
  | _ =>
    refine .refuse (.shape .notAnObject) (.geometry (by simp) (.notAnObject (by simp))) ?_
    intro mistake' flaw
    rw [flaw_geometry_iff (by simp)] at flaw
    cases flaw
    rfl

/-- **Decoding accepts just the geographic data and refuses all else with its first flaw.** The path
    of the flaw leads to what is wrong, or to the member that is missing, and is written as a dot
    when it is that of the document itself. -/
theorem decode_exact (value : Json) :
    ((∃ g, decode value = .ok g) ↔ value.IsGeoJson) ∧
      (∀ e, decode value = .error e ↔ ∃ path mistake, GeoMistake.First (Flaw value) path mistake ∧
        mistake.StandsAt value path ∧ e = mistake.report path) ∧
      GeoError.pathText [] = "." := by
  have hlocates := locates_decode value
  refine ⟨?_, fun e => ?_, rfl⟩
  · rw [← flawless_iff]
    cases hdecoded : decode value with
    | ok g =>
      rw [hdecoded] at hlocates
      have flawless : Flawless (Flaw value) := hlocates
      simpa using flawless
    | error e =>
      rw [hdecoded] at hlocates
      obtain ⟨path, mistake, ⟨flaw, -⟩, -⟩ := hlocates
      simpa using fun flawless => flawless path mistake flaw
  · cases hdecoded : decode value with
    | ok g =>
      rw [hdecoded] at hlocates
      simpa using fun path mistake first => absurd first.1 (hlocates path mistake)
    | error e' =>
      rw [hdecoded] at hlocates
      obtain ⟨path, mistake, first, rfl⟩ := hlocates
      constructor
      · rintro ⟨⟩
        exact ⟨path, mistake, first, first.1.stands, rfl⟩
      · rintro ⟨path', mistake', first', -, rfl⟩
        obtain ⟨rfl, rfl⟩ := first.unique first'
        rfl

example : decode (.object [("type", .string "FeatureCollection"), ("features", .array [
      .object [("type", .string "Feature"), ("geometry", .null)],
      .object [("geometry", .object [("type", .string "Polygon"),
        ("coordinates", .array [.array [.array [.string "0"]]])]), ("type", .string "Feature")],
      .object [("type", .string "Circle")]])]) =
    .error (.invalidGeometry [.member "features", .index 1, .member "geometry",
      .member "coordinates", .index 0, .index 0] (.shortPosition 1)) := by
  rfl

end GeoJson

end CartoStyle
