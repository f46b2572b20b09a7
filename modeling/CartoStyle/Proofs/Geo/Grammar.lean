import CartoStyle.Geo.Decode
import CartoStyle.Proofs.Json.Members
import CartoStyle.Proofs.Json.Tree

set_option autoImplicit false

/-! # The grammar of geographic data

Which values are geographic data (`Json.IsGeoJson`), and what keeps a value from being so
(`GeoJson.Flaw`), both said apart from decoding. A flaw stands at a place: the object whose type is
not supported, the value of the wrong shape, or the member that is missing (`GeoJson.Flaw.stands`).
A value without flaws is one of the grammar (`GeoJson.flawless_iff`). -/

namespace CartoStyle

/-! ## Grammar -/

/-- How many arrays stand around the positions in the `coordinates` of a type. -/
def Geometry.coordinateDepth? : String → Option Nat
  | "Point" => some 0
  | "MultiPoint" => some 1
  | "LineString" => some 1
  | "MultiLineString" => some 2
  | "Polygon" => some 2
  | "MultiPolygon" => some 3
  | _ => none

/-- Whether there are geometries of a type. -/
def Geometry.Supports (type : String) : Prop :=
  type = "GeometryCollection" ∨ (coordinateDepth? type).isSome

namespace Json

/-- Whether an object says that it is of a type. -/
def Typed (type : String) (members : List (String × Json)) : Prop :=
  members.lookup "type" = some (.string type)

/-- What an object says of its type. -/
def typeText (members : List (String × Json)) : String :=
  match members.lookup "type" with
  | some (.string type) => type
  | some other => other.compact
  | none => "(missing)"

/-- Two numbers at least. -/
def IsPosition (value : Json) : Prop :=
  ∃ items, value = .array items ∧ 2 ≤ items.length ∧ ∀ item ∈ items, ∃ n, item = .number n

/-- Positions in arrays of the given depth. -/
def IsCoordinates : Nat → Json → Prop
  | 0, value => value.IsPosition
  | depth + 1, value => ∃ items, value = .array items ∧ ∀ item ∈ items, IsCoordinates depth item

/-- Coordinates of a type, or a collection of geometries. -/
inductive IsGeometry : Json → Prop
  | coordinates {members : List (String × Json)} {type : String} {depth : Nat} {value : Json}
      (typed : Typed type members) (nesting : Geometry.coordinateDepth? type = some depth)
      (there : members.lookup "coordinates" = some value)
      (coordinates : value.IsCoordinates depth) :
      IsGeometry (.object members)
  | collection {members : List (String × Json)} {items : List Json}
      (typed : Typed "GeometryCollection" members)
      (there : members.lookup "geometries" = some (.array items))
      (each : ∀ item ∈ items, IsGeometry item) : IsGeometry (.object members)

/-- A feature, with a geometry or without. -/
def IsFeature (value : Json) : Prop :=
  ∃ members, value = .object members ∧ Typed "Feature" members ∧
    ∀ geometry, members.lookup "geometry" = some geometry →
      geometry = .null ∨ geometry.IsGeometry

/-- An array of features. -/
def IsFeatureCollection (value : Json) : Prop :=
  ∃ members items, value = .object members ∧ Typed "FeatureCollection" members ∧
    members.lookup "features" = some (.array items) ∧ ∀ item ∈ items, item.IsFeature

/-- A document of geographic data. -/
def IsGeoJson (value : Json) : Prop :=
  value.IsFeature ∨ value.IsFeatureCollection ∨ value.IsGeometry

end Json

/-! ## Flaws -/

/-- What is wrong at a place: an object has a type that is not supported there, or a value, which
    may be missing, has the wrong shape. -/
inductive GeoMistake where
  | type (text : String)
  | shape (fault : GeoFault)

/-- The error that reports a mistake at a place. -/
def GeoMistake.report (path : Path) : GeoMistake → GeoError
  | .type text => .unsupportedType text
  | .shape fault => .invalidGeometry path fault

/-- What keeps a value from being coordinates, with the path to it. -/
inductive Geometry.CoordinatesFlaw : Nat → Json → Path → GeoMistake → Prop
  | notAPosition {value : Json} (other : ∀ items, value ≠ .array items) :
      CoordinatesFlaw 0 value [] (.shape .notAPosition)
  | short {items : List Json} (few : items.length < 2) :
      CoordinatesFlaw 0 (.array items) [] (.shape (.shortPosition items.length))
  | notANumber {items : List Json} {i : Nat} {item : Json} (here : items[i]? = some item)
      (other : ∀ n, item ≠ .number n) :
      CoordinatesFlaw 0 (.array items) [.index i] (.shape .notANumber)
  | notAnArray {depth : Nat} {value : Json} (other : ∀ items, value ≠ .array items) :
      CoordinatesFlaw (depth + 1) value [] (.shape .notAnArray)
  | item {depth : Nat} {items : List Json} {i : Nat} {item : Json} {path : Path}
      {mistake : GeoMistake} (here : items[i]? = some item)
      (flaw : CoordinatesFlaw depth item path mistake) :
      CoordinatesFlaw (depth + 1) (.array items) (.index i :: path) mistake

/-- What keeps a value from being a geometry, with the path to it. -/
inductive Geometry.Flaw : Json → Path → GeoMistake → Prop
  | notAnObject {value : Json} (other : ∀ members, value ≠ .object members) :
      Flaw value [] (.shape .notAnObject)
  | type {members : List (String × Json)}
      (refused : ¬∃ type, Json.Typed type members ∧ Supports type) :
      Flaw (.object members) [] (.type (Json.typeText members))
  | noCoordinates {members : List (String × Json)} {type : String}
      (typed : Json.Typed type members) (nesting : (coordinateDepth? type).isSome)
      (absent : members.lookup "coordinates" = none) :
      Flaw (.object members) [.member "coordinates"] (.shape .noCoordinates)
  | coordinates {members : List (String × Json)} {type : String} {depth : Nat} {value : Json}
      {path : Path} {mistake : GeoMistake} (typed : Json.Typed type members)
      (nesting : coordinateDepth? type = some depth)
      (there : members.lookup "coordinates" = some value)
      (flaw : CoordinatesFlaw depth value path mistake) :
      Flaw (.object members) (.member "coordinates" :: path) mistake
  | notACollection {members : List (String × Json)}
      (typed : Json.Typed "GeometryCollection" members)
      (other : ∀ items, members.lookup "geometries" ≠ some (.array items)) :
      Flaw (.object members) [.member "geometries"] (.shape .notAnArray)
  | item {members : List (String × Json)} {items : List Json} {i : Nat} {item : Json} {path : Path}
      {mistake : GeoMistake} (typed : Json.Typed "GeometryCollection" members)
      (there : members.lookup "geometries" = some (.array items)) (here : items[i]? = some item)
      (flaw : Flaw item path mistake) :
      Flaw (.object members) (.member "geometries" :: .index i :: path) mistake

/-- What keeps a value from being a feature, with the path to it. -/
inductive Feature.Flaw : Json → Path → GeoMistake → Prop
  | notAnObject {value : Json} (other : ∀ members, value ≠ .object members) :
      Flaw value [] (.shape .notAnObject)
  | type {members : List (String × Json)} (refused : ¬Json.Typed "Feature" members) :
      Flaw (.object members) [] (.type (Json.typeText members))
  | geometry {members : List (String × Json)} {value : Json} {path : Path} {mistake : GeoMistake}
      (typed : Json.Typed "Feature" members) (there : members.lookup "geometry" = some value)
      (notNull : value ≠ .null) (flaw : Geometry.Flaw value path mistake) :
      Flaw (.object members) (.member "geometry" :: path) mistake

/-- What keeps a value from being geographic data, with the path to it. What is neither a feature
    nor a collection of features should be a geometry. -/
inductive GeoJson.Flaw : Json → Path → GeoMistake → Prop
  | feature {members : List (String × Json)} {path : Path} {mistake : GeoMistake}
      (typed : Json.Typed "Feature" members)
      (flaw : Feature.Flaw (.object members) path mistake) : Flaw (.object members) path mistake
  | notACollection {members : List (String × Json)}
      (typed : Json.Typed "FeatureCollection" members)
      (other : ∀ items, members.lookup "features" ≠ some (.array items)) :
      Flaw (.object members) [.member "features"] (.shape .notAnArray)
  | item {members : List (String × Json)} {items : List Json} {i : Nat} {item : Json} {path : Path}
      {mistake : GeoMistake} (typed : Json.Typed "FeatureCollection" members)
      (there : members.lookup "features" = some (.array items)) (here : items[i]? = some item)
      (flaw : Feature.Flaw item path mistake) :
      Flaw (.object members) (.member "features" :: .index i :: path) mistake
  | geometry {value : Json} {path : Path} {mistake : GeoMistake}
      (other : ∀ members, value = .object members →
        ¬Json.Typed "Feature" members ∧ ¬Json.Typed "FeatureCollection" members)
      (flaw : Geometry.Flaw value path mistake) : Flaw value path mistake

/-! ## Where flaws stand -/

/-- What a path leads to: a value, or a member that an object does not have. -/
inductive Json.LeadsTo (value : Json) : Path → Option Json → Prop
  | there {path : Path} {found : Json} (here : value.at? path = some found) :
      LeadsTo value path (some found)
  | missing {path : Path} {members : List (String × Json)} {key : String}
      (here : value.at? path = some (.object members)) (absent : members.lookup key = none) :
      LeadsTo value (path ++ [.member key]) none

theorem Json.LeadsTo.missing_member {members : List (String × Json)} {key : String}
    (absent : members.lookup key = none) : LeadsTo (.object members) [.member key] none := by
  rw [← List.nil_append [Step.member key]]
  exact .missing rfl absent

namespace GeoMistake

/-- Whether a mistake is one of what was found, or of what was not. -/
def Fits : GeoMistake → Option Json → Prop
  | .type text, found => ∃ members, found = some (.object members) ∧ text = Json.typeText members
  | .shape .notAnObject, found => ∃ value, found = some value ∧ ∀ members, value ≠ .object members
  | .shape .notAnArray, found => ∀ items, found ≠ some (.array items)
  | .shape .notAPosition, found => ∃ value, found = some value ∧ ∀ items, value ≠ .array items
  | .shape (.shortPosition count), found =>
    ∃ items, found = some (.array items) ∧ items.length = count ∧ count < 2
  | .shape .notANumber, found => ∃ value, found = some value ∧ ∀ n, value ≠ .number n
  | .shape .noCoordinates, found => found = none

/-- Whether a mistake is one of what a path leads to. -/
def StandsAt (mistake : GeoMistake) (value : Json) (path : Path) : Prop :=
  ∃ found, value.LeadsTo path found ∧ mistake.Fits found

theorem StandsAt.here {mistake : GeoMistake} {value : Json} (fits : mistake.Fits (some value)) :
    mistake.StandsAt value [] :=
  ⟨_, .there rfl, fits⟩

/-- A place inside a value that one step leads to. -/
theorem StandsAt.below {mistake : GeoMistake} {value inner : Json} {step : Step} {path : Path}
    (leads : value.step? step = some inner) (h : mistake.StandsAt inner path) :
    mistake.StandsAt value (step :: path) := by
  have hat : ∀ path, value.at? (step :: path) = inner.at? path := by
    intro path
    rw [Json.at?, leads, Option.bind_some]
  obtain ⟨found, hleads, fits⟩ := h
  refine ⟨found, ?_, fits⟩
  cases hleads with
  | there here => exact .there ((hat _).trans here)
  | @missing path members key here absent => exact .missing ((hat path).trans here) absent

theorem StandsAt.item {mistake : GeoMistake} {items : List Json} {i : Nat} {item : Json}
    {path : Path} (here : items[i]? = some item) (h : mistake.StandsAt item path) :
    mistake.StandsAt (.array items) (.index i :: path) :=
  h.below here

theorem StandsAt.member {mistake : GeoMistake} {members : List (String × Json)} {key : String}
    {value : Json} {path : Path} (there : members.lookup key = some value)
    (h : mistake.StandsAt value path) : mistake.StandsAt (.object members) (.member key :: path) :=
  h.below there

/-- An array that is not there, or is something else, is a mistake at the member. -/
theorem notAnArray_standsAt {members : List (String × Json)} {key : String}
    (other : ∀ items, members.lookup key ≠ some (.array items)) :
    (shape .notAnArray).StandsAt (.object members) [.member key] := by
  cases there : members.lookup key with
  | none => exact ⟨none, .missing_member there, by simp [Fits]⟩
  | some value =>
    refine (StandsAt.here ?_).member there
    intro items h
    exact other items (there.trans h)

end GeoMistake

theorem Geometry.CoordinatesFlaw.stands {depth : Nat} {value : Json} {path : Path}
    {mistake : GeoMistake} (h : CoordinatesFlaw depth value path mistake) :
    mistake.StandsAt value path := by
  induction h with
  | notAPosition other => exact .here ⟨_, rfl, other⟩
  | short few => exact .here ⟨_, rfl, rfl, few⟩
  | notANumber here other => exact .item here (.here ⟨_, rfl, other⟩)
  | notAnArray other => exact .here fun items h => other items (Option.some.inj h)
  | item here _ ih => exact ih.item here

theorem Geometry.Flaw.stands {value : Json} {path : Path} {mistake : GeoMistake}
    (h : Flaw value path mistake) : mistake.StandsAt value path := by
  induction h with
  | notAnObject other => exact .here ⟨_, rfl, other⟩
  | type => exact .here ⟨_, rfl, rfl⟩
  | noCoordinates _ _ absent => exact ⟨none, .missing_member absent, rfl⟩
  | coordinates _ _ there flaw => exact flaw.stands.member there
  | notACollection _ other => exact GeoMistake.notAnArray_standsAt other
  | item _ there here _ ih => exact (ih.item here).member there

theorem Feature.Flaw.stands {value : Json} {path : Path} {mistake : GeoMistake}
    (h : Flaw value path mistake) : mistake.StandsAt value path := by
  cases h with
  | notAnObject other => exact .here ⟨_, rfl, other⟩
  | type => exact .here ⟨_, rfl, rfl⟩
  | geometry _ there _ flaw => exact flaw.stands.member there

/-- The path of a flaw leads to what is wrong. -/
theorem GeoJson.Flaw.stands {value : Json} {path : Path} {mistake : GeoMistake}
    (h : Flaw value path mistake) : mistake.StandsAt value path := by
  cases h with
  | feature _ flaw => exact flaw.stands
  | notACollection _ other => exact GeoMistake.notAnArray_standsAt other
  | item _ there here flaw => exact (flaw.stands.item here).member there
  | geometry _ flaw => exact flaw.stands

/-! ## Values without flaws -/

/-- Whether there is no flaw. -/
def Flawless (flaws : Path → GeoMistake → Prop) : Prop := ∀ path mistake, ¬flaws path mistake

/-- Induction over collections: a fact holds of a value when it holds of the geometries in it. -/
@[elab_as_elim]
theorem Json.geometries_induction {motive : Json → Prop}
    (step : ∀ value, (∀ items, value.get? "geometries" = some (.array items) →
      ∀ item ∈ items, motive item) → motive value)
    (value : Json) : motive value := by
  -- The geometries stand two levels down, so the fact is carried for the items of an array too.
  suffices h : motive value ∧ ∀ items, value = .array items → ∀ item ∈ items, motive item from h.1
  induction value using Json.tree_induction with
  | object members ih =>
    refine ⟨step _ fun items there item hitem => ?_, by simp⟩
    exact (ih "geometries" _ (Members.mem_of_lookup there)).2 items rfl item hitem
  | array items ih =>
    refine ⟨step _ (by simp [get?]), ?_⟩
    rintro _ ⟨⟩ item hitem
    exact (ih item hitem).1
  | _ => exact ⟨step _ (by simp [get?]), by simp⟩

/-- A value is a number or is none. -/
theorem Json.number_or_other (value : Json) :
    (∃ n, value = .number n) ∨ ∀ n, value ≠ .number n := by
  cases value with
  | number n => exact .inl ⟨n, rfl⟩
  | _ => exact .inr (by simp)

namespace Geometry

theorem flawless_coordinates_iff {depth : Nat} {value : Json} :
    Flawless (CoordinatesFlaw depth value) ↔ value.IsCoordinates depth := by
  induction depth generalizing value with
  | zero =>
    constructor
    · intro h
      cases value with
      | array items =>
        refine ⟨items, rfl, Nat.le_of_not_lt fun few => h _ _ (.short few), ?_⟩
        intro item hitem
        obtain ⟨i, here⟩ := List.mem_iff_getElem?.1 hitem
        exact item.number_or_other.resolve_right fun other => h _ _ (.notANumber here other)
      | _ => exact absurd (.notAPosition (by simp)) (h _ _)
    · rintro ⟨items, rfl, hlength, hnumbers⟩ path mistake flaw
      cases flaw with
      | notAPosition other => exact other items rfl
      | short few => omega
      | notANumber here other =>
        obtain ⟨n, hn⟩ := hnumbers _ (List.mem_of_getElem? here)
        exact other n hn
  | succ depth ih =>
    constructor
    · intro h
      cases value with
      | array items =>
        refine ⟨items, rfl, fun item hitem => ih.1 fun path mistake flaw => ?_⟩
        obtain ⟨i, here⟩ := List.mem_iff_getElem?.1 hitem
        exact h _ _ (.item here flaw)
      | _ => exact absurd (.notAnArray (by simp)) (h _ _)
    · rintro ⟨items, rfl, each⟩ path mistake flaw
      cases flaw with
      | notAnArray other => exact other items rfl
      | item here flaw => exact ih.2 (each _ (List.mem_of_getElem? here)) _ _ flaw

end Geometry

theorem Json.Typed.unique {members : List (String × Json)} {type type' : String}
    (h : Typed type members) (h' : Typed type' members) : type = type' := by
  simpa using h.symm.trans h'

namespace Geometry

theorem flawless_of_isGeometry {value : Json} (h : value.IsGeometry) : Flawless (Flaw value) := by
  induction h with
  | @coordinates members type depth value typed nesting there coordinates =>
    intro path mistake flaw
    cases flaw with
    | notAnObject other => exact other members rfl
    | type refused => exact refused ⟨type, typed, .inr (by simp [nesting])⟩
    | noCoordinates _ _ absent => cases there.symm.trans absent
    | coordinates typed' nesting' there' flaw =>
      obtain rfl := typed.unique typed'
      cases nesting.symm.trans nesting'
      cases there.symm.trans there'
      exact flawless_coordinates_iff.2 coordinates _ _ flaw
    | notACollection typed' | item typed' =>
      obtain rfl := typed.unique typed'
      cases nesting
  | @collection members items typed there each ih =>
    intro path mistake flaw
    cases flaw with
    | notAnObject other => exact other members rfl
    | type refused => exact refused ⟨_, typed, .inl rfl⟩
    | noCoordinates typed' nesting' | coordinates typed' nesting' =>
      obtain rfl := typed.unique typed'
      cases nesting'
    | notACollection _ other => exact other items there
    | item _ there' here flaw =>
      cases there.symm.trans there'
      exact ih _ (List.mem_of_getElem? here) _ _ flaw

/-- A value without flaws is a geometry. -/
theorem flawless_iff {value : Json} : Flawless (Flaw value) ↔ value.IsGeometry := by
  refine ⟨?_, flawless_of_isGeometry⟩
  induction value using Json.geometries_induction with
  | step value ih =>
  intro h
  cases value with
  | object members =>
    have htyped : ∃ type, Json.Typed type members ∧ Supports type :=
      Classical.byContradiction fun refused => h _ _ (.type refused)
    -- A supported type is that of collections or one that has coordinates.
    obtain ⟨type, typed, rfl | nesting⟩ := htyped
    · cases there : members.lookup "geometries" with
      | none => exact absurd (.notACollection typed (by simp [there])) (h _ _)
      | some value =>
        cases value with
        | array items =>
          refine .collection typed there fun item hitem => ?_
          refine ih items there item hitem fun path mistake flaw => ?_
          obtain ⟨i, here⟩ := List.mem_iff_getElem?.1 hitem
          exact h _ _ (.item typed there here flaw)
        | _ => exact absurd (.notACollection typed (by simp [there])) (h _ _)
    · obtain ⟨depth, nesting⟩ := Option.isSome_iff_exists.1 nesting
      cases there : members.lookup "coordinates" with
      | none => exact absurd (.noCoordinates typed (by simp [nesting]) there) (h _ _)
      | some value =>
        refine .coordinates typed nesting there (flawless_coordinates_iff.1 ?_)
        intro path mistake flaw
        exact h _ _ (.coordinates typed nesting there flaw)
  | _ => exact absurd (.notAnObject (by simp)) (h _ _)

end Geometry

/-- A value without flaws is a feature. -/
theorem Feature.flawless_iff {value : Json} : Flawless (Flaw value) ↔ value.IsFeature := by
  constructor
  · intro h
    cases value with
    | object members =>
      have typed : Json.Typed "Feature" members :=
        Classical.byContradiction fun refused => h _ _ (.type refused)
      refine ⟨members, rfl, typed, fun geometry there => ?_⟩
      refine or_iff_not_imp_left.2 fun notNull => ?_
      refine Geometry.flawless_iff.1 fun path mistake flaw => ?_
      exact h _ _ (.geometry typed there notNull flaw)
    | _ => exact absurd (.notAnObject (by simp)) (h _ _)
  · rintro ⟨members, rfl, typed, geometry⟩ path mistake flaw
    cases flaw with
    | notAnObject other => exact other members rfl
    | type refused => exact refused typed
    | geometry _ there notNull flaw =>
      exact Geometry.flawless_iff.2 ((geometry _ there).resolve_left notNull) _ _ flaw

/-- A geometry is neither a feature nor a collection of features. -/
theorem Json.IsGeometry.not_typed {members : List (String × Json)}
    (h : IsGeometry (.object members)) :
    ¬Typed "Feature" members ∧ ¬Typed "FeatureCollection" members := by
  cases h with
  | coordinates typed nesting =>
    constructor
    all_goals
      intro typed'
      obtain rfl := typed.unique typed'
      cases nesting
  | collection typed =>
    exact ⟨fun typed' => absurd (typed.unique typed') (by decide),
      fun typed' => absurd (typed.unique typed') (by decide)⟩

/-- A value without flaws is geographic data. -/
theorem GeoJson.flawless_iff {value : Json} : Flawless (Flaw value) ↔ value.IsGeoJson := by
  constructor
  · intro h
    by_cases hfeature : ∃ members, value = .object members ∧ Json.Typed "Feature" members
    · obtain ⟨members, rfl, typed⟩ := hfeature
      exact .inl (Feature.flawless_iff.1 fun path mistake flaw => h _ _ (.feature typed flaw))
    by_cases hcollection :
        ∃ members, value = .object members ∧ Json.Typed "FeatureCollection" members
    · obtain ⟨members, rfl, typed⟩ := hcollection
      refine .inr (.inl ?_)
      by_cases harray : ∃ items, members.lookup "features" = some (.array items)
      · obtain ⟨items, there⟩ := harray
        refine ⟨members, items, rfl, typed, there, fun item hitem => ?_⟩
        refine Feature.flawless_iff.1 fun path mistake flaw => ?_
        obtain ⟨i, here⟩ := List.mem_iff_getElem?.1 hitem
        exact h _ _ (.item typed there here flaw)
      · exact absurd (.notACollection typed (not_exists.1 harray)) (h _ _)
    · refine .inr (.inr (Geometry.flawless_iff.1 fun path mistake flaw => ?_))
      refine h _ _ (.geometry ?_ flaw)
      exact fun members hvalue => ⟨fun typed => hfeature ⟨members, hvalue, typed⟩,
        fun typed => hcollection ⟨members, hvalue, typed⟩⟩
  · rintro (hfeature | hcollection | hgeometry) path mistake flaw
    · obtain ⟨members, rfl, typed, -⟩ := id hfeature
      cases flaw with
      | feature _ flaw => exact Feature.flawless_iff.2 hfeature _ _ flaw
      | notACollection typed' | item typed' => exact absurd (typed.unique typed') (by decide)
      | geometry other => exact (other members rfl).1 typed
    · obtain ⟨members, items, rfl, typed, there, each⟩ := hcollection
      cases flaw with
      | feature typed' => exact absurd (typed.unique typed') (by decide)
      | notACollection _ other => exact other items there
      | item _ there' here flaw =>
        cases there.symm.trans there'
        exact Feature.flawless_iff.2 (each _ (List.mem_of_getElem? here)) _ _ flaw
      | geometry other => exact (other members rfl).2 typed
    · cases flaw with
      | feature typed => exact hgeometry.not_typed.1 typed
      | notACollection typed | item typed => exact hgeometry.not_typed.2 typed
      | geometry _ flaw => exact Geometry.flawless_iff.2 hgeometry _ _ flaw

end CartoStyle
