import CartoStyle.Proofs.Geo.Grammar

set_option autoImplicit false

/-! # Places in geographic data

Where the geometries and the positions of a document stand, said of the document itself and apart
from decoding. The outermost geometries are the document, or what its features have as `geometry`
(`Json.OuterGeometryAt`); inside one of them stand the geometries of collections
(`Json.GeometryIn`) and the positions of coordinates (`Json.PositionIn`). -/

namespace CartoStyle

namespace Json

/-! ## Inside a geometry -/

/-- Where positions stand in coordinates of the given depth. -/
inductive CoordinatesAt : Nat → Json → Path → Json → Prop
  | here {value : Json} : CoordinatesAt 0 value [] value
  | item {depth : Nat} {items : List Json} {i : Nat} {item : Json} {path : Path} {found : Json}
      (here : items[i]? = some item) (inside : CoordinatesAt depth item path found) :
      CoordinatesAt (depth + 1) (.array items) (.index i :: path) found

/-- Where geometries stand in a geometry: at its root, and in a collection inside each item. -/
inductive GeometryIn : Json → Path → Json → Prop
  | root {value : Json} : GeometryIn value [] value
  | item {members : List (String × Json)} {items : List Json} {i : Nat} {item : Json} {path : Path}
      {found : Json} (typed : Typed "GeometryCollection" members)
      (there : members.lookup "geometries" = some (.array items)) (here : items[i]? = some item)
      (inside : GeometryIn item path found) :
      GeometryIn (.object members) (.member "geometries" :: .index i :: path) found

/-- Where positions stand in a geometry: in its coordinates, and in a collection inside each
    item. -/
inductive PositionIn : Json → Path → Json → Prop
  | coordinates {members : List (String × Json)} {type : String} {depth : Nat} {value : Json}
      {path : Path} {found : Json} (typed : Typed type members)
      (nesting : Geometry.coordinateDepth? type = some depth)
      (there : members.lookup "coordinates" = some value)
      (inside : CoordinatesAt depth value path found) :
      PositionIn (.object members) (.member "coordinates" :: path) found
  | item {members : List (String × Json)} {items : List Json} {i : Nat} {item : Json} {path : Path}
      {found : Json} (typed : Typed "GeometryCollection" members)
      (there : members.lookup "geometries" = some (.array items)) (here : items[i]? = some item)
      (inside : PositionIn item path found) :
      PositionIn (.object members) (.member "geometries" :: .index i :: path) found

/-! ## Inside a document -/

/-- Where a feature has its geometry, if it has one. -/
inductive FeatureGeometryAt : Json → Path → Json → Prop
  | here {members : List (String × Json)} {geometry : Json} (typed : Typed "Feature" members)
      (there : members.lookup "geometry" = some geometry) (notNull : geometry ≠ .null) :
      FeatureGeometryAt (.object members) [.member "geometry"] geometry

/-- Where the outermost geometries of a document stand: in its features, or at the root of a
    document that is neither a feature nor a collection of features. -/
inductive OuterGeometryAt : Json → Path → Json → Prop
  | geometry {members : List (String × Json)} (single : ¬Typed "Feature" members)
      (bare : ¬Typed "FeatureCollection" members) :
      OuterGeometryAt (.object members) [] (.object members)
  | feature {value : Json} {path : Path} {geometry : Json}
      (inside : FeatureGeometryAt value path geometry) : OuterGeometryAt value path geometry
  | item {members : List (String × Json)} {items : List Json} {i : Nat} {feature : Json}
      {path : Path} {geometry : Json} (typed : Typed "FeatureCollection" members)
      (there : members.lookup "features" = some (.array items)) (here : items[i]? = some feature)
      (inside : FeatureGeometryAt feature path geometry) :
      OuterGeometryAt (.object members) (.member "features" :: .index i :: path) geometry

/-- Where something stands inside the outermost geometries of a document. -/
def InGeometries (spots : Json → Path → Json → Prop) (value : Json) (path : Path) (found : Json) :
    Prop :=
  ∃ outer geometry inner, path = outer ++ inner ∧ value.OuterGeometryAt outer geometry ∧
    spots geometry inner found

/-- Where geometries stand in a document. -/
def GeometryAt : Json → Path → Json → Prop := InGeometries GeometryIn

/-- Where positions stand in a document. -/
def PositionAt : Json → Path → Json → Prop := InGeometries PositionIn

/-! ## Paths lead to places -/

theorem at?_cons {value inner : Json} {step : Step} (h : value.step? step = some inner)
    (path : Path) : value.at? (step :: path) = inner.at? path := by
  rw [at?, h, Option.bind_some]

theorem at?_append (value : Json) (path rest : Path) :
    value.at? (path ++ rest) = (value.at? path).bind (·.at? rest) := by
  induction path generalizing value with
  | nil => rfl
  | cons step path ih =>
    rw [List.cons_append, at?, at?]
    cases value.step? step with
    | none => rfl
    | some inner => exact ih inner

theorem at?_member {members : List (String × Json)} {key : String} {inner : Json}
    (there : members.lookup key = some inner) (path : Path) :
    (Json.object members).at? (.member key :: path) = inner.at? path := by
  have leads : (Json.object members).step? (.member key) = some inner := there
  exact at?_cons leads path

theorem at?_index {items : List Json} {i : Nat} {inner : Json} (here : items[i]? = some inner)
    (path : Path) : (Json.array items).at? (.index i :: path) = inner.at? path := by
  have leads : (Json.array items).step? (.index i) = some inner := here
  exact at?_cons leads path

theorem at?_item {members : List (String × Json)} {key : String} {items : List Json} {i : Nat}
    {inner : Json} (there : members.lookup key = some (.array items)) (here : items[i]? = some inner)
    (path : Path) :
    (Json.object members).at? (.member key :: .index i :: path) = inner.at? path := by
  rw [at?_member there, at?_index here]

theorem CoordinatesAt.at?_eq {depth : Nat} {value : Json} {path : Path} {found : Json}
    (h : CoordinatesAt depth value path found) : value.at? path = some found := by
  induction h with
  | here => rfl
  | item here _ ih => rw [at?_index here, ih]

theorem GeometryIn.at?_eq {value : Json} {path : Path} {found : Json}
    (h : GeometryIn value path found) : value.at? path = some found := by
  induction h with
  | root => rfl
  | item _ there here _ ih => rw [at?_item there here, ih]

theorem PositionIn.at?_eq {value : Json} {path : Path} {found : Json}
    (h : PositionIn value path found) : value.at? path = some found := by
  induction h with
  | coordinates _ _ there inside => rw [at?_member there, inside.at?_eq]
  | item _ there here _ ih => rw [at?_item there here, ih]

theorem FeatureGeometryAt.at?_eq {value : Json} {path : Path} {found : Json}
    (h : FeatureGeometryAt value path found) : value.at? path = some found := by
  obtain ⟨-, there, -⟩ := h
  exact at?_member there []

theorem OuterGeometryAt.at?_eq {value : Json} {path : Path} {found : Json}
    (h : OuterGeometryAt value path found) : value.at? path = some found := by
  cases h with
  | geometry => rfl
  | feature inside => exact inside.at?_eq
  | item _ there here inside => rw [at?_item there here, inside.at?_eq]

/-- What stands inside the outermost geometries is led to when it is led to from there. -/
theorem InGeometries.at?_eq {spots : Json → Path → Json → Prop}
    (leads : ∀ {geometry inner found}, spots geometry inner found →
      geometry.at? inner = some found)
    {value : Json} {path : Path} {found : Json} (h : InGeometries spots value path found) :
    value.at? path = some found := by
  obtain ⟨outer, geometry, inner, rfl, houter, hinner⟩ := h
  rw [at?_append, houter.at?_eq, Option.bind_some, leads hinner]

theorem GeometryAt.at?_eq {value : Json} {path : Path} {found : Json}
    (h : value.GeometryAt path found) : value.at? path = some found :=
  InGeometries.at?_eq GeometryIn.at?_eq h

theorem PositionAt.at?_eq {value : Json} {path : Path} {found : Json}
    (h : value.PositionAt path found) : value.at? path = some found :=
  InGeometries.at?_eq PositionIn.at?_eq h

end Json

end CartoStyle
