import CartoStyle.Document
import CartoStyle.Json.Path

set_option autoImplicit false

/-! # Geographic data

Positions, geometries, features and collections of features, with the paths at which they stand in
their document. -/

namespace CartoStyle

/-! ## Types -/

/-- A position: longitude, latitude and further ordinates. -/
structure Position where
  x : Float
  y : Float
  more : List Float := []
  deriving DecidableEq, Repr, Inhabited

namespace Position

/-- The position of a list of ordinates; there must be two at least. -/
def ofList? : List Float → Option Position
  | x :: y :: more => some ⟨x, y, more⟩
  | _ => none

/-- The ordinates of a position. -/
def toList (p : Position) : List Float := p.x :: p.y :: p.more

end Position

/-- A geometry. -/
inductive Geometry where
  | point (position : Position)
  | multiPoint (points : List Position)
  | lineString (points : List Position)
  | multiLineString (lines : List (List Position))
  | polygon (rings : List (List Position))
  | multiPolygon (polygons : List (List (List Position)))
  | collection (geometries : List Geometry)
  deriving Inhabited

/-- A feature. Its geometry may be missing. -/
structure Feature where
  id : Option Json
  geometry : Option Geometry
  properties : Option (List (String × Json))
  deriving Inhabited

/-- A document of geographic data. -/
inductive GeoJson where
  | geometry (value : Geometry)
  | feature (value : Feature)
  | featureCollection (features : List Feature)
  deriving Inhabited

/-! ## Names -/

namespace Geometry

/-- The `type` of a geometry. -/
def typeName : Geometry → String
  | .point _ => "Point"
  | .multiPoint _ => "MultiPoint"
  | .lineString _ => "LineString"
  | .multiLineString _ => "MultiLineString"
  | .polygon _ => "Polygon"
  | .multiPolygon _ => "MultiPolygon"
  | .collection _ => "GeometryCollection"

end Geometry

namespace GeoJson

/-- The `type` of a document. -/
def typeName : GeoJson → String
  | .geometry g => g.typeName
  | .feature _ => "Feature"
  | .featureCollection _ => "FeatureCollection"

end GeoJson

/-! ## Geometries inside a document -/

namespace Geometry

mutual

/-- A geometry and all those nested in it. -/
def nested : Geometry → List Geometry
  | .collection geometries => .collection geometries :: nestedItems geometries
  | .point p => [.point p]
  | .multiPoint ps => [.multiPoint ps]
  | .lineString ps => [.lineString ps]
  | .multiLineString ls => [.multiLineString ls]
  | .polygon rs => [.polygon rs]
  | .multiPolygon ps => [.multiPolygon ps]

/-- The geometries of a list and all those nested in them. -/
def nestedItems : List Geometry → List Geometry
  | [] => []
  | g :: rest => g.nested ++ nestedItems rest

end

end Geometry

namespace GeoJson

/-- The features of a document. -/
def features : GeoJson → List Feature
  | .geometry _ => []
  | .feature f => [f]
  | .featureCollection fs => fs

/-- How many features a document has. -/
def featureCount (g : GeoJson) : Nat := g.features.length

/-- The outermost geometries with their paths. Features without one are left out. -/
def geometries : GeoJson → List (Path × Geometry)
  | .geometry g => [([], g)]
  | .feature f => (f.geometry.map ([Step.member "geometry"], ·)).toList
  | .featureCollection fs =>
    fs.zipIdx.filterMap fun (f, i) =>
      f.geometry.map ([.member "features", .index i, .member "geometry"], ·)

end GeoJson

/-! ## Positions inside a document -/

namespace Geometry

/-- The elements of a list, each with what `inner` finds in it. -/
def located {α β : Type} (path : Path) (inner : Path → α → List β) (items : List α) : List β :=
  items.zipIdx.flatMap fun (a, i) => inner (path ++ [.index i]) a

/-- A position where it stands. -/
def single (path : Path) (p : Position) : List (Path × Position) := [(path, p)]

mutual

/-- The positions of a geometry, with their paths and in document order. -/
def positions (path : Path) : Geometry → List (Path × Position)
  | .point p => single (path ++ [.member "coordinates"]) p
  | .multiPoint ps => located (path ++ [.member "coordinates"]) single ps
  | .lineString ps => located (path ++ [.member "coordinates"]) single ps
  | .multiLineString ls => located (path ++ [.member "coordinates"]) (located · single) ls
  | .polygon rs => located (path ++ [.member "coordinates"]) (located · single) rs
  | .multiPolygon ps =>
    located (path ++ [.member "coordinates"]) (located · (located · single)) ps
  | .collection gs => positionsItems (path ++ [.member "geometries"]) 0 gs

/-- The positions of the geometries of a list, of which the first stands at `index`. -/
def positionsItems (path : Path) (index : Nat) : List Geometry → List (Path × Position)
  | [] => []
  | g :: rest => g.positions (path ++ [.index index]) ++ positionsItems path (index + 1) rest

end

end Geometry

namespace GeoJson

/-- The positions of a document, with their paths and in document order. -/
def positions (g : GeoJson) : List (Path × Position) :=
  g.geometries.flatMap fun (path, outer) => outer.positions path

end GeoJson

end CartoStyle
