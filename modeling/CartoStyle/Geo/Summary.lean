import CartoStyle.Geo.Extent

set_option autoImplicit false

/-! # Summaries of geographic data

What a document holds: features, geometries of each type, positions, their extent and those that lie
off the globe. -/

namespace CartoStyle

/-- The summary of a document. -/
structure GeoSummary where
  typeName : String
  box : Option Box
  featureCount : Nat
  /-- The types that occur, in alphabetical order, and how often. -/
  geometryCounts : List (String × Nat)
  positionCount : Nat
  /-- The paths of the positions off the globe. -/
  outOfRange : List Path
  deriving DecidableEq, Repr

/-- The longitudes. -/
def longitudes : Float × Float := (-180, 180)

/-- The latitudes. -/
def latitudes : Float × Float := (-90, 90)

/-- Whether a number lies in a range, ends included. -/
def inRange (range : Float × Float) (x : Float) : Bool := range.1 ≤ x && x ≤ range.2

namespace Position

/-- Whether a position lies on the globe. -/
def onGlobe (p : Position) : Bool := inRange longitudes p.x && inRange latitudes p.y

end Position

/-- Count a name once more. The counts are kept in alphabetical order of their names. -/
def tally (name : String) : List (String × Nat) → List (String × Nat)
  | [] => [(name, 1)]
  | (key, n) :: rest =>
    if name < key then (name, 1) :: (key, n) :: rest
    else if name = key then (key, n + 1) :: rest
    else (key, n) :: tally name rest

namespace GeoJson

/-- Every geometry of a document, nested ones included. -/
def allGeometries (g : GeoJson) : List Geometry :=
  g.geometries.flatMap fun (_, outer) => outer.nested

/-- How often each type of geometry occurs, counted one by one. -/
def geometryCounts (g : GeoJson) : List (String × Nat) :=
  (g.allGeometries.map Geometry.typeName).foldl (fun counts name => tally name counts) []

/-- Summarize a document. -/
def summary (g : GeoJson) : GeoSummary :=
  let extent := g.extent
  { typeName := g.typeName
    box := extent.box
    featureCount := g.featureCount
    geometryCounts := g.geometryCounts
    positionCount := extent.visited
    outOfRange := (g.positions.filter fun (_, p) => !p.onGlobe).map Prod.fst }

/-- Read and summarize a document. A document without positions has a summary without a box. -/
def analyze (document : Document) : Except GeoError GeoSummary :=
  (ofDocument document).map summary

end GeoJson

namespace GeoSummary

/-- Whether every position lies on the globe. -/
def allInRange (s : GeoSummary) : Bool := s.outOfRange.isEmpty

/-- The summary as a JSON object. -/
def toJson (s : GeoSummary) : Json :=
  .object
    [("type", .string s.typeName),
      ("bbox", .ofOption (floatsToJson ∘ Box.toList) s.box),
      ("center", .ofOption (floatsToJson ∘ Box.center) s.box),
      ("featureCount", .ofNat s.featureCount),
      ("geometryCounts", .object (s.geometryCounts.map fun (name, n) => (name, .ofNat n))),
      ("positionCount", .ofNat s.positionCount),
      ("outOfRange", .ofStrings (s.outOfRange.map Path.text))]

end GeoSummary

end CartoStyle
