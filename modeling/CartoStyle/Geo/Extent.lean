import CartoStyle.Geo.Decode

set_option autoImplicit false

/-! # Extents

The bounding box of a document's positions. It grows from bounds that hold nothing, the infinities
the wrong way round, so that they count as a box only once a position was seen. Ordinates after the
second do not count. -/

namespace CartoStyle

/-- A box with sides along the axes. -/
structure Box where
  minX : Float
  minY : Float
  maxX : Float
  maxY : Float
  deriving DecidableEq, Repr, Inhabited

namespace Box

/-- A number beyond all others. -/
def infinity : Float := 1 / 0

/-- The bounds of no position at all. -/
def void : Box := ⟨infinity, infinity, -infinity, -infinity⟩

/-- The lesser of two numbers, the second when they are equal: zeros may differ in sign. -/
def least (a b : Float) : Float := if a < b then a else b

/-- The greater of two numbers, the second when they are equal: zeros may differ in sign. -/
def greatest (a b : Float) : Float := if b < a then a else b

/-- The box extended to a position. -/
def extend (box : Box) (p : Position) : Box :=
  { minX := least box.minX p.x
    minY := least box.minY p.y
    maxX := greatest box.maxX p.x
    maxY := greatest box.maxY p.y }

/-- The sides: least x, least y, greatest x, greatest y. -/
def toList (box : Box) : List Float := [box.minX, box.minY, box.maxX, box.maxY]

/-- The middle of the box. -/
def center (box : Box) : List Float :=
  [(box.minX + box.maxX) / 2, (box.minY + box.maxY) / 2]

def width (box : Box) : Float := box.maxX - box.minX

def height (box : Box) : Float := box.maxY - box.minY

end Box

/-- Bounds that grow: how many positions they have seen, and how far those reach. -/
structure Extent where
  visited : Nat := 0
  bounds : Box := .void
  deriving DecidableEq, Repr, Inhabited

namespace Extent

/-- Add a position. -/
def add (e : Extent) (p : Position) : Extent :=
  { visited := e.visited + 1, bounds := e.bounds.extend p }

/-- Add a list of ordinates, which is no position when it has less than two. -/
def addOrdinates (e : Extent) (ordinates : List Float) : Extent :=
  match Position.ofList? ordinates with
  | some p => e.add p
  | none => e

/-- The extent of positions. -/
def ofPositions (ps : List Position) : Extent := ps.foldl add {}

/-- The box of what was seen. Bounds that have seen nothing are none. -/
def box (e : Extent) : Option Box := if 0 < e.visited then some e.bounds else none

end Extent

namespace GeoJson

/-- The extent of a document's positions. -/
def extent (g : GeoJson) : Extent := .ofPositions (g.positions.map Prod.snd)

/-- The bounding box of a document, if it has a position. -/
def box? (g : GeoJson) : Option Box := g.extent.box

/-- The bounding box of a document; it is an error when there is none. -/
def boundingBox (document : Document) : Except GeoError Box := do
  let g ← ofDocument document
  match g.box? with
  | some box => return box
  | none => throw .noPositions

end GeoJson

/-- A list of floats as a JSON array. -/
def floatsToJson (xs : List Float) : Json := .array (xs.map .ofFloat)

end CartoStyle
