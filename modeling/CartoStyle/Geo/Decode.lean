import CartoStyle.Geo.Basic
import CartoStyle.Json.Printer

set_option autoImplicit false

/-! # Decoding geographic data

Decoding is strict about the members that carry coordinates and lenient about everything else. It
stops at the first offending place, from the top down and from left to right, and an object's own
kind and type come before its contents. -/

namespace CartoStyle

/-! ## Errors -/

/-- What is wrong with a value that should carry coordinates. -/
inductive GeoFault where
  | notAnObject
  | notAnArray
  | notAPosition
  | shortPosition (count : Nat)
  | notANumber
  | noCoordinates
  deriving DecidableEq, Repr

namespace GeoFault

/-- The fault in words. -/
def message : GeoFault → String
  | .notAnObject => "expected a GeoJSON object"
  | .notAnArray => "expected an array"
  | .notAPosition => "position must be an array of numbers"
  | .shortPosition count => s!"position needs at least 2 numbers, got {count}"
  | .notANumber => "expected a number"
  | .noCoordinates => "missing 'coordinates'"

end GeoFault

/-- Why a document is not geographic data, or has no extent. -/
inductive GeoError where
  | unreadable (message : String)
  | unsupportedType (name : String)
  | invalidGeometry (path : Path) (fault : GeoFault)
  | noPositions
  deriving DecidableEq, Repr

namespace GeoError

/-- A path as messages write it: the root is a dot. -/
def pathText (path : Path) : String := if path.isEmpty then "." else path.text

/-- The error in words. -/
def message : GeoError → String
  | .unreadable message => message
  | .unsupportedType name => s!"Unsupported GeoJSON type: {name}"
  | .invalidGeometry path fault => s!"Invalid geometry at {pathText path}: {fault.message}"
  | .noPositions => "No valid coordinates found"

/-- The name of the kind of error. -/
def category : GeoError → String
  | .unreadable _ => ErrorKind.inputParse.text
  | .unsupportedType _ => ErrorKind.schema.text
  | .invalidGeometry _ _ => ErrorKind.schema.text
  | .noPositions => "NoCoordinates"

/-- A refused document as an error about geographic data. -/
def ofDocumentError (e : DocumentError) : GeoError := .unreadable e.message

end GeoError

/-! ## Members -/

/-- The `type` of an object. -/
def geoType (members : List (String × Json)) : Except GeoError String :=
  match members.lookup "type" with
  | some (.string name) => .ok name
  | some other => .error (.unsupportedType other.compact)
  | none => .error (.unsupportedType "(missing)")

/-! ## Coordinates -/

/-- Decode the items of an array, from left to right. -/
def decodeItems {α : Type} (item : Path → Json → Except GeoError α) (path : Path) (index : Nat) :
    List Json → Except GeoError (List α)
  | [] => .ok []
  | value :: rest => do
    let a ← item (path ++ [.index index]) value
    let as ← decodeItems item path (index + 1) rest
    return a :: as

/-- Decode an array. -/
def decodeArray {α : Type} (item : Path → Json → Except GeoError α) (path : Path) (value : Json) :
    Except GeoError (List α) :=
  match value with
  | .array items => decodeItems item path 0 items
  | _ => .error (.invalidGeometry path .notAnArray)

/-- Decode a number. -/
def decodeOrdinate (path : Path) (value : Json) : Except GeoError Float :=
  match value with
  | .number n => .ok n.toFloat
  | _ => .error (.invalidGeometry path .notANumber)

/-- Decode a position. -/
def decodePosition (path : Path) (value : Json) : Except GeoError Position :=
  match value with
  | .array items =>
    if items.length < 2 then .error (.invalidGeometry path (.shortPosition items.length))
    else do
      let ordinates ← decodeItems decodeOrdinate path 0 items
      match Position.ofList? ordinates with
      | some p => return p
      | none => throw (.invalidGeometry path (.shortPosition ordinates.length))
  | _ => .error (.invalidGeometry path .notAPosition)

/-- Decode a list of positions. -/
def decodeLine (path : Path) (value : Json) : Except GeoError (List Position) :=
  decodeArray decodePosition path value

/-- Decode a list of lists of positions. -/
def decodeLines (path : Path) (value : Json) : Except GeoError (List (List Position)) :=
  decodeArray decodeLine path value

/-- The decoder of the coordinates of a type, if there is a geometry of that type. -/
def coordinateDecoder? (type : String) : Option (Path → Json → Except GeoError Geometry) :=
  match type with
  | "Point" => some fun path value => (decodePosition path value).map .point
  | "MultiPoint" => some fun path value => (decodeLine path value).map .multiPoint
  | "LineString" => some fun path value => (decodeLine path value).map .lineString
  | "MultiLineString" => some fun path value => (decodeLines path value).map .multiLineString
  | "Polygon" => some fun path value => (decodeLines path value).map .polygon
  | "MultiPolygon" =>
    some fun path value => (decodeArray decodeLines path value).map .multiPolygon
  | _ => none

/-- Decode a geometry of a type that is no collection, with the given `coordinates` member. -/
def decodeCoordinates (type : String) (path : Path) (coordinates : Option Json) :
    Except GeoError Geometry :=
  match coordinateDecoder? type, coordinates with
  | none, _ => .error (.unsupportedType type)
  | some _, none => .error (.invalidGeometry path .noCoordinates)
  | some decode, some value => decode path value

/-! ## Geometries -/

namespace Geometry

mutual

/-- Decode a geometry that stands at a path. -/
def decode (path : Path) : Json → Except GeoError Geometry
  | .object members =>
    match geoType members with
    | .error e => .error e
    | .ok type =>
      if type = "GeometryCollection" then decodeMember (path ++ [.member "geometries"]) members
      else
        decodeCoordinates type (path ++ [.member "coordinates"]) (members.lookup "coordinates")
  | _ => .error (.invalidGeometry path .notAnObject)

/-- Decode the `geometries` among the members of a collection. -/
def decodeMember (path : Path) : List (String × Json) → Except GeoError Geometry
  | [] => .error (.invalidGeometry path .notAnArray)
  | (key, .array items) :: rest =>
    if key = "geometries" then (decodeNested path 0 items).map .collection
    else decodeMember path rest
  | (key, _) :: rest =>
    if key = "geometries" then .error (.invalidGeometry path .notAnArray)
    else decodeMember path rest

/-- Decode the geometries of a list, of which the first stands at `index`. -/
def decodeNested (path : Path) (index : Nat) : List Json → Except GeoError (List Geometry)
  | [] => .ok []
  | value :: rest =>
    match decode (path ++ [.index index]) value with
    | .error e => .error e
    | .ok g => (decodeNested path (index + 1) rest).map (g :: ·)

end

end Geometry

/-! ## Features and documents -/

namespace Feature

/-- Decode the geometry of a feature, which may be missing or null. -/
def decodeGeometry (path : Path) : Option Json → Except GeoError (Option Geometry)
  | none => .ok none
  | some .null => .ok none
  | some value => (Geometry.decode path value).map some

/-- Decode the members of a feature of the right type. -/
def decodeMembers (path : Path) (members : List (String × Json)) : Except GeoError Feature :=
  (decodeGeometry (path ++ [.member "geometry"]) (members.lookup "geometry")).map fun geometry =>
    { id := members.lookup "id"
      geometry
      properties := (members.lookup "properties").bind Json.asObject? }

/-- Decode a feature that stands at a path. -/
def decode (path : Path) : Json → Except GeoError Feature
  | .object members => do
    let type ← geoType members
    if type = "Feature" then decodeMembers path members
    else throw (.unsupportedType type)
  | _ => .error (.invalidGeometry path .notAnObject)

end Feature

namespace GeoJson

/-- Decode a document. -/
def decode (value : Json) : Except GeoError GeoJson :=
  match value with
  | .object members => do
    let type ← geoType members
    if type = "Feature" then (Feature.decode [] value).map .feature
    else if type = "FeatureCollection" then
      match members.lookup "features" with
      | some features =>
        (decodeArray Feature.decode [.member "features"] features).map .featureCollection
      | none => throw (.invalidGeometry [.member "features"] .notAnArray)
    else (Geometry.decode [] value).map .geometry
  | _ => .error (.invalidGeometry [] .notAnObject)

/-- Read and decode a document. -/
def ofDocument (document : Document) : Except GeoError GeoJson :=
  match document.resolve with
  | .ok value => decode value
  | .error e => .error (.ofDocumentError e)

end GeoJson

end CartoStyle
