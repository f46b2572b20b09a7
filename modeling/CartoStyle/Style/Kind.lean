set_option autoImplicit false

/-! # Kinds of layers and sources

The `type` of a layer or source. Types without a meaning here are kept as they are written. -/

namespace CartoStyle

/-! ## Layers -/

/-- The type of a layer. -/
inductive LayerKind where
  | background
  | fill
  | line
  | symbol
  | circle
  | heatmap
  | fillExtrusion
  | raster
  | hillshade
  | sky
  | model
  | other (name : String)
  deriving DecidableEq, Repr

namespace LayerKind

/-- The type as it is written. -/
def text : LayerKind → String
  | .background => "background"
  | .fill => "fill"
  | .line => "line"
  | .symbol => "symbol"
  | .circle => "circle"
  | .heatmap => "heatmap"
  | .fillExtrusion => "fill-extrusion"
  | .raster => "raster"
  | .hillshade => "hillshade"
  | .sky => "sky"
  | .model => "model"
  | .other name => name

/-- The types that layers may have. -/
def known : List LayerKind :=
  [background, fill, line, symbol, circle, heatmap, fillExtrusion, raster, hillshade, sky, model]

/-- The type of a name. -/
def ofText (name : String) : LayerKind := (known.find? (·.text == name)).getD (.other name)

/-- Whether layers may have the type. -/
def isKnown : LayerKind → Bool
  | .other _ => false
  | _ => true

end LayerKind

/-! ## Sources -/

/-- The type of a source. -/
inductive SourceKind where
  | vector
  | raster
  | rasterDem
  | geojson
  | image
  | video
  | other (name : String)
  deriving DecidableEq, Repr

namespace SourceKind

/-- The type as it is written. -/
def text : SourceKind → String
  | .vector => "vector"
  | .raster => "raster"
  | .rasterDem => "raster-dem"
  | .geojson => "geojson"
  | .image => "image"
  | .video => "video"
  | .other name => name

/-- The types that sources may have. -/
def known : List SourceKind := [vector, raster, rasterDem, geojson, image, video]

/-- The type of a name. -/
def ofText (name : String) : SourceKind := (known.find? (·.text == name)).getD (.other name)

/-- Whether sources may have the type. -/
def isKnown : SourceKind → Bool
  | .other _ => false
  | _ => true

/-- Tiled sources: their layers name the part of the tile that they draw. -/
def requiresSourceLayer : SourceKind → Bool
  | .vector => true
  | .raster => true
  | _ => false

/-- Sources of one part: their layers must not name one. -/
def forbidsSourceLayer : SourceKind → Bool
  | .geojson => true
  | _ => false

end SourceKind

end CartoStyle
