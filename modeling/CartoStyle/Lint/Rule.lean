import CartoStyle.Style.Basic

set_option autoImplicit false

/-! # Lint rules

A rule is one check of a style that is well shaped. Each rule finds its diagnostics on its own, in
the order of the layers, and reports them under its own id. -/

namespace CartoStyle

/-- A check of a style. -/
inductive Rule where
  | version
  | requiredFields
  | duplicateLayerId
  | sourceReference
  | sourceLayer
  | layerExpressions
  | zoomRange
  | emptyLayer
  | layerType
  deriving DecidableEq, Repr

namespace Rule

/-- Every rule, in the order in which they run. -/
def all : List Rule :=
  [version, requiredFields, duplicateLayerId, sourceReference, sourceLayer, layerExpressions,
    zoomRange, emptyLayer, layerType]

/-- The name of a rule in reports and settings. -/
def id : Rule → String
  | .version => "version"
  | .requiredFields => "required-fields"
  | .duplicateLayerId => "duplicate-layer-id"
  | .sourceReference => "source-reference"
  | .sourceLayer => "source-layer"
  | .layerExpressions => "layer-expressions"
  | .zoomRange => "zoom-range"
  | .emptyLayer => "empty-layer"
  | .layerType => "layer-type"

/-- What a rule asks for. -/
def description : Rule → String
  | .version => "Style version must be 8"
  | .requiredFields => "Style must declare sources and layers"
  | .duplicateLayerId => "Layer ids must be unique within a style"
  | .sourceReference => "Non-background layers must reference a declared source"
  | .sourceLayer => "Vector and raster sources need source-layer; GeoJSON sources forbid it"
  | .layerExpressions => "Validate layer filters and expression-valued properties"
  | .zoomRange => "Layer zoom bounds must be within 0-24 and ordered"
  | .emptyLayer => "Report non-background layers without paint or layout properties"
  | .layerType => "Layer type must be one of the known layer types"

/-- The rule of an id. -/
def ofId? (id : String) : Option Rule := all.find? (·.id == id)

/-! ## Places -/

/-- The path of a layer. -/
def layerPath (position : Nat) : Path := [.member "layers", .index position]

/-- The path of a field of a layer. -/
def fieldPath (position : Nat) (field : String) : Path := layerPath position ++ [.member field]

/-- What a check finds in each layer, in the order of the layers. -/
def eachLayer (style : Style) (find : Nat → Layer → List Diagnostic) : List Diagnostic :=
  style.layerList.zipIdx.flatMap fun (layer, position) => find position layer

/-! ## The document -/

/-- The version of the style format. -/
def formatVersion : Nat := 8

/-- Whether a value is the number of the format's version. -/
def isFormatVersion (value : Json) : Bool :=
  match value.asFloat? with
  | some x => x == Float.ofNat formatVersion
  | none => false

def checkVersion (style : Style) : List Diagnostic :=
  match style.version with
  | none =>
    [(Diagnostic.error .missingField
      s!"Missing required field 'version' (must be {formatVersion})" version.id).located "version"]
  | some value =>
    if isFormatVersion value then []
    else
      [((Diagnostic.error .invalidVersion
        s!"Field 'version' must be {formatVersion}, got {value.compact}"
        version.id).located "version").suggest s!"Set \"version\": {formatVersion}"]

def checkRequiredFields (style : Style) : List Diagnostic :=
  (if style.sources.isNone then
    [(Diagnostic.error .missingField "Missing required field 'sources'"
      requiredFields.id).located "sources"]
  else []) ++
  (match style.layers with
  | none =>
    [(Diagnostic.error .missingField "Missing required field 'layers'"
      requiredFields.id).located "layers"]
  | some [] =>
    [(Diagnostic.warning .emptyLayers "Style has no layers and will render nothing"
      requiredFields.id).located "layers"]
  | some (_ :: _) => [])

/-! ## Layers and their sources -/

def checkDuplicateLayerId (style : Style) : List Diagnostic :=
  eachLayer style fun position layer =>
    match style.layerList.findIdx? (·.name == layer.name) with
    | some first =>
      if first < position then
        [((Diagnostic.error .duplicateLayerId
          (s!"Duplicate layer id '{layer.name}' at {(layerPath position).text} " ++
            s!"(first defined at {(layerPath first).text})") duplicateLayerId.id).located
          (fieldPath position "id").text).suggest "Give each layer a unique id"]
      else []
    | none => []

def checkSourceReference (style : Style) : List Diagnostic :=
  eachLayer style fun position layer =>
    if layer.isBackground then []
    else
      let path := (fieldPath position "source").text
      match layer.source with
      | none =>
        [(Diagnostic.error .danglingSource
          s!"Layer '{layer.name}' of type '{layer.typeText}' has no source"
          sourceReference.id).located path]
      | some name =>
        if (style.source? name).isSome then []
        else
          let finding :=
            (Diagnostic.error .danglingSource
              s!"Layer '{layer.name}' references undefined source '{name}'"
              sourceReference.id).located path
          match Members.keys style.sourceList with
          | [] => [finding]
          | names => [finding.suggest ("Declared sources: " ++ ", ".intercalate names)]

def checkSourceLayer (style : Style) : List Diagnostic :=
  eachLayer style fun position layer =>
    if layer.isBackground then []
    else
      match layer.source with
      | none => []
      | some name =>
        match style.source? name with
        | none => []
        | some source =>
          if source.requiresSourceLayer && layer.sourceLayer.isNone then
            [((Diagnostic.error .sourceLayerMismatch
              (s!"Layer '{layer.name}' uses {source.typeText} source '{name}' " ++
                "but has no 'source-layer'") sourceLayer.id).located
              (layerPath position).text).suggest
              "Add \"source-layer\" naming a layer inside the tileset"]
          else if source.forbidsSourceLayer && layer.sourceLayer.isSome then
            [((Diagnostic.error .sourceLayerMismatch
              (s!"Layer '{layer.name}' uses GeoJSON source '{name}' " ++
                "and must not set 'source-layer'") sourceLayer.id).located
              (fieldPath position "source-layer").text).suggest "Remove \"source-layer\""]
          else []

/-! ## What layers hold -/

/-- Filters are always expressions, properties only when they are written as arrays. -/
def isChecked (place : Layer.Place) (e : Expression) : Bool := place == .filter || e.isArray

def checkLayerExpressions (limits : Limits) (style : Style) : List Diagnostic :=
  eachLayer style fun position layer =>
    layer.expressions.flatMap fun (place, e) =>
      if isChecked place e then
        (e.validate (some place.context) limits).findings.toList.map fun finding =>
          ((finding.reportedBy layerExpressions.id).under
            (layerPath position ++ place.path).text).introduce s!"Layer '{layer.name}': "
      else []

/-- The least and the greatest zoom level. -/
def zoomBounds : Float × Float := (0, 24)

/-- Whether a zoom level exists. -/
def isZoom (z : Float) : Bool := zoomBounds.1 ≤ z && z ≤ zoomBounds.2

/-- The warning about a bound that is no zoom level. -/
def checkZoomBound (position : Nat) (layer : Layer) (field : String) (bound : Option Number) :
    List Diagnostic :=
  match bound with
  | none => []
  | some n =>
    if isZoom n.toFloat then []
    else
      let range :=
        writeFloat .prose zoomBounds.1 ++ "-" ++ writeFloat .prose zoomBounds.2
      [(Diagnostic.warning .invalidZoomRange
        (s!"Layer '{layer.name}' has {field} {writeFloat .prose n.toFloat} " ++
          s!"outside the range {range}") zoomRange.id).located (fieldPath position field).text]

def checkZoomRange (style : Style) : List Diagnostic :=
  eachLayer style fun position layer =>
    checkZoomBound position layer "minzoom" layer.minzoom ++
    checkZoomBound position layer "maxzoom" layer.maxzoom ++
    (match layer.minzoom, layer.maxzoom with
    | some least, some greatest =>
      if greatest.toFloat < least.toFloat then
        [(Diagnostic.error .invalidZoomRange
          (s!"Layer '{layer.name}' has minzoom {writeFloat .prose least.toFloat} " ++
            s!"greater than maxzoom {writeFloat .prose greatest.toFloat}") zoomRange.id).located
          (layerPath position).text]
      else []
    | _, _ => [])

def checkEmptyLayer (style : Style) : List Diagnostic :=
  eachLayer style fun position layer =>
    if layer.isBackground || layer.hasProperties then []
    else
      [((Diagnostic.info .emptyLayer
        s!"Layer '{layer.name}' has no paint or layout properties" emptyLayer.id).located
        (layerPath position).text).suggest
        "The remove-empty-layers optimization would drop this layer"]

def checkLayerType (style : Style) : List Diagnostic :=
  eachLayer style fun position layer =>
    if layer.kind.any (·.isKnown) then []
    else
      [((Diagnostic.warning .unknownLayerType
        s!"Layer '{layer.name}' has unknown type '{layer.typeText}'" layerType.id).located
        (fieldPath position "type").text).suggest
        ("Valid types: " ++ ", ".intercalate (LayerKind.known.map LayerKind.text))]

/-! ## All rules -/

/-- What a rule finds in a style. -/
def check (limits : Limits) (style : Style) : Rule → List Diagnostic
  | .version => checkVersion style
  | .requiredFields => checkRequiredFields style
  | .duplicateLayerId => checkDuplicateLayerId style
  | .sourceReference => checkSourceReference style
  | .sourceLayer => checkSourceLayer style
  | .layerExpressions => checkLayerExpressions limits style
  | .zoomRange => checkZoomRange style
  | .emptyLayer => checkEmptyLayer style
  | .layerType => checkLayerType style

end Rule

end CartoStyle
