import CartoStyle.Expression.Validate
import CartoStyle.Style.Field
import CartoStyle.Style.Kind

set_option autoImplicit false

/-! # Style documents

The typed form of a style: named sources and a list of layers. Each object keeps, beside its typed
fields, what they did not take (`extra`) and the order of its keys (`order`). -/

namespace CartoStyle

/-! ## Sources -/

/-- A source of data. -/
structure Source where
  kind : Option SourceKind := none
  extra : List (String × Json) := []
  order : List String := []
  deriving DecidableEq, Inhabited

namespace Source

/-- The type as it is written, or the empty text. -/
def typeText (s : Source) : String :=
  match s.kind with
  | some kind => kind.text
  | none => ""

/-- Whether layers of the source must name a part of it. -/
def requiresSourceLayer (s : Source) : Bool := s.kind.any (·.requiresSourceLayer)

/-- Whether layers of the source must not name a part of it. -/
def forbidsSourceLayer (s : Source) : Bool := s.kind.any (·.forbidsSourceLayer)

/-- The known fields of a source. -/
def fields : List Field := [.mandatory "type" .text]

/-- Read a source. -/
def read (members : List (String × Json)) : Source :=
  { kind := (Shape.text.get? "type" members).map SourceKind.ofText
    extra := Field.leftover fields members
    order := Members.keys members }

/-- What the fields hold. -/
def slots (s : Source) : List (String × Option Json) :=
  [("type", s.kind.map fun kind => .string kind.text)]

/-- Write a source. -/
def toJson (s : Source) : Json := .object (writeFields s.order s.extra s.slots)

end Source

/-! ## Layers -/

/-- A layer of the map. -/
structure Layer where
  id : Option String := none
  kind : Option LayerKind := none
  source : Option String := none
  sourceLayer : Option String := none
  minzoom : Option Number := none
  maxzoom : Option Number := none
  filter : Option Expression := none
  layout : Option Block := none
  paint : Option Block := none
  extra : List (String × Json) := []
  order : List String := []
  deriving DecidableEq, Inhabited

namespace Layer

/-- The id, or the empty text. -/
def name (l : Layer) : String := l.id.getD ""

/-- The type as it is written, or the empty text. -/
def typeText (l : Layer) : String :=
  match l.kind with
  | some kind => kind.text
  | none => ""

/-- Whether the layer is the background, which has no source. -/
def isBackground (l : Layer) : Bool := l.kind == some .background

/-- Whether a block has a property. -/
def hasEntries (block : Option Block) : Bool := block.any (!·.isEmpty)

/-- Whether the layer has a paint or layout property. -/
def hasProperties (l : Layer) : Bool := hasEntries l.paint || hasEntries l.layout

/-! ### Expressions of a layer -/

/-- Where in a layer an expression stands. -/
inductive Place where
  | filter
  | layout (property : String)
  | paint (property : String)
  deriving DecidableEq, Repr

namespace Place

/-- The path from the layer. -/
def path : Place → Path
  | .filter => [.member "filter"]
  | .layout property => [.member "layout", .member property]
  | .paint property => [.member "paint", .member property]

/-- The use of the expressions that stand there. -/
def context : Place → Context
  | .filter => .filter
  | .layout _ => .layout
  | .paint _ => .paint

end Place

/-- The filter and the properties of both blocks. -/
def expressions (l : Layer) : List (Place × Expression) :=
  (l.filter.map (Place.filter, ·)).toList ++
    (l.layout.getD []).map (fun (property, e) => (.layout property, e)) ++
    (l.paint.getD []).map (fun (property, e) => (.paint property, e))

/-- Rewrite the filter and every property of both blocks. -/
def mapExpressions (rule : Place → Expression → Expression) (l : Layer) : Layer :=
  { l with
    filter := l.filter.map (rule .filter)
    layout := l.layout.map (·.map fun (property, e) => (property, rule (.layout property) e))
    paint := l.paint.map (·.map fun (property, e) => (property, rule (.paint property) e)) }

/-! ### Reading and writing -/

/-- The known fields of a layer, in the order in which they are checked. -/
def fields : List Field :=
  [.mandatory "id" .text, .mandatory "type" .text, .optional "source" .text,
    .optional "source-layer" .text, .optional "minzoom" .number, .optional "maxzoom" .number,
    .optional "filter" .expression, .optional "layout" .block, .optional "paint" .block]

/-- Read a layer. -/
def read (members : List (String × Json)) : Layer :=
  { id := Shape.text.get? "id" members
    kind := (Shape.text.get? "type" members).map LayerKind.ofText
    source := Shape.text.get? "source" members
    sourceLayer := Shape.text.get? "source-layer" members
    minzoom := Shape.number.get? "minzoom" members
    maxzoom := Shape.number.get? "maxzoom" members
    filter := Shape.expression.get? "filter" members
    layout := Shape.block.get? "layout" members
    paint := Shape.block.get? "paint" members
    extra := Field.leftover fields members
    order := Members.keys members }

/-- A block as a JSON object. -/
def blockToJson (block : Block) : Json :=
  .object (block.map fun (property, e) => (property, e.toJson))

/-- What the fields hold, in the order in which new ones are written. -/
def slots (l : Layer) : List (String × Option Json) :=
  [("id", l.id.map .string),
    ("type", l.kind.map fun kind => .string kind.text),
    ("source", l.source.map .string),
    ("source-layer", l.sourceLayer.map .string),
    ("minzoom", l.minzoom.map .number),
    ("maxzoom", l.maxzoom.map .number),
    ("filter", l.filter.map Expression.toJson),
    ("layout", l.layout.map blockToJson),
    ("paint", l.paint.map blockToJson)]

/-- Write a layer. -/
def toJson (l : Layer) : Json := .object (writeFields l.order l.extra l.slots)

end Layer

/-! ## Styles -/

/-- A style document. -/
structure Style where
  version : Option Json := none
  name : Option String := none
  metadata : Option Json := none
  sources : Option (List (String × Source)) := none
  sprite : Option Json := none
  glyphs : Option String := none
  layers : Option (List Layer) := none
  extra : List (String × Json) := []
  order : List String := []
  deriving DecidableEq, Inhabited

namespace Shape

/-- Named sources: an object of objects. -/
def sources : Shape (List (String × Source)) :=
  ⟨"an object", fun value =>
    value.asObject?.bind fun entries =>
      entries.mapM fun (key, v) => v.asObject?.map fun members => (key, Source.read members)⟩

/-- Layers: an array of objects. -/
def layers : Shape (List Layer) :=
  ⟨"an array", fun value =>
    value.asArray?.bind fun items => items.mapM fun v => v.asObject?.map Layer.read⟩

end Shape

namespace Style

/-- The layers, of which there are none when the field is absent. -/
def layerList (s : Style) : List Layer := s.layers.getD []

/-- The named sources, of which there are none when the field is absent. -/
def sourceList (s : Style) : List (String × Source) := s.sources.getD []

/-- The source of a name. -/
def source? (s : Style) (name : String) : Option Source := s.sourceList.lookup name

def layerCount (s : Style) : Nat := s.layerList.length

def sourceCount (s : Style) : Nat := s.sourceList.length

/-! ### Reading -/

/-- The known fields of a style, in the order in which they are read. -/
def fields : List Field :=
  [.optional "version" .any, .optional "name" .text, .optional "metadata" .any,
    .optional "sprite" .any, .optional "glyphs" .text, .optional "sources" .sources,
    .optional "layers" .layers]

/-- Read a style. -/
def read (members : List (String × Json)) : Style :=
  { version := Shape.any.get? "version" members
    name := Shape.text.get? "name" members
    metadata := Shape.any.get? "metadata" members
    sources := Shape.sources.get? "sources" members
    sprite := Shape.any.get? "sprite" members
    glyphs := Shape.text.get? "glyphs" members
    layers := Shape.layers.get? "layers" members
    extra := Field.leftover fields members
    order := Members.keys members }

/-- The first violation of an entry that must be an object with known fields. -/
def entryViolation? (fields : List Field) (path : Path) : Json → Option Violation
  | .object members => fields.findSome? (Field.violation? path members)
  | other => some ⟨path, .notAnObject other⟩

/-- The first violation of the sources. -/
def sourcesViolation? : Option Json → Option Violation
  | none => none
  | some .null => none
  | some (.object entries) =>
    entries.findSome? fun (key, v) =>
      entryViolation? Source.fields [.member "sources", .member key] v
  | some other => some ⟨[.member "sources"], .notAContainer "sources" "an object" other⟩

/-- The first violation of the layers. -/
def layersViolation? : Option Json → Option Violation
  | none => none
  | some .null => none
  | some (.array items) =>
    items.zipIdx.findSome? fun (v, position) =>
      entryViolation? Layer.fields [.member "layers", .index position] v
  | some other => some ⟨[.member "layers"], .notAContainer "layers" "an array" other⟩

/-- The first violation of a style: texts, then sources, then layers. -/
def violation? (members : List (String × Json)) : Option Violation :=
  [Field.optional "name" .text, .optional "glyphs" .text].findSome?
      (Field.violation? [] members) <|>
    sourcesViolation? (members.lookup "sources") <|>
    layersViolation? (members.lookup "layers")

/-- Whether fields that do not fit are refused or left aside. -/
inductive Mode where
  | strict
  | lenient
  deriving DecidableEq, Repr

/-- Decode a style. -/
def ofJson (mode : Mode) : Json → Except DocumentError Style
  | .object members =>
    match mode with
    | .lenient => .ok (read members)
    | .strict =>
      match violation? members with
      | some violation => .error violation.toError
      | none => .ok (read members)
  | other => .error { kind := .schema, message := (ShapeFault.notAStyle other).message }

/-! ### Writing -/

/-- Named sources as a JSON object. -/
def sourcesToJson (sources : List (String × Source)) : Json :=
  .object (sources.map fun (key, source) => (key, source.toJson))

/-- Layers as a JSON array. -/
def layersToJson (layers : List Layer) : Json := .array (layers.map Layer.toJson)

/-- What the fields hold, in the order in which new ones are written. -/
def slots (s : Style) : List (String × Option Json) :=
  [("version", s.version),
    ("name", s.name.map .string),
    ("metadata", s.metadata),
    ("sources", s.sources.map sourcesToJson),
    ("sprite", s.sprite),
    ("glyphs", s.glyphs.map .string),
    ("layers", s.layers.map layersToJson)]

/-- Encode a style. -/
def toJson (s : Style) : Json := .object (writeFields s.order s.extra s.slots)

end Style

end CartoStyle
