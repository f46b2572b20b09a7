import CartoStyle.Style.Basic

set_option autoImplicit false

/-! # Editing a style

An edit assigns or removes one field of a decoded style or layer (`Style.Edit`, `Layer.Edit`), or adds,
removes and moves sources and layers. A JSON value is assigned as what its field reads from it
(`Style.assign`, `Layer.assign`): one that does not fit removes the field. The order that the document
had is kept by writing (`Style.toJson`), not here. -/

namespace CartoStyle

namespace Layer

/-- A known field of a layer with what it is to hold, or none to remove it. -/
inductive Edit where
  | id (new : Option String)
  | kind (new : Option LayerKind)
  | source (new : Option String)
  | sourceLayer (new : Option String)
  | minzoom (new : Option Number)
  | maxzoom (new : Option Number)
  | filter (new : Option Expression)
  | layout (new : Option Block)
  | paint (new : Option Block)
  deriving DecidableEq

/-- The layer with one field assigned or removed. -/
def apply (l : Layer) : Edit → Layer
  | .id new => { l with id := new }
  | .kind new => { l with kind := new }
  | .source new => { l with source := new }
  | .sourceLayer new => { l with sourceLayer := new }
  | .minzoom new => { l with minzoom := new }
  | .maxzoom new => { l with maxzoom := new }
  | .filter new => { l with filter := new }
  | .layout new => { l with layout := new }
  | .paint new => { l with paint := new }

/-- The layer after edits, one after the other. -/
def edit (l : Layer) (edits : List Edit) : Layer := edits.foldl apply l

/-- The edit that gives a known field a JSON value. -/
def Edit.ofMember? (field : String) (value : Json) : Option Edit :=
  match field with
  | "id" => some (.id (Shape.text.read value))
  | "type" => some (.kind ((Shape.text.read value).map LayerKind.ofText))
  | "source" => some (.source (Shape.text.read value))
  | "source-layer" => some (.sourceLayer (Shape.text.read value))
  | "minzoom" => some (.minzoom (Shape.number.read value))
  | "maxzoom" => some (.maxzoom (Shape.number.read value))
  | "filter" => some (.filter (Shape.expression.read value))
  | "layout" => some (.layout (Shape.block.read value))
  | "paint" => some (.paint (Shape.block.read value))
  | _ => none

/-- Assign a field of a layer, or remove it by a value that does not fit. A field without a meaning
    goes to the leftovers. -/
def assign (field : String) (value : Json) (l : Layer) : Layer :=
  match Edit.ofMember? field value with
  | some edit => l.apply edit
  | none => { l with extra := Members.put field value l.extra }

end Layer

namespace Style

/-- Change the layer at a position. -/
def modifyLayer (position : Nat) (change : Layer → Layer) (s : Style) : Style :=
  { s with layers := s.layers.map (·.modify position change) }

/-- A known field of a style with what it is to hold, or none to remove it; or an edit of the layer at
    a position, if there is one. -/
inductive Edit where
  | version (new : Option Json)
  | name (new : Option String)
  | metadata (new : Option Json)
  | sources (new : Option (List (String × Source)))
  | sprite (new : Option Json)
  | glyphs (new : Option String)
  | layers (new : Option (List Layer))
  | layer (position : Nat) (edit : Layer.Edit)
  deriving DecidableEq

/-- The style with one field assigned or removed. -/
def apply (s : Style) : Edit → Style
  | .version new => { s with version := new }
  | .name new => { s with name := new }
  | .metadata new => { s with metadata := new }
  | .sources new => { s with sources := new }
  | .sprite new => { s with sprite := new }
  | .glyphs new => { s with glyphs := new }
  | .layers new => { s with layers := new }
  | .layer position edit => s.modifyLayer position (·.apply edit)

/-- The style after edits, one after the other. -/
def edit (s : Style) (edits : List Edit) : Style := edits.foldl apply s

/-- A value, or none for null. -/
def unlessNull (value : Json) : Option Json := if value.isNull then none else some value

/-- The edit that gives a known field a JSON value. Sources and layers can only be removed, by null,
    or emptied. -/
def Edit.ofMember? (field : String) (value : Json) : Option Edit :=
  match field with
  | "version" => some (.version (unlessNull value))
  | "metadata" => some (.metadata (unlessNull value))
  | "sprite" => some (.sprite (unlessNull value))
  | "name" => some (.name (Shape.text.read value))
  | "glyphs" => some (.glyphs (Shape.text.read value))
  | "sources" => some (.sources (if value.isNull then none else some []))
  | "layers" => some (.layers (if value.isNull then none else some []))
  | _ => none

/-- Assign a top-level field, or remove it by a value that does not fit. A field without a meaning
    goes to the leftovers. -/
def assign (field : String) (value : Json) (s : Style) : Style :=
  match Edit.ofMember? field value with
  | some edit => s.apply edit
  | none => { s with extra := Members.put field value s.extra }

/-- Add a source that has a type at most, in place of one of the same name. -/
def addSource (name : String) (kind : Option SourceKind) (s : Style) : Style :=
  { s with sources := some (Members.put name { kind } s.sourceList) }

/-- Remove a source. -/
def removeSource (name : String) (s : Style) : Style :=
  { s with sources := s.sources.map (Members.erase name) }

/-- Add a layer at the end. -/
def addLayer (layer : Layer) (s : Style) : Style :=
  { s with layers := some (s.layerList ++ [layer]) }

/-- Remove the layer at a position. -/
def removeLayer (position : Nat) (s : Style) : Style :=
  { s with layers := s.layers.map (·.eraseIdx position) }

/-- Exchange the layers at two positions. -/
def swapLayers (i j : Nat) (s : Style) : Style :=
  match s.layerList[i]?, s.layerList[j]? with
  | some a, some b => { s with layers := s.layers.map fun ls => (ls.set i b).set j a }
  | _, _ => s

end Style

end CartoStyle
