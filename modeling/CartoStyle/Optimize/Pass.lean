import CartoStyle.Expression.Simplify
import CartoStyle.Style.Basic

set_option autoImplicit false

/-! # Optimization passes

A pass takes a style to a smaller one and counts what it changed; the last pass only reports. Layers
and filters are compared by their JSON text, so the order of members counts. -/

namespace CartoStyle

-- The empty sum is the numeral, also where monoids have a zero too.
attribute [local instance (high)] Zero.ofOfNat0

/-- An optimization pass. -/
inductive Pass where
  | removeUnusedSources
  | removeDuplicateLayers
  | simplifyExpressions
  | removeEmptyLayers
  | consolidateFilters
  deriving DecidableEq, Repr

namespace Pass

/-- Every pass, in the default order. -/
def all : List Pass :=
  [removeUnusedSources, removeDuplicateLayers, simplifyExpressions, removeEmptyLayers,
    consolidateFilters]

/-- The name of a pass. -/
def text : Pass → String
  | .removeUnusedSources => "remove-unused-sources"
  | .removeDuplicateLayers => "remove-duplicate-layers"
  | .simplifyExpressions => "simplify-expressions"
  | .removeEmptyLayers => "remove-empty-layers"
  | .consolidateFilters => "consolidate-filters"

/-- What a pass does. -/
def description : Pass → String
  | .removeUnusedSources => "Remove sources that no layer references"
  | .removeDuplicateLayers => "Remove layers that duplicate an earlier layer except for their id"
  | .simplifyExpressions => "Fold constant boolean sub-expressions in filters and properties"
  | .removeEmptyLayers => "Remove non-background layers with no paint or layout properties"
  | .consolidateFilters => "Find layers with identical filters that could be merged"

/-- The pass of a name. -/
def ofText (name : String) : Except DocumentError Pass :=
  match all.find? (·.text == name) with
  | some pass => .ok pass
  | none =>
    .error
      { kind := .schema
        message :=
          s!"Unknown optimization pass '{name}' (expected one of: " ++
            ", ".intercalate (all.map text) ++ ")" }

/-- The passes of a list of names; no name at all means every pass. -/
def ofTexts (names : List String) : Except DocumentError (List Pass) :=
  if names.isEmpty then .ok all else names.mapM ofText

end Pass

/-! ## Layers and sources that go -/

namespace Style

/-- Whether a layer draws from a source. -/
def uses (s : Style) (source : String) : Bool := s.layerList.any (·.source == some source)

/-- The style without sources that no layer draws from. -/
def withoutUnusedSources (s : Style) : Style :=
  { s with sources := s.sources.map (·.filter fun entry => s.uses entry.1) }

end Style

/-- The elements whose key is neither in `seen` nor that of an earlier element. -/
def distinctBy {α : Type} (key : α → String) : List String → List α → List α
  | _, [] => []
  | seen, a :: rest =>
    if seen.contains (key a) then distinctBy key seen rest
    else a :: distinctBy key (key a :: seen) rest

namespace Layer

/-- The text of everything but the id of a layer. -/
def signature (l : Layer) : String :=
  (Json.object (Members.erase "id" (writeFields l.order l.extra l.slots))).compact

end Layer

namespace Style

/-- The style with the given change to its layers. -/
def mapLayers (change : List Layer → List Layer) (s : Style) : Style :=
  { s with layers := s.layers.map change }

/-- The style without layers that equal an earlier one in all but the id. -/
def withoutDuplicateLayers (s : Style) : Style := s.mapLayers (distinctBy Layer.signature [])

/-- The style without layers that draw nothing. -/
def withoutEmptyLayers (s : Style) : Style :=
  s.mapLayers (·.filter fun l => l.isBackground || l.hasProperties)

end Style

/-! ## Folding -/

namespace Layer

/-- Fold an expression of a layer. Properties are expressions only when they are written as
    arrays. -/
def foldAt (place : Layer.Place) (e : Expression) : Expression :=
  if place == .filter || e.isArray then e.simplify else e

/-- The layer with its expressions folded. -/
def folded (l : Layer) : Layer := l.mapExpressions foldAt

/-- How many expressions of the layer folding changes. -/
def foldCount (l : Layer) : Nat :=
  l.expressions.countP fun (place, e) => (foldAt place e).text != e.text

end Layer

/-! ## Layers that share a filter -/

/-- Names gathered under keys: the keys in the order in which they were first seen, and the names
    under each. -/
structure Grouping where
  order : List String := []
  groups : List (String × List String) := []
  deriving DecidableEq, Repr

namespace Grouping

/-- The names under a key. -/
def namesOf (g : Grouping) (key : String) : List String := (g.groups.lookup key).getD []

/-- Put a name under a key. A key is new when there is no name under it. -/
def add (g : Grouping) (entry : String × String) : Grouping :=
  let names := g.namesOf entry.1
  { order := if names.isEmpty then g.order ++ [entry.1] else g.order
    groups := Members.put entry.1 (names ++ [entry.2]) g.groups }

/-- Take the names under each of some keys out of the groups. -/
def drain : List String → List (String × List String) → List (List String)
  | [], _ => []
  | key :: rest, groups =>
    match groups.lookup key with
    | some names => names :: drain rest (Members.erase key groups)
    | none => drain rest groups

/-- The names under each key, keys in the order in which they were first seen. -/
def toList (g : Grouping) : List (List String) := drain g.order g.groups

end Grouping

namespace Style

/-- The names of the layers with a filter, each with the text of its filter. -/
def filterTexts (s : Style) : List (String × String) :=
  s.layerList.filterMap fun l => l.filter.map fun e => (e.text, l.name)

/-- The names of the layers that share a filter, filters in the order of their first layer. -/
def filterGroups (s : Style) : List (List String) :=
  (s.filterTexts.foldl Grouping.add {}).toList.filter (1 < ·.length)

end Style

/-! ## Applying passes -/

namespace Pass

/-- Apply a pass: the new style and how much was changed or found. -/
def apply (s : Style) : Pass → Style × Nat
  | .removeUnusedSources =>
    let after := s.withoutUnusedSources
    (after, s.sourceCount - after.sourceCount)
  | .removeDuplicateLayers =>
    let after := s.withoutDuplicateLayers
    (after, s.layerCount - after.layerCount)
  | .simplifyExpressions =>
    (s.mapLayers (·.map Layer.folded), (s.layerList.map Layer.foldCount).sum)
  | .removeEmptyLayers =>
    let after := s.withoutEmptyLayers
    (after, s.layerCount - after.layerCount)
  | .consolidateFilters => (s, s.filterGroups.length)

end Pass

end CartoStyle
