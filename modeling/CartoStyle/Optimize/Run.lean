import CartoStyle.Optimize.Pass

set_option autoImplicit false

/-! # Optimizing a style

Passes run one after the other on the leniently decoded style. What does not fit the style format is
carried through untouched, and a document that is no object is left as it is. Each pass leaves a
record, also when it changed nothing. -/

namespace CartoStyle

-- The empty sum is the numeral, also where monoids have a zero too.
attribute [local instance (high)] Zero.ofOfNat0

/-- What a pass reported. -/
structure PassRecord where
  pass : Pass
  count : Nat
  deriving DecidableEq, Repr

namespace PassRecord

/-- The record as a JSON object. -/
def toJson (r : PassRecord) : Json :=
  .object
    [("type", .string r.pass.text), ("description", .string r.pass.description),
      ("count", .ofNat r.count)]

end PassRecord

/-- Sizes in bytes of JSON text, and counts, before and after. -/
structure OptimizeSummary where
  originalSize : Nat
  optimizedSize : Nat
  originalLayers : Nat
  optimizedLayers : Nat
  originalSources : Nat
  optimizedSources : Nat
  total : Nat
  deriving DecidableEq, Repr

namespace OptimizeSummary

/-- How many bytes the style lost. -/
def reduction (s : OptimizeSummary) : Int := s.originalSize - s.optimizedSize

/-- The share of bytes lost, in percent to one place. -/
def percent (s : OptimizeSummary) : Float :=
  if s.originalSize = 0 then 0
  else (Float.ofInt s.reduction / Float.ofNat s.originalSize * 1000).round / 10

/-- The summary as a JSON object. -/
def toJson (s : OptimizeSummary) : Json :=
  .object
    [("originalSize", .ofNat s.originalSize),
      ("optimizedSize", .ofNat s.optimizedSize),
      ("sizeReduction", .number (.integer s.reduction)),
      ("percentReduction", .ofFloat s.percent),
      ("originalLayers", .ofNat s.originalLayers),
      ("optimizedLayers", .ofNat s.optimizedLayers),
      ("originalSources", .ofNat s.originalSources),
      ("optimizedSources", .ofNat s.optimizedSources),
      ("totalOptimizations", .ofNat s.total)]

end OptimizeSummary

/-- The outcome of an optimization. -/
structure Optimization where
  style : Json
  records : List PassRecord
  summary : OptimizeSummary
  deriving DecidableEq

namespace Optimization

/-- Run passes on a style, and record each. -/
def runPasses : List Pass → Style → Style × List PassRecord
  | [], s => (s, [])
  | pass :: rest, s =>
    let (after, count) := pass.apply s
    let (final, records) := runPasses rest after
    (final, ⟨pass, count⟩ :: records)

/-- The number of bytes of a value's text. -/
def size (value : Json) : Nat := value.compact.utf8ByteSize

/-- Optimize a value. -/
def ofJson (passes : List Pass) (value : Json) : Optimization :=
  match value with
  | .object members =>
    let before := Style.read members
    let (after, records) := runPasses passes before
    let optimized := after.toJson
    { style := optimized
      records
      summary :=
        { originalSize := size value
          optimizedSize := size optimized
          originalLayers := before.layerCount
          optimizedLayers := after.layerCount
          originalSources := before.sourceCount
          optimizedSources := after.sourceCount
          total := (records.map (·.count)).sum } }
  | other =>
    { style := other
      records := passes.map (⟨·, 0⟩)
      summary :=
        { originalSize := size other
          optimizedSize := size other
          originalLayers := 0
          optimizedLayers := 0
          originalSources := 0
          optimizedSources := 0
          total := 0 } }

/-- Optimize a document. -/
def ofDocument (passes : List Pass) (document : Document) : Except DocumentError Optimization :=
  document.resolve.map (ofJson passes)

/-- What a pass counted when it ran first. -/
def count? (o : Optimization) (pass : Pass) : Option Nat :=
  (o.records.find? (·.pass == pass)).map (·.count)

/-- The records that counted something. -/
def applied (o : Optimization) : List PassRecord := o.records.filter (0 < ·.count)

/-- The outcome as a JSON object. -/
def toJson (o : Optimization) : Json :=
  .object
    [("optimizedStyle", o.style),
      ("optimizations", .array (o.records.map PassRecord.toJson)),
      ("summary", o.summary.toJson)]

end Optimization

end CartoStyle
