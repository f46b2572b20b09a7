import CartoStyle.Proofs.Geo.Walk
import CartoStyle.Proofs.Json.PathText
import Mathlib.Data.List.Nodup

set_option autoImplicit false

/-! # The positions of a document

The positions of a document are those that stand in it, each once and in document order, with the
path that leads to it (`GeoJson.positions_exact`). -/

namespace CartoStyle

open Json (Holds CoordinatesAt PositionIn)

/-! ## Positions of a geometry -/

namespace Geometry

theorem finds_single {value : Json} {p : Position} (h : p.Reads value) (base : Path) :
    Finds (CoordinatesAt 0 value) Position.Reads base (single base p) := by
  refine (Finds.single h).of_iff fun path found => ?_
  constructor
  · rintro ⟨⟩
    exact ⟨rfl, rfl⟩
  · rintro ⟨rfl, rfl⟩
    exact .here

/-- Walking through an array of coordinates. -/
theorem finds_located {α : Type} {reads : Json → α → Prop} {depth : Nat}
    {visit : Path → α → List (Path × Position)}
    (each : ∀ {value a}, reads value a → ∀ base,
      Finds (CoordinatesAt depth value) Position.Reads base (visit base a))
    {value : Json} {as : List α} (h : Holds reads value as) (base : Path) :
    Finds (CoordinatesAt (depth + 1) value) Position.Reads base (located base visit as) := by
  obtain ⟨items, rfl, hitems⟩ := h
  have hvisits := hitems.imp fun value a hreads => each hreads
  refine (finds_items hvisits base 0).of_iff fun path found => ?_
  simp only [ItemSpot, Nat.zero_add]
  constructor
  · rintro ⟨⟩
    exact ⟨_, _, _, ‹_›, rfl, ‹_›⟩
  · rintro ⟨i, item, rest, here, rfl, inside⟩
    exact .item here inside

/-- The positions of a geometry that is no collection are those in its coordinates. -/
theorem finds_coordinates {value : Json} {g : Geometry} (h : g.ReadsCoordinates value)
    (base : Path) :
    ∃ depth, coordinateDepth? g.typeName = some depth ∧
      Finds (CoordinatesAt depth value) Position.Reads (base ++ [.member "coordinates"])
        (g.positions base) := by
  have hline := @finds_located _ _ _ _ @finds_single
  have hlines := @finds_located _ _ _ _ @hline
  have hpolygons := @finds_located _ _ _ _ @hlines
  cases g with
  | point p => exact ⟨0, rfl, finds_single h _⟩
  | multiPoint ps => exact ⟨1, rfl, hline h _⟩
  | lineString ps => exact ⟨1, rfl, hline h _⟩
  | multiLineString ls => exact ⟨2, rfl, hlines h _⟩
  | polygon rs => exact ⟨2, rfl, hlines h _⟩
  | multiPolygon ps => exact ⟨3, rfl, hpolygons h _⟩
  | collection gs => exact h.elim

theorem positionsItems_eq (base : Path) (index : Nat) (gs : List Geometry) :
    positionsItems base index gs =
      (gs.zipIdx index).flatMap fun (g, i) => g.positions (base ++ [.index i]) := by
  induction gs generalizing index with
  | nil => rfl
  | cons g rest ih => rw [positionsItems, ih, List.zipIdx_cons, List.flatMap_cons]

theorem positionIn_coordinates_iff {members : List (String × Json)} {type : String} {depth : Nat}
    {value : Json} (typed : Json.Typed type members) (nesting : coordinateDepth? type = some depth)
    (there : members.lookup "coordinates" = some value) {path : Path} {found : Json} :
    PositionIn (.object members) path found ↔
      ∃ rest, path = .member "coordinates" :: rest ∧ CoordinatesAt depth value rest found := by
  constructor
  · intro spot
    cases spot with
    | coordinates typed' nesting' there' inside =>
      obtain rfl := typed.unique typed'
      cases nesting.symm.trans nesting'
      cases there.symm.trans there'
      exact ⟨_, rfl, inside⟩
    | item typed' =>
      obtain rfl := typed.unique typed'
      cases nesting
  · rintro ⟨rest, rfl, inside⟩
    exact .coordinates typed nesting there inside

theorem positionIn_collection_iff {members : List (String × Json)} {items : List Json}
    (typed : Json.Typed "GeometryCollection" members)
    (there : members.lookup "geometries" = some (.array items)) {path : Path} {found : Json} :
    PositionIn (.object members) path found ↔ ∃ i item rest, items[i]? = some item ∧
      path = .member "geometries" :: .index i :: rest ∧ PositionIn item rest found := by
  constructor
  · intro spot
    cases spot with
    | coordinates typed' nesting =>
      obtain rfl := typed.unique typed'
      cases nesting
    | item _ there' here inside =>
      cases there.symm.trans there'
      exact ⟨_, _, _, here, rfl, inside⟩
  · rintro ⟨i, item, rest, here, rfl, inside⟩
    exact .item typed there here inside

/-- The positions of a geometry are those that stand in it. -/
theorem finds_positions {value : Json} {g : Geometry} (h : Reads value g) (base : Path) :
    Finds (PositionIn value) Position.Reads base (g.positions base) := by
  induction value using Json.geometries_induction generalizing g base with
  | step value ih =>
  cases h with
  | coordinates typed there reads =>
    obtain ⟨depth, nesting, hfinds⟩ := finds_coordinates reads base
    exact hfinds.step fun _ _ => positionIn_coordinates_iff typed nesting there
  | @collection members items gs typed there each =>
    have hitems : List.Forall₂ (fun item g => ∀ base,
        Finds (PositionIn item) Position.Reads base (g.positions base)) items gs := by
      have hboth := (List.forall₂_and_left items gs).2 ⟨ih items there, each⟩
      exact hboth.imp fun _ _ h => h.1 h.2
    rw [positions, positionsItems_eq]
    exact (finds_memberItems hitems base).of_iff fun _ _ => positionIn_collection_iff typed there

end Geometry

/-! ## Positions of a document -/

namespace GeoJson

theorem finds_positions {value : Json} {g : GeoJson} (h : Reads value g) :
    Finds value.PositionAt Position.Reads [] g.positions :=
  finds_walk Geometry.finds_positions h

/-- A position that is found has the numbers of an array that stands at its path. -/
theorem exists_numbers_of_mem {value : Json} {g : GeoJson} (h : Reads value g) {path : Path}
    {p : Position} (hm : (path, p) ∈ g.positions) :
    ∃ numbers : List Number, value.PositionAt path (.array (numbers.map .number)) ∧
      numbers.map Number.toFloat = p.toList := by
  obtain ⟨rest, _, rfl, spot, numbers, rfl, hnumbers⟩ := (finds_positions h).sound path p hm
  exact ⟨numbers, spot, hnumbers⟩

/-- An array that stands at a path is found as a position with its numbers. -/
theorem exists_position_of_positionAt {value : Json} {g : GeoJson} (h : Reads value g) {path : Path}
    {numbers : List Number} (spot : value.PositionAt path (.array (numbers.map .number))) :
    ∃ p, (path, p) ∈ g.positions ∧ numbers.map Number.toFloat = p.toList := by
  obtain ⟨p, hm⟩ := (finds_positions h).complete path _ spot
  obtain ⟨numbers', spot', hnumbers⟩ := exists_numbers_of_mem h hm
  have hsame := Json.array.inj (Option.some.inj (spot.at?_eq.symm.trans spot'.at?_eq))
  have hinjective : Function.Injective Json.number := fun _ _ => Json.number.inj
  obtain rfl := List.map_injective_iff.2 hinjective hsame
  exact ⟨p, hm, hnumbers⟩

end GeoJson

namespace Json

/-! The paths to positions are plain. -/

theorem CoordinatesAt.plain {depth : Nat} {value : Json} {path : Path} {found : Json}
    (h : CoordinatesAt depth value path found) : path.Plain := by
  induction h with
  | here => simp [Path.Plain]
  | item _ _ ih => exact List.forall_mem_cons.2 ⟨trivial, ih⟩

theorem PositionIn.plain {value : Json} {path : Path} {found : Json}
    (h : PositionIn value path found) : path.Plain := by
  induction h with
  | coordinates _ _ _ inside =>
    exact List.forall_mem_cons.2 ⟨by simp [Path.PlainStep], inside.plain⟩
  | item _ _ _ _ ih =>
    exact List.forall_mem_cons.2 ⟨by simp [Path.PlainStep], List.forall_mem_cons.2 ⟨trivial, ih⟩⟩

theorem FeatureGeometryAt.plain {value : Json} {path : Path} {found : Json}
    (h : FeatureGeometryAt value path found) : path.Plain := by
  obtain ⟨-, -, -⟩ := h
  simp [Path.Plain, Path.PlainStep]

theorem OuterGeometryAt.plain {value : Json} {path : Path} {found : Json}
    (h : OuterGeometryAt value path found) : path.Plain := by
  cases h with
  | geometry => simp [Path.Plain]
  | feature inside => exact inside.plain
  | item _ _ _ inside =>
    exact List.forall_mem_cons.2
      ⟨by simp [Path.PlainStep], List.forall_mem_cons.2 ⟨trivial, inside.plain⟩⟩

theorem PositionAt.plain {value : Json} {path : Path} {found : Json}
    (h : value.PositionAt path found) : path.Plain := by
  obtain ⟨outer, geometry, inner, rfl, houter, hinner⟩ := h
  intro step hm
  rcases List.mem_append.1 hm with hm | hm
  · exact houter.plain step hm
  · exact hinner.plain step hm

end Json

namespace GeoJson

/-- **The positions of a document are all the positions that stand in it, and nothing else.** They
    come in document order, each with a path that leads to its array and with the numbers of that
    array, of which there are at least two. No two paths are the same, nor are their texts. -/
theorem positions_exact {value : Json} {g : GeoJson} (h : decode value = .ok g) :
    (∀ path found, value.PositionAt path found ↔
      path ∈ g.positions.map Prod.fst ∧ value.at? path = some found) ∧
    (∀ path p, (path, p) ∈ g.positions → ∃ numbers : List Number,
      value.at? path = some (.array (numbers.map .number)) ∧
        numbers.map Number.toFloat = p.toList ∧ 2 ≤ numbers.length) ∧
    (g.positions.map Prod.fst).Pairwise Path.Before ∧
    (g.positions.map fun entry => entry.1.text).Nodup := by
  have hreads := (decode_eq_ok_iff value g).1 h
  have hfinds := finds_positions hreads
  have hplain : ∀ path ∈ g.positions.map Prod.fst, path.Plain := by
    intro path hm
    obtain ⟨⟨path, p⟩, hmem, rfl⟩ := List.mem_map.1 hm
    obtain ⟨numbers, spot, -⟩ := exists_numbers_of_mem hreads hmem
    exact spot.plain
  refine ⟨fun path found => ⟨fun spot => ?_, ?_⟩, fun path p hm => ?_, hfinds.ordered, ?_⟩
  · obtain ⟨p, hm⟩ := hfinds.complete path found spot
    exact ⟨List.mem_map_of_mem (f := Prod.fst) hm, spot.at?_eq⟩
  · rintro ⟨hm, leads⟩
    obtain ⟨⟨path, p⟩, hmem, rfl⟩ := List.mem_map.1 hm
    obtain ⟨numbers, spot, -⟩ := exists_numbers_of_mem hreads hmem
    cases leads.symm.trans spot.at?_eq
    exact spot
  · obtain ⟨numbers, spot, hnumbers⟩ := exists_numbers_of_mem hreads hm
    refine ⟨numbers, spot.at?_eq, hnumbers, ?_⟩
    rw [← List.length_map Number.toFloat, hnumbers]
    simp [Position.toList]
  · have htext : ∀ path ∈ g.positions.map Prod.fst, ∀ path' ∈ g.positions.map Prod.fst,
        path.text = path'.text → path = path' := by
      intro path hm path' hm'
      exact Path.text_injective (hplain path hm) (hplain path' hm')
    have htexts := hfinds.nodup.map_on htext
    rwa [List.map_map] at htexts

/-- A collection of features with positions deep inside one, none in another, and an array of numbers
    that is no position. -/
def scattered : Json :=
  let feature (geometry : Json) : Json :=
    .object [("type", .string "Feature"), ("geometry", geometry),
      ("properties", .object [("coordinates", .array [.number (.integer 7), .number (.integer 7)])])]
  let collection (geometries : List Json) : Json :=
    .object [("type", .string "GeometryCollection"), ("geometries", .array geometries)]
  let coordinates (type : String) (value : Json) : Json :=
    .object [("coordinates", value), ("type", .string type)]
  let position (ordinates : List Int) : Json := .array (ordinates.map fun n => .number (.integer n))
  .object [("type", .string "FeatureCollection"), ("features", .array
    [feature .null,
      feature (collection
        [coordinates "Point" (position [200, 5, 9]),
          collection [coordinates "MultiPolygon"
            (.array [.array [.array [position [1, 2], position [3, -91]]]])]]),
      feature (coordinates "MultiPoint" (.array [])),
      feature (coordinates "LineString" (.array [position [-4, 8, 0]]))])]

/-- The four positions of that collection. -/
theorem positions_scattered :
    ∃ g, decode scattered = .ok g ∧
      (g.positions.map fun entry => (entry.1.text, entry.2.toList)) =
        [("features[1].geometry.geometries[0].coordinates", [200, 5, 9]),
          ("features[1].geometry.geometries[1].geometries[0].coordinates[0][0][0]", [1, 2]),
          ("features[1].geometry.geometries[1].geometries[0].coordinates[0][0][1]", [3, -91]),
          ("features[3].geometry.coordinates[0]", [-4, 8, 0])] ∧
      ∀ path found, scattered.PositionAt path found ↔
        path ∈ g.positions.map Prod.fst ∧ scattered.at? path = some found :=
  ⟨_, rfl, by decide +kernel, (positions_exact rfl).1⟩

end GeoJson

end CartoStyle
