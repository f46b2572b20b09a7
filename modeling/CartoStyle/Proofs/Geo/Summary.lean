import CartoStyle.Proofs.Geo.Extent
import CartoStyle.Proofs.Geo.Tally
import Mathlib.Data.List.Perm.Basic
import Mathlib.Data.Set.Card

set_option autoImplicit false

/-! # The summary of a document

What the summary of a document counts is what stands in the document
(`GeoJson.analyze_exact`), and the order of features matters to no count. -/

namespace CartoStyle

open Binary64 (isNaN_of_isFinite lt_iff_rank le_iff_rank)
open Json (GeometryIn)

/-! ## Counting what a walk finds -/

/-- As many paths lead to what is found and passes a test as there are such entries. -/
theorem encard_paths {α : Type} {found : List (Path × α)} (nodup : (found.map Prod.fst).Nodup)
    (test : α → Bool) :
    {path | ∃ a, (path, a) ∈ found ∧ test a = true}.encard = (found.map Prod.snd).countP test := by
  have hset : {path | ∃ a, (path, a) ∈ found ∧ test a = true} =
      (((found.filter (test ·.2)).map Prod.fst).toFinset : Set Path) := by
    ext path
    simp
  have hnodup : ((found.filter (test ·.2)).map Prod.fst).Nodup :=
    nodup.sublist (List.filter_sublist.map Prod.fst)
  rw [hset, Set.encard_coe_eq_coe_finsetCard, List.toFinset_card_of_nodup hnodup, List.length_map,
    List.countP_map, List.countP_eq_length_filter]
  rfl

/-! ## Geometries -/

namespace Geometry

mutual

/-- A geometry and all those nested in it, with their paths. -/
def nestedAt (path : Path) : Geometry → List (Path × Geometry)
  | .collection gs => (path, .collection gs) :: nestedItemsAt (path ++ [.member "geometries"]) 0 gs
  | .point p => [(path, .point p)]
  | .multiPoint ps => [(path, .multiPoint ps)]
  | .lineString ps => [(path, .lineString ps)]
  | .multiLineString ls => [(path, .multiLineString ls)]
  | .polygon rs => [(path, .polygon rs)]
  | .multiPolygon ps => [(path, .multiPolygon ps)]

/-- The geometries of a list, of which the first stands at `index`, and all those nested in them. -/
def nestedItemsAt (path : Path) (index : Nat) : List Geometry → List (Path × Geometry)
  | [] => []
  | g :: rest => g.nestedAt (path ++ [.index index]) ++ nestedItemsAt path (index + 1) rest

end

theorem nestedItemsAt_eq (base : Path) (index : Nat) (gs : List Geometry) :
    nestedItemsAt base index gs =
      (gs.zipIdx index).flatMap fun (g, i) => g.nestedAt (base ++ [.index i]) := by
  induction gs generalizing index with
  | nil => rfl
  | cons g rest ih => rw [nestedItemsAt, ih, List.zipIdx_cons, List.flatMap_cons]

/-- A geometry that is no collection has none nested in it. -/
theorem nestedAt_of_readsCoordinates {value : Json} {g : Geometry} (h : g.ReadsCoordinates value)
    (base : Path) : g.nestedAt base = [(base, g)] := by
  cases g with
  | collection gs => exact h.elim
  | _ => rfl

theorem geometryIn_coordinates_iff {members : List (String × Json)} {type : String}
    (typed : Json.Typed type members) (single : type ≠ "GeometryCollection") {path : Path}
    {found : Json} :
    GeometryIn (.object members) path found ↔ path = [] ∧ found = .object members := by
  constructor
  · intro spot
    cases spot with
    | root => exact ⟨rfl, rfl⟩
    | item typed' => exact absurd (typed.unique typed') single
  · rintro ⟨rfl, rfl⟩
    exact .root

theorem geometryIn_collection_iff {members : List (String × Json)} {items : List Json}
    (typed : Json.Typed "GeometryCollection" members)
    (there : members.lookup "geometries" = some (.array items)) {path : Path} {found : Json} :
    GeometryIn (.object members) path found ↔
      (path = [] ∧ found = .object members) ∨ ∃ i item rest, items[i]? = some item ∧
        path = .member "geometries" :: .index i :: rest ∧ GeometryIn item rest found := by
  constructor
  · intro spot
    cases spot with
    | root => exact .inl ⟨rfl, rfl⟩
    | item _ there' here inside =>
      cases there.symm.trans there'
      exact .inr ⟨_, _, _, here, rfl, inside⟩
  · rintro (⟨rfl, rfl⟩ | ⟨i, item, rest, here, rfl, inside⟩)
    · exact .root
    · exact .item typed there here inside

/-- The geometries nested in a geometry are those that stand in it. -/
theorem finds_nestedAt {value : Json} {g : Geometry} (h : Reads value g) (base : Path) :
    Finds (GeometryIn value) Reads base (g.nestedAt base) := by
  induction value using Json.geometries_induction generalizing g base with
  | step value ih =>
  have hreads := h
  cases h with
  | coordinates typed there reads =>
    have single : g.typeName ≠ "GeometryCollection" := by
      intro hcollection
      cases g with
      | collection gs => exact reads.elim
      | _ => simp [typeName] at hcollection
    rw [nestedAt_of_readsCoordinates reads]
    exact (Finds.single hreads).of_iff fun _ _ => geometryIn_coordinates_iff typed single
  | @collection members items gs typed there each =>
    have hitems : List.Forall₂ (fun item g => ∀ base,
        Finds (GeometryIn item) Reads base (g.nestedAt base)) items gs := by
      have hboth := (List.forall₂_and_left items gs).2 ⟨ih items there, each⟩
      exact hboth.imp fun _ _ h => h.1 h.2
    rw [nestedAt, nestedItemsAt_eq]
    refine ((Finds.single hreads).append (finds_memberItems hitems base) ?_).of_iff fun _ _ =>
      geometryIn_collection_iff typed there
    -- The collection comes before all that it holds.
    rintro _ _ _ _ ⟨rfl, -⟩ ⟨i, _, _, -, rfl, -⟩
    trivial

mutual

theorem map_snd_nestedAt (g : Geometry) (path : Path) :
    (g.nestedAt path).map Prod.snd = g.nested := by
  match g with
  | .collection gs => rw [nestedAt, nested, List.map_cons, map_snd_nestedItemsAt gs]
  | .point _ | .multiPoint _ | .lineString _ | .multiLineString _ | .polygon _
  | .multiPolygon _ => rfl

theorem map_snd_nestedItemsAt (gs : List Geometry) (path : Path) (index : Nat) :
    (nestedItemsAt path index gs).map Prod.snd = nestedItems gs := by
  match gs with
  | [] => rfl
  | g :: rest =>
    rw [nestedItemsAt, nestedItems, List.map_append, map_snd_nestedAt g,
      map_snd_nestedItemsAt rest]

end

end Geometry

namespace GeoJson

theorem finds_geometries {value : Json} {g : GeoJson} (h : Reads value g) :
    Finds value.GeometryAt Geometry.Reads [] (g.walk Geometry.nestedAt) :=
  finds_walk Geometry.finds_nestedAt h

theorem map_snd_walk_nestedAt (g : GeoJson) :
    (g.walk Geometry.nestedAt).map Prod.snd = g.allGeometries := by
  rw [walk, allGeometries, List.map_flatMap]
  simp only [Geometry.map_snd_nestedAt]

theorem tallies_geometryCounts (g : GeoJson) :
    Tallies (g.allGeometries.map Geometry.typeName) g.geometryCounts :=
  Tallies.nil.foldl _

/-- As many geometries of a type stand in a document as are counted. -/
theorem encard_geometries {value : Json} {g : GeoJson} (h : Reads value g) (name : String) :
    {path | ∃ members, value.GeometryAt path (.object members) ∧ Json.Typed name members}.encard =
      (g.allGeometries.map Geometry.typeName).count name := by
  have hfinds := finds_geometries h
  have hset : {path | ∃ members, value.GeometryAt path (.object members) ∧
      Json.Typed name members} = {path | ∃ geometry, (path, geometry) ∈ g.walk Geometry.nestedAt ∧
        (geometry.typeName == name) = true} := by
    ext path
    constructor
    · rintro ⟨members, spot, typed⟩
      obtain ⟨geometry, hm⟩ := hfinds.complete path _ spot
      obtain ⟨rest, found, rfl, spot', reads⟩ := hfinds.sound path geometry hm
      cases spot.at?_eq.symm.trans spot'.at?_eq
      exact ⟨geometry, hm, beq_iff_eq.2 (reads.typed.unique typed)⟩
    · rintro ⟨geometry, hm, hname⟩
      obtain ⟨rest, found, rfl, spot, reads⟩ := hfinds.sound path geometry hm
      obtain ⟨members, rfl⟩ := reads.exists_object
      exact ⟨members, spot, beq_iff_eq.1 hname ▸ reads.typed⟩
  rw [hset, encard_paths hfinds.nodup, map_snd_walk_nestedAt, List.count, List.countP_map]
  rfl

/-- As many positions stand in a document as it has. -/
theorem encard_positions {value : Json} {g : GeoJson} (h : Reads value g) :
    {path | ∃ found, value.PositionAt path found}.encard = g.positions.length := by
  have hfinds := finds_positions h
  have hset : {path | ∃ found, value.PositionAt path found} =
      {path | ∃ p, (path, p) ∈ g.positions ∧ true = true} := by
    ext path
    constructor
    · rintro ⟨found, spot⟩
      obtain ⟨p, hm⟩ := hfinds.complete path found spot
      exact ⟨p, hm, rfl⟩
    · rintro ⟨p, hm, -⟩
      obtain ⟨rest, found, rfl, spot, -⟩ := hfinds.sound path p hm
      exact ⟨found, spot⟩
  rw [hset, encard_paths hfinds.nodup, List.countP_true, List.length_map]

end GeoJson

/-! ## Positions off the globe -/

/-- Whether a longitude or a latitude is none on the globe. -/
def OffGlobe (x y : Float) : Prop := x < -180 ∨ 180 < x ∨ y < -90 ∨ 90 < y

theorem inRange_eq_false_iff {low high x : Float} (hlow : low.isNaN = false)
    (hhigh : high.isNaN = false) (hx : x.isNaN = false) :
    inRange (low, high) x = false ↔ x < low ∨ high < x := by
  rw [inRange, Bool.and_eq_false_iff, decide_eq_false_iff_not, decide_eq_false_iff_not,
    le_iff_rank hlow hx, le_iff_rank hx hhigh, lt_iff_rank hx hlow, lt_iff_rank hhigh hx, Int.not_le,
    Int.not_le]

theorem Position.onGlobe_eq_false_iff {p : Position} (hx : p.x.isFinite = true)
    (hy : p.y.isFinite = true) : p.onGlobe = false ↔ OffGlobe p.x p.y := by
  have hlongitudes : (-180 : Float).isNaN = false ∧ (180 : Float).isNaN = false := by
    decide +kernel
  have hlatitudes : (-90 : Float).isNaN = false ∧ (90 : Float).isNaN = false := by decide +kernel
  rw [onGlobe, longitudes, latitudes, Bool.and_eq_false_iff,
    inRange_eq_false_iff hlongitudes.1 hlongitudes.2 (isNaN_of_isFinite hx),
    inRange_eq_false_iff hlatitudes.1 hlatitudes.2 (isNaN_of_isFinite hy), or_assoc]
  rfl

/-! ## The order of features -/

theorem Geometry.map_snd_located {α β : Type} {visit : Path → α → List (Path × β)}
    (same : ∀ a path path', (visit path a).map Prod.snd = (visit path' a).map Prod.snd)
    (items : List α) (path path' : Path) :
    (located path visit items).map Prod.snd = (located path' visit items).map Prod.snd := by
  rw [located, located, List.map_flatMap, List.map_flatMap]
  congr 1
  funext ⟨a, i⟩
  exact same a _ _

namespace Geometry

mutual

/-- Where a geometry stands does not matter to its positions. -/
theorem map_snd_positions (g : Geometry) (path path' : Path) :
    (g.positions path).map Prod.snd = (g.positions path').map Prod.snd := by
  have hsingle : ∀ (p : Position) (path path' : Path),
      (single path p).map Prod.snd = (single path' p).map Prod.snd := fun _ _ _ => rfl
  have hline := map_snd_located hsingle
  have hlines := map_snd_located hline
  match g with
  | .point p => rfl
  | .multiPoint ps | .lineString ps => exact hline ps _ _
  | .multiLineString ls | .polygon ls => exact hlines ls _ _
  | .multiPolygon ps => exact map_snd_located hlines ps _ _
  | .collection gs =>
    rw [positions, positions]
    exact map_snd_positionsItems gs _ _ 0 0

theorem map_snd_positionsItems (gs : List Geometry) (path path' : Path) (index index' : Nat) :
    (positionsItems path index gs).map Prod.snd =
      (positionsItems path' index' gs).map Prod.snd := by
  match gs with
  | [] => rfl
  | g :: rest =>
    rw [positionsItems, positionsItems, List.map_append, List.map_append,
      map_snd_positions g _ (path' ++ [.index index']),
      map_snd_positionsItems rest path path' (index + 1) (index' + 1)]

end

end Geometry

section

variable {α : Type} {visit : Path → Geometry → List (Path × α)}
  (same : ∀ g path path', (visit path g).map Prod.snd = (visit path' g).map Prod.snd)

include same

theorem Feature.map_snd_walk (f : Feature) (path path' : Path) :
    (f.walk visit path).map Prod.snd = (f.walk visit path').map Prod.snd := by
  rw [walk, walk, List.map_flatMap, List.map_flatMap]
  congr 1
  funext g
  exact same g _ _

theorem GeoJson.map_snd_walk_featureCollection (fs : List Feature) :
    ((featureCollection fs).walk visit).map Prod.snd =
      fs.flatMap fun f => (f.walk visit []).map Prod.snd := by
  rw [walk_featureCollection, List.map_flatMap]
  conv_rhs => rw [← List.zipIdx_map_fst 0 fs, List.flatMap_map]
  congr 1
  funext ⟨f, i⟩
  exact f.map_snd_walk same _ _

/-- What is found in features in another order is the same, in another order. -/
theorem GeoJson.walk_perm {fs fs' : List Feature} (perm : fs'.Perm fs) :
    (((featureCollection fs').walk visit).map Prod.snd).Perm
      (((featureCollection fs).walk visit).map Prod.snd) := by
  rw [map_snd_walk_featureCollection same, map_snd_walk_featureCollection same]
  exact perm.flatMap_right _

end

namespace GeoJson

theorem positions_perm {fs fs' : List Feature} (perm : fs'.Perm fs) :
    ((featureCollection fs').positions.map Prod.snd).Perm
      ((featureCollection fs).positions.map Prod.snd) :=
  walk_perm Geometry.map_snd_positions perm

theorem allGeometries_perm {fs fs' : List Feature} (perm : fs'.Perm fs) :
    (featureCollection fs').allGeometries.Perm (featureCollection fs).allGeometries := by
  rw [← map_snd_walk_nestedAt, ← map_snd_walk_nestedAt]
  refine walk_perm (fun g path path' => ?_) perm
  rw [Geometry.map_snd_nestedAt, Geometry.map_snd_nestedAt]

theorem geometryCounts_congr {g g' : GeoJson} (perm : g'.allGeometries.Perm g.allGeometries) :
    g'.geometryCounts = g.geometryCounts :=
  (tallies_geometryCounts g').unique (tallies_geometryCounts g) fun name =>
    (perm.map Geometry.typeName).count_eq name

/-- A collection of features is read as the features of its items. -/
theorem reads_featureCollection {members : List (String × Json)} {items : List Json} {g : GeoJson}
    (h : Reads (.object members) g) (typed : Json.Typed "FeatureCollection" members)
    (there : members.lookup "features" = some (.array items)) :
    ∃ fs, g = .featureCollection fs ∧ List.Forall₂ Feature.Reads items fs := by
  cases h with
  | feature reads => exact absurd (typed.unique reads.typed) (by decide)
  | @featureCollection _ _ fs _ there' each =>
    cases there.symm.trans there'
    exact ⟨fs, rfl, each⟩
  | @geometry _ g reads => exact absurd (typed.unique reads.typed).symm g.typeName_ne.2

end GeoJson

/-- Positions in another order have the same box. -/
theorem Extent.box_perm {ps ps' : List Position} (perm : ps'.Perm ps)
    (finite : ∀ p ∈ ps, p.x.isFinite = true ∧ p.y.isFinite = true) :
    Option.Rel Box.Same (ofPositions ps).box (ofPositions ps').box := by
  cases hbox : (ofPositions ps).box with
  | none =>
    obtain rfl := box_ofPositions_eq_none_iff.1 hbox
    rw [perm.eq_nil, hbox]
    exact .none
  | some box =>
    obtain ⟨box', hbox'⟩ : ∃ box', (ofPositions ps').box = some box' := by
      rw [← Option.ne_none_iff_exists', Ne, box_ofPositions_eq_none_iff]
      rintro rfl
      rw [box_ofPositions_eq_none_iff.2 perm.symm.eq_nil] at hbox
      cases hbox
    have htight := tight_ofPositions finite hbox
    have htight' := tight_ofPositions (fun p hp => finite p (perm.mem_iff.1 hp)) hbox'
    rw [hbox']
    have hx : ∀ x ∈ ps.map (·.x), x.isFinite = true :=
      List.forall_mem_map.2 fun p hp => (finite p hp).1
    have hy : ∀ y ∈ ps.map (·.y), y.isFinite = true :=
      List.forall_mem_map.2 fun p hp => (finite p hp).2
    refine .some (htight.same (htight'.of_iff (fun x => ?_) fun y => ?_) hx hy)
    · exact (perm.map (·.x)).mem_iff.symm
    · exact (perm.map (·.y)).mem_iff.symm

/-! ## What a summary says -/

/-- How many features a document has. -/
inductive Json.FeatureTotal : Json → Nat → Prop
  | geometry {members : List (String × Json)} (single : ¬Typed "Feature" members)
      (bare : ¬Typed "FeatureCollection" members) : FeatureTotal (.object members) 0
  | feature {members : List (String × Json)} (typed : Typed "Feature" members) :
      FeatureTotal (.object members) 1
  | featureCollection {members : List (String × Json)} {items : List Json}
      (typed : Typed "FeatureCollection" members)
      (there : members.lookup "features" = some (.array items)) :
      FeatureTotal (.object members) items.length

namespace GeoSummary

/-- Whether a summary counts what stands in a document. -/
structure Describes (s : GeoSummary) (value : Json) : Prop where
  featureCount : value.FeatureTotal s.featureCount
  geometryCounts : ∀ name (n : Nat), (name, n) ∈ s.geometryCounts ↔ n ≠ 0 ∧
    {path | ∃ members, value.GeometryAt path (.object members) ∧
      Json.Typed name members}.encard = n
  alphabetical : (s.geometryCounts.map Prod.fst).Pairwise (· < ·)
  positionCount : {path | ∃ found, value.PositionAt path found}.encard = s.positionCount
  outOfRange : ∀ path, path ∈ s.outOfRange ↔ ∃ (numbers : List Number) (x y : Float)
    (more : List Float), value.PositionAt path (.array (numbers.map .number)) ∧
      numbers.map Number.toFloat = x :: y :: more ∧ OffGlobe x y
  ordered : s.outOfRange.Pairwise Path.Before

/-- Whether two summaries differ at most in the paths off the globe and in the signs of zeros. -/
structure Alike (s s' : GeoSummary) : Prop where
  featureCount : s'.featureCount = s.featureCount
  geometryCounts : s'.geometryCounts = s.geometryCounts
  positionCount : s'.positionCount = s.positionCount
  outOfRange : s'.outOfRange.length = s.outOfRange.length
  box : Option.Rel Box.Same s.box s'.box

end GeoSummary

namespace GeoJson

theorem featureTotal {value : Json} {g : GeoJson} (h : Reads value g) :
    value.FeatureTotal g.featureCount := by
  cases h with
  | feature reads =>
    cases reads with
    | bare typed => exact .feature typed
    | placed typed => exact .feature typed
  | featureCollection typed there each =>
    rw [featureCount, features, ← each.length_eq]
    exact .featureCollection typed there
  | @geometry _ g reads =>
    obtain ⟨members, rfl⟩ := reads.exists_object
    exact .geometry (fun typed => g.typeName_ne.1 (reads.typed.unique typed))
      fun typed => g.typeName_ne.2 (reads.typed.unique typed)

theorem mem_outOfRange_iff {value : Json} {g : GeoJson} (wf : value.WellFormed)
    (finite : value.FiniteFloats) (h : Reads value g) {path : Path} :
    path ∈ g.summary.outOfRange ↔ ∃ (numbers : List Number) (x y : Float) (more : List Float),
      value.PositionAt path (.array (numbers.map .number)) ∧
        numbers.map Number.toFloat = x :: y :: more ∧ OffGlobe x y := by
  have hmem : path ∈ g.summary.outOfRange ↔ ∃ p, (path, p) ∈ g.positions ∧ p.onGlobe = false := by
    simp [summary]
  have hoff : ∀ p, (path, p) ∈ g.positions → (p.onGlobe = false ↔ OffGlobe p.x p.y) := by
    intro p hm
    obtain ⟨hx, hy⟩ := isFinite_of_mem_positions wf finite h p (List.mem_map_of_mem hm)
    exact Position.onGlobe_eq_false_iff hx hy
  rw [hmem]
  constructor
  · rintro ⟨p, hm, hglobe⟩
    obtain ⟨numbers, spot, hnumbers⟩ := exists_numbers_of_mem h hm
    exact ⟨numbers, p.x, p.y, p.more, spot, hnumbers, (hoff p hm).1 hglobe⟩
  · rintro ⟨numbers, x, y, more, spot, hnumbers, hglobe⟩
    obtain ⟨p, hm, hp⟩ := exists_position_of_positionAt h spot
    obtain ⟨rfl, rfl, rfl⟩ : x = p.x ∧ y = p.y ∧ more = p.more := by
      simpa [Position.toList] using hnumbers.symm.trans hp
    exact ⟨p, hm, (hoff p hm).2 hglobe⟩

/-- A summary counts what stands in the document. -/
theorem describes_summary {value : Json} {g : GeoJson} (wf : value.WellFormed)
    (finite : value.FiniteFloats) (h : Reads value g) : g.summary.Describes value where
  featureCount := featureTotal h
  geometryCounts := by
    intro name n
    rw [encard_geometries h, Nat.cast_inj]
    exact (tallies_geometryCounts g).mem_iff
  alphabetical := (tallies_geometryCounts g).sorted
  positionCount := by
    show _ = ((g.extent.visited : Nat) : ℕ∞)
    rw [encard_positions h, extent, Extent.visited_ofPositions, List.length_map]
  outOfRange := fun path => mem_outOfRange_iff wf finite h
  ordered := (finds_positions h).ordered.sublist (List.filter_sublist.map Prod.fst)

/-- Collections with the same features in another order have summaries that are alike. -/
theorem alike_summary {fs fs' : List Feature} (perm : fs'.Perm fs)
    (finite : ∀ p ∈ (featureCollection fs).positions.map Prod.snd,
      p.x.isFinite = true ∧ p.y.isFinite = true) :
    (featureCollection fs).summary.Alike (featureCollection fs').summary where
  featureCount := perm.length_eq
  geometryCounts := geometryCounts_congr (allGeometries_perm perm)
  positionCount := by
    show (extent _).visited = (extent _).visited
    rw [extent, extent, Extent.visited_ofPositions, Extent.visited_ofPositions,
      (positions_perm perm).length_eq]
  outOfRange := by
    have hlength : ∀ g : GeoJson, g.summary.outOfRange.length =
        (g.positions.map Prod.snd).countP fun p => !p.onGlobe := by
      intro g
      rw [summary, List.length_map, List.countP_map, List.countP_eq_length_filter]
      rfl
    rw [hlength, hlength, (positions_perm perm).countP_eq]
  box := Extent.box_perm (positions_perm perm) finite

/-- Features may be given in any order. -/
theorem reads_reordered {members : List (String × Json)} {items items' : List Json}
    {fs : List Feature} (typed : Json.Typed "FeatureCollection" members)
    (each : List.Forall₂ Feature.Reads items fs) (perm : items'.Perm items) :
    ∃ fs', fs'.Perm fs ∧
      Reads (.object (Members.put "features" (.array items') members)) (.featureCollection fs') := by
  obtain ⟨fs', each', hperm⟩ := List.perm_comp_forall₂ perm each
  have typed' : Json.Typed "FeatureCollection" (Members.put "features" (.array items') members) := by
    rw [Json.Typed, Members.lookup_put, if_neg (by decide)]
    exact typed
  refine ⟨fs', hperm, .featureCollection typed' ?_ each'⟩
  rw [Members.lookup_put, if_pos rfl]

/-- **The summary of a document counts what stands in it.** The number of features is that of the
    document's type, every type that occurs is listed once, in alphabetical order, with as many
    geometries as there are at any depth, as many positions are counted as there are, and the paths
    off the globe are those of just the positions that lie there, in document order. A collection
    with its features in another order has the same counts, as many positions off the globe, and as
    numbers the same box. -/
theorem analyze_exact {value : Json} {g : GeoJson} (wf : value.WellFormed)
    (finite : value.FiniteFloats) (h : decode value = .ok g) :
    ∃ summary, analyze (.value value) = .ok summary ∧ summary.Describes value ∧
      ∀ members items items', value = .object members →
        Json.Typed "FeatureCollection" members →
        members.lookup "features" = some (.array items) → items'.Perm items →
        ∃ summary', analyze (.value (.object (Members.put "features" (.array items') members))) =
            .ok summary' ∧ summary.Alike summary' := by
  have hanalyze : ∀ {value g}, decode value = .ok g → analyze (.value value) = .ok g.summary := by
    intro value g h
    rw [analyze, ofDocument_value h]
    rfl
  have hreads := (decode_eq_ok_iff value g).1 h
  refine ⟨g.summary, hanalyze h, describes_summary wf finite hreads, ?_⟩
  rintro members items items' rfl typed there perm
  obtain ⟨fs, rfl, each⟩ := reads_featureCollection hreads typed there
  obtain ⟨fs', hperm, hreads'⟩ := reads_reordered typed each perm
  exact ⟨_, hanalyze ((decode_eq_ok_iff _ _).2 hreads'),
    alike_summary hperm (isFinite_of_mem_positions wf finite hreads)⟩

/-- Geometries inside collections are counted, and so are the collections themselves. -/
theorem analyze_scattered :
    ∃ summary, analyze (.value scattered) = .ok summary ∧ summary.Describes scattered ∧
      summary.featureCount = 4 ∧ summary.positionCount = 4 ∧
      summary.geometryCounts = [("GeometryCollection", 2), ("LineString", 1), ("MultiPoint", 1),
        ("MultiPolygon", 1), ("Point", 1)] ∧
      summary.outOfRange.map Path.text = ["features[1].geometry.geometries[0].coordinates",
        "features[1].geometry.geometries[1].geometries[0].coordinates[0][0][1]"] := by
  obtain ⟨summary, hanalyze, hdescribes, -⟩ :=
    analyze_exact wellFormed_scattered finiteFloats_scattered rfl
  have hsummary : analyze (.value scattered) = .ok _ := rfl
  obtain rfl := Except.ok.inj (hanalyze.symm.trans hsummary)
  exact ⟨_, hanalyze, hdescribes, by decide +kernel, by decide +kernel, by decide +kernel,
    by decide +kernel⟩

end GeoJson

end CartoStyle
