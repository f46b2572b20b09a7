import CartoStyle.Proofs.Geo.Places
import CartoStyle.Proofs.Geo.Reading

set_option autoImplicit false

/-! # Walks through geographic data

A walk lists what it finds with paths. It is as it should be when it finds just what stands at some
places of the document, in document order (`Finds`). Walks are put together as documents are: from
those through the items of an array (`finds_items`) to the one through the outermost geometries of a
document (`finds_inGeometries`). -/

namespace CartoStyle

open Json (FeatureGeometryAt OuterGeometryAt InGeometries)

theorem Path.before_append {base path path' : Path} :
    Before (base ++ path) (base ++ path') ↔ Before path path' := by
  induction base with
  | nil => rfl
  | cons step rest ih => rw [List.cons_append, List.cons_append, before_cons, ih]

/-! ## Walks -/

/-- Whether a walk that starts at `base` finds just what stands at some spots below, in document
    order, each as what its value is read as. -/
structure Finds {α : Type} (spots : Path → Json → Prop) (reads : Json → α → Prop) (base : Path)
    (found : List (Path × α)) : Prop where
  sound : ∀ path a, (path, a) ∈ found →
    ∃ rest value, path = base ++ rest ∧ spots rest value ∧ reads value a
  complete : ∀ rest value, spots rest value → ∃ a, (base ++ rest, a) ∈ found
  ordered : (found.map Prod.fst).Pairwise Path.Before

namespace Finds

variable {α : Type} {spots spots' : Path → Json → Prop} {reads : Json → α → Prop} {base : Path}
  {found found' : List (Path × α)}

theorem of_iff (h : Finds spots reads base found)
    (same : ∀ path value, spots' path value ↔ spots path value) :
    Finds spots' reads base found := by
  have : spots' = spots := by
    funext path value
    exact propext (same path value)
  rwa [this]

/-- Nothing is found twice. -/
theorem nodup (h : Finds spots reads base found) : (found.map Prod.fst).Nodup :=
  h.ordered.imp fun before same => (same ▸ before).asymm (same ▸ before)

/-- Where nothing stands nothing is found. -/
theorem nothing (empty : ∀ path value, ¬spots path value) : Finds spots reads base [] where
  sound := by simp
  complete := fun path value spot => absurd spot (empty path value)
  ordered := .nil

/-- A value that stands at the base itself. -/
theorem single {value : Json} {a : α} (here : reads value a) :
    Finds (fun path found => path = [] ∧ found = value) reads base [(base, a)] where
  sound := by
    intro path a' hm
    cases List.mem_singleton.1 hm
    exact ⟨[], value, by simp, ⟨rfl, rfl⟩, here⟩
  complete := by
    rintro _ _ ⟨rfl, rfl⟩
    exact ⟨a, by simp⟩
  ordered := List.pairwise_singleton ..

/-- When all spots stand below the value that one step leads to, it is enough to walk there. -/
theorem step {step : Step} (h : Finds spots reads (base ++ [step]) found)
    (inside : ∀ path value, spots' path value ↔ ∃ rest, path = step :: rest ∧ spots rest value) :
    Finds spots' reads base found where
  sound := by
    intro path a hm
    obtain ⟨rest, value, rfl, spot, hreads⟩ := h.sound path a hm
    exact ⟨step :: rest, value, by simp, (inside _ _).2 ⟨rest, rfl, spot⟩, hreads⟩
  complete := by
    intro path value spot
    obtain ⟨rest, rfl, below⟩ := (inside path value).1 spot
    obtain ⟨a, hm⟩ := h.complete rest value below
    exact ⟨a, by simpa using hm⟩
  ordered := h.ordered

/-- Two walks, one after the other. -/
theorem append (h : Finds spots reads base found) (h' : Finds spots' reads base found')
    (before : ∀ path value path' value', spots path value → spots' path' value' →
      path.Before path') :
    Finds (fun path value => spots path value ∨ spots' path value) reads base
      (found ++ found') where
  sound := by
    intro path a hm
    rcases List.mem_append.1 hm with hm | hm
    · obtain ⟨rest, value, hpath, spot, hreads⟩ := h.sound path a hm
      exact ⟨rest, value, hpath, .inl spot, hreads⟩
    · obtain ⟨rest, value, hpath, spot, hreads⟩ := h'.sound path a hm
      exact ⟨rest, value, hpath, .inr spot, hreads⟩
  complete := by
    rintro rest value (spot | spot)
    · obtain ⟨a, hm⟩ := h.complete rest value spot
      exact ⟨a, List.mem_append_left _ hm⟩
    · obtain ⟨a, hm⟩ := h'.complete rest value spot
      exact ⟨a, List.mem_append_right _ hm⟩
  ordered := by
    rw [List.map_append, List.pairwise_append]
    refine ⟨h.ordered, h'.ordered, ?_⟩
    intro path hpath path' hpath'
    obtain ⟨⟨_, a⟩, hm, rfl⟩ := List.mem_map.1 hpath
    obtain ⟨⟨_, a'⟩, hm', rfl⟩ := List.mem_map.1 hpath'
    obtain ⟨rest, value, rfl, spot, -⟩ := h.sound _ a hm
    obtain ⟨rest', value', rfl, spot', -⟩ := h'.sound _ a' hm'
    exact Path.before_append.2 (before rest value rest' value' spot spot')

end Finds

/-- Where something stands in the items of a list, of which the first stands at `index`. -/
def ItemSpot (spots : Json → Path → Json → Prop) (index : Nat) (items : List Json) (path : Path)
    (found : Json) : Prop :=
  ∃ i item rest, items[i]? = some item ∧ path = .index (index + i) :: rest ∧ spots item rest found

theorem itemSpot_cons {spots : Json → Path → Json → Prop} {index : Nat} {first : Json}
    {items : List Json} {path : Path} {found : Json} :
    ItemSpot spots index (first :: items) path found ↔
      (∃ rest, path = .index index :: rest ∧ spots first rest found) ∨
        ItemSpot spots (index + 1) items path found := by
  constructor
  · rintro ⟨i, item, rest, here, rfl, spot⟩
    cases i with
    | zero =>
      obtain rfl : first = item := by simpa using here
      exact .inl ⟨rest, rfl, spot⟩
    | succ i => exact .inr ⟨i, item, rest, here, by rw [Nat.add_right_comm]; rfl, spot⟩
  · rintro (⟨rest, rfl, spot⟩ | ⟨i, item, rest, here, rfl, spot⟩)
    · exact ⟨0, first, rest, rfl, rfl, spot⟩
    · exact ⟨i + 1, item, rest, here, by rw [Nat.add_right_comm]; rfl, spot⟩

section

variable {α β : Type} {spots : Json → Path → Json → Prop} {reads : Json → β → Prop}
  {visit : Path → α → List (Path × β)}

/-- Walking through the items of a list, of which the first stands at `index`. -/
theorem finds_items {items : List Json} {as : List α}
    (each : List.Forall₂ (fun value a => ∀ base, Finds (spots value) reads base (visit base a))
      items as) (base : Path) (index : Nat) :
    Finds (ItemSpot spots index items) reads base
      ((as.zipIdx index).flatMap fun (a, i) => visit (base ++ [.index i]) a) := by
  induction each generalizing index with
  | nil => exact .nothing (by simp [ItemSpot])
  | @cons first a rest as hfirst _ ih =>
    rw [List.zipIdx_cons, List.flatMap_cons]
    have hhere : Finds (fun path found => ∃ inner, path = .index index :: inner ∧
        spots first inner found) reads base (visit (base ++ [.index index]) a) :=
      (hfirst _).step fun _ _ => Iff.rfl
    refine (hhere.append (ih (index + 1)) ?_).of_iff fun _ _ => itemSpot_cons
    -- What stands in the first item comes before all that stands in later ones.
    rintro _ _ _ _ ⟨_, rfl, -⟩ ⟨i, _, _, -, rfl, -⟩
    exact .inl (by omega)

/-- Walking through the items that a member of an object holds. -/
theorem finds_memberItems {key : String} {items : List Json} {as : List α}
    (each : List.Forall₂ (fun value a => ∀ base, Finds (spots value) reads base (visit base a))
      items as) (base : Path) :
    Finds (fun path found => ∃ i item rest, items[i]? = some item ∧
        path = .member key :: .index i :: rest ∧ spots item rest found) reads base
      (as.zipIdx.flatMap fun (a, i) => visit (base ++ [.member key] ++ [.index i]) a) := by
  refine (finds_items each (base ++ [.member key]) 0).step fun path found => ?_
  simp only [ItemSpot, Nat.zero_add]
  constructor
  · rintro ⟨i, item, rest, here, rfl, spot⟩
    exact ⟨_, rfl, i, item, rest, here, rfl, spot⟩
  · rintro ⟨_, rfl, i, item, rest, here, rfl, spot⟩
    exact ⟨i, item, rest, here, rfl, spot⟩

end

/-! ## Documents -/

/-- Where something stands in the geometry of a feature. -/
def InFeature (spots : Json → Path → Json → Prop) (value : Json) (path : Path) (found : Json) :
    Prop :=
  ∃ outer geometry inner, path = outer ++ inner ∧ FeatureGeometryAt value outer geometry ∧
    spots geometry inner found

section

variable {α : Type} {spots : Json → Path → Json → Prop} {reads : Json → α → Prop}
  {visit : Path → Geometry → List (Path × α)}

theorem inFeature_iff {members : List (String × Json)} (typed : Json.Typed "Feature" members)
    {path : Path} {found : Json} :
    InFeature spots (.object members) path found ↔ ∃ geometry rest,
      members.lookup "geometry" = some geometry ∧ geometry ≠ .null ∧
        path = .member "geometry" :: rest ∧ spots geometry rest found := by
  constructor
  · rintro ⟨_, geometry, rest, rfl, ⟨-, there, notNull⟩, spot⟩
    exact ⟨geometry, rest, there, notNull, rfl, spot⟩
  · rintro ⟨geometry, rest, there, notNull, rfl, spot⟩
    exact ⟨[.member "geometry"], geometry, rest, rfl, .here typed there notNull, spot⟩

theorem inGeometries_feature_iff {members : List (String × Json)}
    (typed : Json.Typed "Feature" members) {path : Path} {found : Json} :
    InGeometries spots (.object members) path found ↔
      InFeature spots (.object members) path found := by
  constructor
  · rintro ⟨outer, geometry, inner, rfl, houter, spot⟩
    cases houter with
    | geometry single => exact absurd typed single
    | feature inside => exact ⟨outer, geometry, inner, rfl, inside, spot⟩
    | item typed' => exact absurd (typed.unique typed') (by decide)
  · rintro ⟨outer, geometry, inner, rfl, inside, spot⟩
    exact ⟨outer, geometry, inner, rfl, .feature inside, spot⟩

theorem inGeometries_featureCollection_iff {members : List (String × Json)} {items : List Json}
    (typed : Json.Typed "FeatureCollection" members)
    (there : members.lookup "features" = some (.array items)) {path : Path} {found : Json} :
    InGeometries spots (.object members) path found ↔ ∃ i item rest, items[i]? = some item ∧
      path = .member "features" :: .index i :: rest ∧ InFeature spots item rest found := by
  constructor
  · rintro ⟨outer, geometry, inner, rfl, houter, spot⟩
    cases houter with
    | geometry _ bare => exact absurd typed bare
    | feature inside =>
      obtain ⟨typed', -, -⟩ := inside
      exact absurd (typed.unique typed') (by decide)
    | item _ there' here inside =>
      cases there.symm.trans there'
      exact ⟨_, _, _, here, rfl, _, geometry, inner, rfl, inside, spot⟩
  · rintro ⟨i, item, _, here, rfl, outer, geometry, inner, rfl, inside, spot⟩
    exact ⟨_, geometry, inner, rfl, .item typed there here inside, spot⟩

theorem inGeometries_geometry_iff {members : List (String × Json)}
    (single : ¬Json.Typed "Feature" members) (bare : ¬Json.Typed "FeatureCollection" members)
    {path : Path} {found : Json} :
    InGeometries spots (.object members) path found ↔ spots (.object members) path found := by
  constructor
  · rintro ⟨outer, geometry, inner, rfl, houter, spot⟩
    cases houter with
    | geometry => exact spot
    | feature inside =>
      obtain ⟨typed, -, -⟩ := inside
      exact absurd typed single
    | item typed => exact absurd typed bare
  · intro spot
    exact ⟨[], _, path, rfl, .geometry single bare, spot⟩

/-- A walk through the geometry of a feature, if it has one. -/
def Feature.walk (visit : Path → Geometry → List (Path × α)) (base : Path) (f : Feature) :
    List (Path × α) :=
  f.geometry.toList.flatMap (visit (base ++ [.member "geometry"]))

/-- A walk through the outermost geometries of a document. -/
def GeoJson.walk (visit : Path → Geometry → List (Path × α)) (g : GeoJson) : List (Path × α) :=
  g.geometries.flatMap fun (path, outer) => visit path outer

theorem GeoJson.walk_featureCollection (fs : List Feature) :
    (GeoJson.featureCollection fs).walk visit =
      fs.zipIdx.flatMap fun (f, i) => f.walk visit ([.member "features"] ++ [.index i]) := by
  rw [GeoJson.walk, geometries, List.filterMap_eq_flatMap_toList, List.flatMap_assoc]
  congr 1
  funext ⟨f, i⟩
  cases hgeometry : f.geometry <;> simp [Feature.walk, hgeometry]

variable (each : ∀ {value g}, Geometry.Reads value g → ∀ base,
  Finds (spots value) reads base (visit base g))

include each

theorem Feature.finds_walk {value : Json} {f : Feature} (h : Reads value f) (base : Path) :
    Finds (InFeature spots value) reads base (f.walk visit base) := by
  cases h with
  | bare typed absent =>
    refine .nothing fun path found spot => ?_
    obtain ⟨geometry, rest, there, notNull, -⟩ := (inFeature_iff typed).1 spot
    rcases absent with absent | null
    · cases there.symm.trans absent
    · cases there.symm.trans null
      exact notNull rfl
  | @placed members value g typed there notNull hreads =>
    have hwalk : (ofMembers members (some g)).walk visit base =
        visit (base ++ [.member "geometry"]) g := by
      simp [Feature.walk, ofMembers]
    rw [hwalk]
    refine (each hreads _).step fun path found => ?_
    rw [inFeature_iff typed]
    constructor
    · rintro ⟨geometry, rest, there', -, rfl, spot⟩
      cases there.symm.trans there'
      exact ⟨rest, rfl, spot⟩
    · rintro ⟨rest, rfl, spot⟩
      exact ⟨value, rest, there, notNull, rfl, spot⟩

/-- A walk through the outermost geometries finds what the walks through each of them do. -/
theorem GeoJson.finds_walk {value : Json} {g : GeoJson} (h : Reads value g) :
    Finds (InGeometries spots value) reads [] (g.walk visit) := by
  cases h with
  | @feature value f hreads =>
    have hwalk : (GeoJson.feature f).walk visit = f.walk visit [] := by
      cases hgeometry : f.geometry <;> simp [GeoJson.walk, geometries, Feature.walk, hgeometry]
    have hfinds := Feature.finds_walk each hreads []
    rw [hwalk]
    cases hreads with
    | bare typed | placed typed => exact hfinds.of_iff fun _ _ => inGeometries_feature_iff typed
  | featureCollection typed there hitems =>
    rw [walk_featureCollection]
    refine (finds_memberItems ?_ []).of_iff fun _ _ =>
      inGeometries_featureCollection_iff typed there
    exact hitems.imp fun _ _ hreads => Feature.finds_walk each hreads
  | @geometry _ g hreads =>
    have hwalk : (GeoJson.geometry g).walk visit = visit [] g := by
      simp [GeoJson.walk, geometries]
    rw [hwalk]
    obtain ⟨members, rfl⟩ := hreads.exists_object
    refine (each hreads []).of_iff fun _ _ => ?_
    obtain ⟨hfeature, hcollection⟩ := g.typeName_ne
    exact inGeometries_geometry_iff (fun typed => hfeature (hreads.typed.unique typed))
      (fun typed => hcollection (hreads.typed.unique typed))

end

end CartoStyle
