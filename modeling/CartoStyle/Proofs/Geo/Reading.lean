import CartoStyle.Proofs.Geo.FirstFlaw
import Mathlib.Data.List.Forall2

set_option autoImplicit false

/-! # What geographic data is read as

Which geometry, feature or document a value is read as, by relations between the two
(`Geometry.Reads`, `Feature.Reads`, `GeoJson.Reads`). Decoding finds just these, wherever the value
stands (`GeoJson.decode_eq_ok_iff`): the path that a decoder carries is for its errors alone. -/

namespace CartoStyle

/-- Whether a value is an array whose items are read, one by one, as those of a list. -/
def Json.Holds {α : Type} (reads : Json → α → Prop) (value : Json) (as : List α) : Prop :=
  ∃ items, value = .array items ∧ List.Forall₂ reads items as

/-- Whether a value is an array of numbers, which are the ordinates of a position. -/
def Position.Reads (value : Json) (p : Position) : Prop :=
  ∃ numbers : List Number, value = .array (numbers.map .number) ∧
    numbers.map Number.toFloat = p.toList

namespace Geometry

/-- Whether a value is coordinates that are read as those of a geometry. -/
def ReadsCoordinates (value : Json) : Geometry → Prop
  | .point p => Position.Reads value p
  | .multiPoint ps => Json.Holds Position.Reads value ps
  | .lineString ps => Json.Holds Position.Reads value ps
  | .multiLineString ls => Json.Holds (Json.Holds Position.Reads) value ls
  | .polygon rs => Json.Holds (Json.Holds Position.Reads) value rs
  | .multiPolygon ps => Json.Holds (Json.Holds (Json.Holds Position.Reads)) value ps
  | .collection _ => False

/-- Whether a value is read as a geometry. -/
inductive Reads : Json → Geometry → Prop
  | coordinates {members : List (String × Json)} {value : Json} {g : Geometry}
      (typed : Json.Typed g.typeName members)
      (there : members.lookup "coordinates" = some value) (reads : g.ReadsCoordinates value) :
      Reads (.object members) g
  | collection {members : List (String × Json)} {items : List Json} {gs : List Geometry}
      (typed : Json.Typed "GeometryCollection" members)
      (there : members.lookup "geometries" = some (.array items))
      (each : List.Forall₂ Reads items gs) : Reads (.object members) (.collection gs)

end Geometry

namespace Feature

/-- The feature of some members with the given geometry. -/
def ofMembers (members : List (String × Json)) (geometry : Option Geometry) : Feature :=
  { id := members.lookup "id"
    geometry
    properties := (members.lookup "properties").bind Json.asObject? }

/-- Whether a value is read as a feature. -/
inductive Reads : Json → Feature → Prop
  | bare {members : List (String × Json)} (typed : Json.Typed "Feature" members)
      (absent : members.lookup "geometry" = none ∨ members.lookup "geometry" = some .null) :
      Reads (.object members) (ofMembers members none)
  | placed {members : List (String × Json)} {value : Json} {g : Geometry}
      (typed : Json.Typed "Feature" members) (there : members.lookup "geometry" = some value)
      (notNull : value ≠ .null) (reads : Geometry.Reads value g) :
      Reads (.object members) (ofMembers members (some g))

end Feature

/-- Whether a value is read as a document. -/
inductive GeoJson.Reads : Json → GeoJson → Prop
  | feature {value : Json} {f : Feature} (reads : Feature.Reads value f) : Reads value (.feature f)
  | featureCollection {members : List (String × Json)} {items : List Json} {fs : List Feature}
      (typed : Json.Typed "FeatureCollection" members)
      (there : members.lookup "features" = some (.array items))
      (each : List.Forall₂ Feature.Reads items fs) :
      Reads (.object members) (.featureCollection fs)
  | geometry {value : Json} {g : Geometry} (reads : Geometry.Reads value g) :
      Reads value (.geometry g)

/-! ## Items -/

section

variable {α : Type} {item : Path → Json → Except GeoError α} {reads : Json → α → Prop}

theorem decodeItems_eq_ok_iff {items : List Json}
    (each : ∀ value ∈ items, ∀ base a, item base value = .ok a ↔ reads value a) (base : Path)
    (index : Nat) (as : List α) :
    decodeItems item base index items = .ok as ↔ List.Forall₂ reads items as := by
  induction items generalizing index as with
  | nil => simp [decodeItems, eq_comm]
  | cons first rest ih =>
    have hrest := ih (fun value hm => each value (List.mem_cons_of_mem _ hm)) (index + 1)
    have hfirst := each first (List.mem_cons_self ..) (base ++ [.index index])
    rw [decodeItems, bind_eq_ok, List.forall₂_cons_left_iff]
    simp only [bind_eq_ok, hfirst, hrest]
    constructor
    · rintro ⟨a, ha, as', has, ⟨⟩⟩
      exact ⟨a, as', ha, has, rfl⟩
    · rintro ⟨a, as', ha, has, rfl⟩
      exact ⟨a, ha, as', has, rfl⟩

theorem decodeArray_eq_ok_iff
    (each : ∀ value base a, item base value = .ok a ↔ reads value a) (value : Json) (base : Path)
    (as : List α) : decodeArray item base value = .ok as ↔ Json.Holds reads value as := by
  cases value with
  | array items =>
    rw [decodeArray, decodeItems_eq_ok_iff fun value _ => each value]
    simp [Json.Holds]
  | _ => simp [decodeArray, Json.Holds]

end

/-! ## Coordinates -/

theorem decodeOrdinate_eq_ok_iff (value : Json) (base : Path) (x : Float) :
    decodeOrdinate base value = .ok x ↔ ∃ n : Number, value = .number n ∧ n.toFloat = x := by
  cases value <;> simp [decodeOrdinate]

theorem forall₂_number_iff {items : List Json} {xs : List Float} :
    List.Forall₂ (fun value x => ∃ n : Number, value = .number n ∧ n.toFloat = x) items xs ↔
      ∃ numbers : List Number, items = numbers.map .number ∧ numbers.map Number.toFloat = xs := by
  constructor
  · intro h
    induction h with
    | nil => exact ⟨[], rfl, rfl⟩
    | cons first _ ih =>
      obtain ⟨n, rfl, rfl⟩ := first
      obtain ⟨numbers, rfl, rfl⟩ := ih
      exact ⟨n :: numbers, rfl, rfl⟩
  · rintro ⟨numbers, rfl, rfl⟩
    rw [List.forall₂_map_left_iff, List.forall₂_map_right_iff]
    exact List.forall₂_same.2 fun n _ => ⟨n, rfl, rfl⟩

theorem Position.ofList?_eq_some_iff {xs : List Float} {p : Position} :
    Position.ofList? xs = some p ↔ xs = p.toList := by
  obtain ⟨x, y, more⟩ := p
  rcases xs with _ | ⟨x', _ | ⟨y', more'⟩⟩ <;> simp [ofList?, toList]

theorem decodePosition_eq_ok_iff (value : Json) (base : Path) (p : Position) :
    decodePosition base value = .ok p ↔ p.Reads value := by
  cases value with
  | array items =>
    have hitems : ∀ xs : List Float, decodeItems decodeOrdinate base 0 items = .ok xs ↔
        ∃ numbers : List Number, items = numbers.map .number ∧ numbers.map Number.toFloat = xs := by
      intro xs
      rw [decodeItems_eq_ok_iff fun value _ => decodeOrdinate_eq_ok_iff value, forall₂_number_iff]
    rw [decodePosition]
    constructor
    · intro h
      split at h
      · cases h
      obtain ⟨xs, hxs, h⟩ := bind_eq_ok.1 h
      obtain ⟨numbers, rfl, rfl⟩ := (hitems xs).1 hxs
      split at h
      · next p' hp =>
        cases h
        exact ⟨numbers, rfl, Position.ofList?_eq_some_iff.1 hp⟩
      · cases h
    · rintro ⟨numbers, hnumbers, hp⟩
      obtain rfl := Json.array.inj hnumbers
      have hlength : 2 ≤ numbers.length := by
        rw [← List.length_map Number.toFloat, hp]
        simp [Position.toList]
      rw [if_neg (by rw [List.length_map]; omega), bind_eq_ok]
      refine ⟨p.toList, (hitems _).2 ⟨numbers, rfl, hp⟩, ?_⟩
      rw [Position.ofList?_eq_some_iff.2 rfl]
      rfl
  | _ => simp [decodePosition, Position.Reads]

theorem map_eq_ok {ε α β : Type} {f : α → β} {result : Except ε α} {b : β} :
    result.map f = .ok b ↔ ∃ a, result = .ok a ∧ f a = b := by
  cases result <;> simp [Except.map]

namespace Geometry

/-- Decoding coordinates of a type finds the geometries of that type that have them. -/
theorem coordinateDecoder?_eq_ok_iff {type : String}
    {decode : Path → Json → Except GeoError Geometry} (h : coordinateDecoder? type = some decode)
    (value : Json) (base : Path) (g : Geometry) :
    decode base value = .ok g ↔ g.typeName = type ∧ g.ReadsCoordinates value := by
  have hposition := decodePosition_eq_ok_iff
  have hline : ∀ value base ps, decodeLine base value = .ok ps ↔ _ :=
    decodeArray_eq_ok_iff hposition
  have hlines : ∀ value base ls, decodeLines base value = .ok ls ↔ _ := decodeArray_eq_ok_iff hline
  have hpolygons := decodeArray_eq_ok_iff hlines
  unfold coordinateDecoder? at h
  split at h
  case h_1 | h_2 | h_3 | h_4 | h_5 | h_6 =>
    cases h
    cases g <;>
      simp [map_eq_ok, typeName, ReadsCoordinates, hposition, hline, hlines, hpolygons]
  case h_7 => cases h

/-- A geometry is neither a feature nor a collection of features. -/
theorem typeName_ne (g : Geometry) :
    g.typeName ≠ "Feature" ∧ g.typeName ≠ "FeatureCollection" := by
  cases g <;> simp [typeName]

theorem Reads.typed {members : List (String × Json)} {g : Geometry}
    (h : Reads (.object members) g) : Json.Typed g.typeName members := by
  cases h with
  | coordinates typed => exact typed
  | collection typed => exact typed

theorem Reads.exists_object {value : Json} {g : Geometry} (h : Reads value g) :
    ∃ members, value = .object members := by
  cases h with
  | coordinates => exact ⟨_, rfl⟩
  | collection => exact ⟨_, rfl⟩

theorem isSome_coordinateDecoder? {value : Json} {g : Geometry} (h : g.ReadsCoordinates value) :
    (coordinateDecoder? g.typeName).isSome := by
  cases g with
  | collection gs => exact h.elim
  | _ => rfl

/-- Decoding finds the geometry that a value is read as, wherever the value stands. -/
theorem decode_eq_ok_iff (value : Json) (base : Path) (g : Geometry) :
    decode base value = .ok g ↔ Reads value g := by
  induction value using Json.geometries_induction generalizing base g with
  | step value ih =>
  cases value with
  | object members =>
    constructor
    · intro h
      cases htype : geoType members with
      | error e => simp [decode, htype] at h
      | ok type =>
        have typed := geoType_eq_ok_iff.1 htype
        rw [decode_object base typed] at h
        split at h
        · next hcollection =>
          subst hcollection
          rw [decodeMember_eq] at h
          split at h
          · next items there =>
            rw [decodeNested_eq, map_eq_ok] at h
            obtain ⟨gs, hgs, rfl⟩ := h
            exact .collection typed there
              ((decodeItems_eq_ok_iff (ih items there) _ 0 gs).1 hgs)
          · cases h
        · unfold decodeCoordinates at h
          split at h
          · cases h
          · cases h
          · next decode value hdecoder there =>
            obtain ⟨rfl, reads⟩ := (coordinateDecoder?_eq_ok_iff hdecoder value _ g).1 h
            exact .coordinates typed there reads
    · intro h
      cases h with
      | coordinates typed there reads =>
        obtain ⟨decode, hdecoder⟩ := Option.isSome_iff_exists.1 (isSome_coordinateDecoder? reads)
        have hcollection : g.typeName ≠ "GeometryCollection" := by
          intro h
          simp [h, coordinateDecoder?] at hdecoder
        rw [decode_object base typed, if_neg hcollection]
        simp only [decodeCoordinates, hdecoder, there]
        exact (coordinateDecoder?_eq_ok_iff hdecoder _ _ g).2 ⟨rfl, reads⟩
      | collection typed there each =>
        rw [decode_object base typed, if_pos rfl, decodeMember_eq, there]
        simp only [decodeNested_eq, map_eq_ok]
        exact ⟨_, (decodeItems_eq_ok_iff (ih _ there) _ 0 _).2 each, rfl⟩
  | _ =>
    refine iff_of_false ?_ (by rintro ⟨⟩)
    simp [decode]

end Geometry

/-! ## Features and documents -/

theorem Feature.Reads.typed {members : List (String × Json)} {f : Feature}
    (h : Reads (.object members) f) : Json.Typed "Feature" members := by
  cases h with
  | bare typed => exact typed
  | placed typed => exact typed

/-- A geometry that is not null is decoded. -/
theorem Feature.decodeGeometry_of_ne_null {value : Json} (notNull : value ≠ .null) (base : Path) :
    decodeGeometry base (some value) = (Geometry.decode base value).map some := by
  cases value with
  | null => exact absurd rfl notNull
  | _ => rfl

/-- An object of the right type is decoded to the feature that its members make with its
    geometry. -/
theorem Feature.decode_of_typed {members : List (String × Json)}
    (typed : Json.Typed "Feature" members) (base : Path) {geometry : Option Geometry}
    (h : decodeGeometry (base ++ [.member "geometry"]) (members.lookup "geometry") =
      .ok geometry) :
    decode base (.object members) = .ok (ofMembers members geometry) := by
  rw [decode, bind_eq_ok]
  refine ⟨_, geoType_eq_ok_iff.2 typed, ?_⟩
  rw [if_pos rfl, decodeMembers, h]
  rfl

/-- Decoding finds the feature that a value is read as, wherever the value stands. -/
theorem Feature.decode_eq_ok_iff (value : Json) (base : Path) (f : Feature) :
    decode base value = .ok f ↔ Reads value f := by
  cases value with
  | object members =>
    constructor
    · intro h
      rw [decode] at h
      obtain ⟨type, htype, h⟩ := bind_eq_ok.1 h
      have typed := geoType_eq_ok_iff.1 htype
      split at h
      · next hfeature =>
        subst hfeature
        rw [decodeMembers, map_eq_ok] at h
        obtain ⟨geometry, hgeometry, rfl⟩ := h
        unfold decodeGeometry at hgeometry
        split at hgeometry
        · next absent =>
          cases hgeometry
          exact .bare typed (.inl absent)
        · next null =>
          cases hgeometry
          exact .bare typed (.inr null)
        · next value notNull there =>
          obtain ⟨g, hg, rfl⟩ := map_eq_ok.1 hgeometry
          exact .placed typed there (by simpa using notNull)
            ((Geometry.decode_eq_ok_iff value _ g).1 hg)
      · cases h
    · intro h
      cases h with
      | bare typed absent =>
        refine decode_of_typed typed base ?_
        rcases absent with absent | null
        · rw [absent, decodeGeometry]
        · rw [null, decodeGeometry]
      | placed typed there notNull reads =>
        refine decode_of_typed typed base ?_
        rw [there, decodeGeometry_of_ne_null notNull, map_eq_ok]
        exact ⟨_, (Geometry.decode_eq_ok_iff _ _ _).2 reads, rfl⟩
  | _ =>
    refine iff_of_false ?_ (by rintro ⟨⟩)
    simp [decode]

/-- Decoding a document, by its type. -/
theorem GeoJson.decode_object {members : List (String × Json)} {type : String}
    (typed : Json.Typed type members) :
    decode (.object members) =
      if type = "Feature" then (Feature.decode [] (.object members)).map .feature
      else if type = "FeatureCollection" then
        match members.lookup "features" with
        | some features =>
          (decodeArray Feature.decode [.member "features"] features).map .featureCollection
        | none => throw (.invalidGeometry [.member "features"] .notAnArray)
      else (Geometry.decode [] (.object members)).map .geometry := by
  rw [decode, geoType_eq_ok_iff.2 typed]
  rfl

/-- Decoding finds the document that a value is read as. -/
theorem GeoJson.decode_eq_ok_iff (value : Json) (g : GeoJson) :
    decode value = .ok g ↔ Reads value g := by
  cases value with
  | object members =>
    constructor
    · intro h
      have hdecode := h
      rw [decode] at hdecode
      obtain ⟨type, htype, -⟩ := bind_eq_ok.1 hdecode
      have typed := geoType_eq_ok_iff.1 htype
      rw [decode_object typed] at h
      split at h
      · obtain ⟨f, hf, rfl⟩ := map_eq_ok.1 h
        exact .feature ((Feature.decode_eq_ok_iff _ _ f).1 hf)
      · next hfeature =>
        split at h
        · next hcollection =>
          subst hcollection
          split at h
          · next features there =>
            obtain ⟨fs, hfs, rfl⟩ := map_eq_ok.1 h
            obtain ⟨items, rfl, each⟩ :=
              (decodeArray_eq_ok_iff Feature.decode_eq_ok_iff features _ fs).1 hfs
            exact .featureCollection typed there each
          · cases h
        · next hcollection =>
          obtain ⟨geo, hgeo, rfl⟩ := map_eq_ok.1 h
          exact .geometry ((Geometry.decode_eq_ok_iff _ _ geo).1 hgeo)
    · intro h
      cases h with
      | feature reads =>
        rw [decode_object reads.typed, if_pos rfl, map_eq_ok]
        exact ⟨_, (Feature.decode_eq_ok_iff _ _ _).2 reads, rfl⟩
      | featureCollection typed there each =>
        rw [decode_object typed, if_neg (by decide), if_pos rfl, there]
        simp only [map_eq_ok]
        exact ⟨_, (decodeArray_eq_ok_iff Feature.decode_eq_ok_iff _ _ _).2 ⟨_, rfl, each⟩, rfl⟩
      | @geometry _ g reads =>
        have typed := reads.typed
        obtain ⟨single, whole⟩ := g.typeName_ne
        rw [decode_object typed, if_neg single, if_neg whole, map_eq_ok]
        exact ⟨_, (Geometry.decode_eq_ok_iff _ _ _).2 reads, rfl⟩
  | _ =>
    refine iff_of_false (by simp [decode]) ?_
    rintro (⟨⟨⟩⟩ | _ | ⟨⟨⟩⟩)

end CartoStyle
