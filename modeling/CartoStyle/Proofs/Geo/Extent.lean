import CartoStyle.Geo.Summary
import CartoStyle.Proofs.Decimal.Whole
import CartoStyle.Proofs.Geo.Positions
import CartoStyle.Proofs.Json.Injective

set_option autoImplicit false

/-! # The bounding box of a document

The bounds of positions start as the infinities the wrong way round and grow by one position at a
time. Once they have seen a position they are the tightest box around all of them
(`Extent.tight_ofPositions`), so that of a document with a position the bounding box is just what the
first and second numbers of its positions say it is (`GeoJson.boundingBox_exact`). -/

namespace CartoStyle

open Binary64 (rank rank_of_isFinite isNaN_of_isFinite lt_iff_rank le_iff_rank beq_iff_rank)

/-! ## Picks -/

/-- Whether a function picks one of two numbers, and one whose key is the lesser. -/
def Picks (key : Float → Int) (pick : Float → Float → Float) : Prop :=
  ∀ {a b : Float}, a.isNaN = false → b.isNaN = false →
    (pick a b = a ∧ key a ≤ key b) ∨ (pick a b = b ∧ key b ≤ key a)

theorem picks_least : Picks rank Box.least := by
  intro a b ha hb
  unfold Box.least
  split
  · next hlt => exact .inl ⟨rfl, ((lt_iff_rank ha hb).1 hlt).le⟩
  · next hle => exact .inr ⟨rfl, Int.not_lt.1 fun hlt => hle ((lt_iff_rank ha hb).2 hlt)⟩

theorem picks_greatest : Picks (fun x => -rank x) Box.greatest := by
  intro a b ha hb
  unfold Box.greatest
  split
  · next hlt => exact .inl ⟨rfl, Int.neg_le_neg ((lt_iff_rank hb ha).1 hlt).le⟩
  · next hle =>
    refine .inr ⟨rfl, Int.neg_le_neg (Int.not_lt.1 fun hlt => hle ((lt_iff_rank hb ha).2 hlt))⟩

namespace Picks

variable {key : Float → Int} {pick : Float → Float → Float}

/-- A run of picks ends with the start or with one of the numbers, and with the least key. -/
theorem foldl (h : Picks key pick) {xs : List Float} (hxs : ∀ x ∈ xs, x.isNaN = false) {a : Float}
    (ha : a.isNaN = false) :
    (xs.foldl pick a = a ∨ xs.foldl pick a ∈ xs) ∧ key (xs.foldl pick a) ≤ key a ∧
      ∀ x ∈ xs, key (xs.foldl pick a) ≤ key x := by
  induction xs generalizing a with
  | nil => simp
  | cons x rest ih =>
    obtain ⟨hx, hrest⟩ := List.forall_mem_cons.1 hxs
    rw [List.foldl_cons]
    rcases h ha hx with ⟨hpick, hle⟩ | ⟨hpick, hle⟩
    · rw [hpick]
      obtain ⟨hmem, hstart, hall⟩ := ih hrest ha
      refine ⟨hmem.imp_right (List.mem_cons_of_mem x), hstart, ?_⟩
      exact List.forall_mem_cons.2 ⟨hstart.trans hle, hall⟩
    · rw [hpick]
      obtain ⟨hmem, hstart, hall⟩ := ih hrest hx
      refine ⟨.inr (List.mem_cons.2 hmem), hstart.trans hle, ?_⟩
      exact List.forall_mem_cons.2 ⟨hstart, hall⟩

/-- A start whose key is above all others is not what the picks end with. -/
theorem foldl_of_above (h : Picks key pick) {xs : List Float} (hxs : ∀ x ∈ xs, x.isNaN = false)
    {a : Float} (ha : a.isNaN = false) (above : ∀ x ∈ xs, key x < key a) (some : xs ≠ []) :
    xs.foldl pick a ∈ xs ∧ ∀ x ∈ xs, key (xs.foldl pick a) ≤ key x := by
  obtain ⟨hmem, -, hall⟩ := h.foldl hxs ha
  refine ⟨hmem.resolve_left fun hstart => ?_, hall⟩
  obtain ⟨x, hx⟩ := List.exists_mem_of_ne_nil xs some
  have hle := hall x hx
  rw [hstart] at hle
  exact absurd (above x hx) (Int.not_lt.2 hle)

end Picks

/-! ## Tight boxes -/

namespace Box

/-- Whether the sides of a box are reached by numbers along each axis, and no number is beyond. -/
structure Tight (xs ys : Float → Prop) (box : Box) : Prop where
  minX : xs box.minX ∧ ∀ x, xs x → box.minX ≤ x
  minY : ys box.minY ∧ ∀ y, ys y → box.minY ≤ y
  maxX : xs box.maxX ∧ ∀ x, xs x → x ≤ box.maxX
  maxY : ys box.maxY ∧ ∀ y, ys y → y ≤ box.maxY

/-- Whether two boxes have sides that are equal as numbers. -/
def Same (box other : Box) : Prop :=
  (box.minX == other.minX) = true ∧ (box.minY == other.minY) = true ∧
    (box.maxX == other.maxX) = true ∧ (box.maxY == other.maxY) = true

theorem beq_of_le_of_le {x y : Float} (hx : x.isFinite = true) (hy : y.isFinite = true)
    (hle : x ≤ y) (hge : y ≤ x) : (x == y) = true := by
  have hx := isNaN_of_isFinite hx
  have hy := isNaN_of_isFinite hy
  exact (beq_iff_rank hx hy).2 (le_antisymm ((le_iff_rank hx hy).1 hle) ((le_iff_rank hy hx).1 hge))

namespace Tight

variable {xs ys : Float → Prop} {box : Box}

theorem of_iff {xs' ys' : Float → Prop} (h : box.Tight xs ys) (hxs : ∀ x, xs' x ↔ xs x)
    (hys : ∀ y, ys' y ↔ ys y) : box.Tight xs' ys' := by
  have hxs : xs' = xs := funext fun x => propext (hxs x)
  have hys : ys' = ys := funext fun y => propext (hys y)
  rwa [hxs, hys]

/-- The sides are in order. -/
theorem ordered (h : box.Tight xs ys) : box.minX ≤ box.maxX ∧ box.minY ≤ box.maxY :=
  ⟨h.minX.2 _ h.maxX.1, h.minY.2 _ h.maxY.1⟩

theorem finite (h : box.Tight xs ys) (hxs : ∀ x, xs x → x.isFinite = true)
    (hys : ∀ y, ys y → y.isFinite = true) : ∀ side ∈ box.toList, side.isFinite = true := by
  have := hxs _ h.minX.1
  have := hys _ h.minY.1
  have := hxs _ h.maxX.1
  have := hys _ h.maxY.1
  simp [toList, *]

/-- There is one tight box around some numbers. -/
theorem same {other : Box} (h : box.Tight xs ys) (h' : other.Tight xs ys)
    (hxs : ∀ x, xs x → x.isFinite = true) (hys : ∀ y, ys y → y.isFinite = true) :
    box.Same other :=
  ⟨beq_of_le_of_le (hxs _ h.minX.1) (hxs _ h'.minX.1) (h.minX.2 _ h'.minX.1) (h'.minX.2 _ h.minX.1),
    beq_of_le_of_le (hys _ h.minY.1) (hys _ h'.minY.1) (h.minY.2 _ h'.minY.1) (h'.minY.2 _ h.minY.1),
    beq_of_le_of_le (hxs _ h.maxX.1) (hxs _ h'.maxX.1) (h'.maxX.2 _ h.maxX.1) (h.maxX.2 _ h'.maxX.1),
    beq_of_le_of_le (hys _ h.maxY.1) (hys _ h'.maxY.1) (h'.maxY.2 _ h.maxY.1) (h.maxY.2 _ h'.maxY.1)⟩

end Tight

/-! ## Growing bounds -/

theorem isNaN_infinity : infinity.isNaN = false ∧ (-infinity).isNaN = false := by decide +kernel

theorem rank_infinity : rank infinity = 2 ^ 65 ∧ rank (-infinity) = -2 ^ 65 := by decide +kernel

/-- The least of finite numbers, of which there is one. -/
theorem foldl_least {xs : List Float} (finite : ∀ x ∈ xs, x.isFinite = true) (some : xs ≠ []) :
    xs.foldl least infinity ∈ xs ∧ ∀ x ∈ xs, xs.foldl least infinity ≤ x := by
  have hnumbers : ∀ x ∈ xs, x.isNaN = false := fun x hx => isNaN_of_isFinite (finite x hx)
  have habove : ∀ x ∈ xs, rank x < rank infinity := by
    intro x hx
    rw [rank_infinity.1]
    exact (rank_of_isFinite (finite x hx)).2
  obtain ⟨hmem, hall⟩ := picks_least.foldl_of_above hnumbers isNaN_infinity.1 habove some
  exact ⟨hmem, fun x hx => (le_iff_rank (hnumbers _ hmem) (hnumbers x hx)).2 (hall x hx)⟩

/-- The greatest of finite numbers, of which there is one. -/
theorem foldl_greatest {xs : List Float} (finite : ∀ x ∈ xs, x.isFinite = true) (some : xs ≠ []) :
    xs.foldl greatest (-infinity) ∈ xs ∧ ∀ x ∈ xs, x ≤ xs.foldl greatest (-infinity) := by
  have hnumbers : ∀ x ∈ xs, x.isNaN = false := fun x hx => isNaN_of_isFinite (finite x hx)
  have habove : ∀ x ∈ xs, -rank x < -rank (-infinity) := by
    intro x hx
    rw [rank_infinity.2]
    have := (rank_of_isFinite (finite x hx)).1
    omega
  obtain ⟨hmem, hall⟩ := picks_greatest.foldl_of_above hnumbers isNaN_infinity.2 habove some
  refine ⟨hmem, fun x hx => (le_iff_rank (hnumbers x hx) (hnumbers _ hmem)).2 ?_⟩
  exact Int.neg_le_neg_iff.1 (hall x hx)

/-- Each side of a box grows on its own. -/
theorem foldl_extend (ps : List Position) (box : Box) :
    ps.foldl extend box =
      { minX := (ps.map (·.x)).foldl least box.minX
        minY := (ps.map (·.y)).foldl least box.minY
        maxX := (ps.map (·.x)).foldl greatest box.maxX
        maxY := (ps.map (·.y)).foldl greatest box.maxY } := by
  induction ps generalizing box with
  | nil => rfl
  | cons p rest ih => rw [List.foldl_cons, ih]; rfl

end Box

namespace Extent

theorem foldl_add (ps : List Position) (e : Extent) :
    ps.foldl add e =
      { visited := e.visited + ps.length, bounds := ps.foldl Box.extend e.bounds } := by
  induction ps generalizing e with
  | nil => rfl
  | cons p rest ih =>
    rw [List.foldl_cons, ih, List.foldl_cons, List.length_cons, add, Nat.add_right_comm]
    rfl

theorem visited_ofPositions (ps : List Position) : (ofPositions ps).visited = ps.length := by
  rw [ofPositions, foldl_add, Nat.zero_add]

theorem box_ofPositions_eq_none_iff {ps : List Position} :
    (ofPositions ps).box = none ↔ ps = [] := by
  rw [box, visited_ofPositions]
  simp

/-- **The box of positions is tight around them.** -/
theorem tight_ofPositions {ps : List Position} {box : Box}
    (finite : ∀ p ∈ ps, p.x.isFinite = true ∧ p.y.isFinite = true)
    (h : (ofPositions ps).box = some box) :
    box.Tight (· ∈ ps.map (·.x)) (· ∈ ps.map (·.y)) := by
  have some : ps ≠ [] := by
    intro hnone
    rw [box_ofPositions_eq_none_iff.2 hnone] at h
    cases h
  have hxs : ∀ x ∈ ps.map (·.x), x.isFinite = true :=
    List.forall_mem_map.2 fun p hp => (finite p hp).1
  have hys : ∀ y ∈ ps.map (·.y), y.isFinite = true :=
    List.forall_mem_map.2 fun p hp => (finite p hp).2
  have hx : ps.map (·.x) ≠ [] := by simpa using some
  have hy : ps.map (·.y) ≠ [] := by simpa using some
  rw [Extent.box, visited_ofPositions, if_pos (List.length_pos_iff.2 some), ofPositions, foldl_add,
    Box.foldl_extend, Option.some.injEq] at h
  subst h
  exact
    { minX := Box.foldl_least hxs hx
      minY := Box.foldl_least hys hy
      maxX := Box.foldl_greatest hxs hx
      maxY := Box.foldl_greatest hys hy }

end Extent

/-! ## Ordinates of a document -/

namespace Json

/-- Whether a position of a document has a number at the given index. -/
def Ordinate (value : Json) (index : Nat) (x : Float) : Prop :=
  ∃ (path : Path) (numbers : List Number) (n : Number),
    value.PositionAt path (.array (numbers.map .number)) ∧ numbers[index]? = some n ∧ n.toFloat = x

/-- What holds of a value and of all that values hold is true of what a path leads to. -/
theorem at?_induction {holds : Json → Prop}
    (step : ∀ {value inner : Json} {step : Step}, value.step? step = some inner → holds value →
      holds inner)
    {value found : Json} {path : Path} (h : value.at? path = some found) (here : holds value) :
    holds found := by
  induction path generalizing value with
  | nil =>
    cases h
    exact here
  | cons first rest ih =>
    obtain ⟨inner, hinner, h⟩ := Option.bind_eq_some_iff.1 h
    exact ih h (step hinner here)

theorem WellFormed.step {value inner : Json} {step : Step} (h : value.step? step = some inner)
    (wf : value.WellFormed) : inner.WellFormed := by
  unfold step? at h
  split at h
  · exact wf.member (Members.mem_of_lookup h)
  · exact wf.item (List.mem_of_getElem? h)
  · cases h

theorem FiniteFloats.step {value inner : Json} {step : Step} (h : value.step? step = some inner)
    (finite : value.FiniteFloats) : inner.FiniteFloats := by
  unfold step? at h
  split at h
  · exact finite.member (Members.mem_of_lookup h)
  · exact finite.item (List.mem_of_getElem? h)
  · cases h

/-- The numbers of a document are finite floats. -/
theorem isFinite_toFloat {n : Number} (wf : (Json.number n).WellFormed)
    (finite : (Json.number n).FiniteFloats) : n.toFloat.isFinite = true := by
  cases n with
  | integer n =>
    rw [WellFormed] at wf
    exact Binary64.isFinite_ofInt wf
  | float x =>
    have hnumeral := finite.number
    rw [Number.numeral?, Option.isSome_map] at hnumeral
    exact Binary64.isFinite_of_ofFloat? hnumeral

theorem Ordinate.isFinite {value : Json} (wf : value.WellFormed) (finite : value.FiniteFloats)
    {index : Nat} {x : Float} (h : value.Ordinate index x) : x.isFinite = true := by
  obtain ⟨path, numbers, n, spot, hn, rfl⟩ := h
  have hmem : Json.number n ∈ numbers.map Json.number :=
    List.mem_map_of_mem (List.mem_of_getElem? hn)
  have wf := at?_induction WellFormed.step spot.at?_eq wf
  have finite := at?_induction FiniteFloats.step spot.at?_eq finite
  exact isFinite_toFloat (wf.item hmem) (finite.item hmem)

end Json

namespace GeoJson

theorem ordinate_iff {value : Json} {g : GeoJson} (h : Reads value g) {index : Nat} {x : Float} :
    value.Ordinate index x ↔ ∃ p ∈ g.positions.map Prod.snd, p.toList[index]? = some x := by
  constructor
  · rintro ⟨path, numbers, n, spot, hn, rfl⟩
    obtain ⟨p, hm, hnumbers⟩ := exists_position_of_positionAt h spot
    refine ⟨p, List.mem_map_of_mem (f := Prod.snd) hm, ?_⟩
    rw [← hnumbers, List.getElem?_map, hn, Option.map_some]
  · rintro ⟨p, hp, hx⟩
    obtain ⟨⟨path, p⟩, hm, rfl⟩ := List.mem_map.1 hp
    obtain ⟨numbers, spot, hnumbers⟩ := exists_numbers_of_mem h hm
    rw [← hnumbers, List.getElem?_map] at hx
    obtain ⟨n, hn, rfl⟩ := Option.map_eq_some_iff.1 hx
    exact ⟨path, numbers, n, spot, hn, rfl⟩

theorem box?_eq_none_iff {g : GeoJson} : g.box? = none ↔ g.positions = [] := by
  rw [box?, extent, Extent.box_ofPositions_eq_none_iff, List.map_eq_nil_iff]

theorem boundingBox_of_ofDocument {document : Document} {g : GeoJson}
    (h : ofDocument document = .ok g) :
    boundingBox document =
      match g.box? with
      | some box => .ok box
      | none => .error .noPositions := by
  rw [boundingBox, h]
  cases hbox : g.box? <;> simp [bind, Except.bind, hbox] <;> rfl

theorem positions_eq_nil_iff {value : Json} {g : GeoJson} (h : Reads value g) :
    g.positions = [] ↔ ∀ path found, ¬value.PositionAt path found := by
  have hfinds := finds_positions h
  constructor
  · intro hnil path found spot
    obtain ⟨p, hm⟩ := hfinds.complete path found spot
    simp [hnil] at hm
  · intro hnone
    refine List.eq_nil_iff_forall_not_mem.2 fun ⟨path, p⟩ hm => ?_
    obtain ⟨rest, found, -, spot, -⟩ := hfinds.sound path p hm
    exact hnone rest found spot

/-- The first and second numbers of positions are finite. -/
theorem isFinite_of_mem_positions {value : Json} {g : GeoJson} (wf : value.WellFormed)
    (finite : value.FiniteFloats) (h : Reads value g) :
    ∀ p ∈ g.positions.map Prod.snd, p.x.isFinite = true ∧ p.y.isFinite = true := by
  intro p hp
  have hx : value.Ordinate 0 p.x := (ordinate_iff h).2 ⟨p, hp, rfl⟩
  have hy : value.Ordinate 1 p.y := (ordinate_iff h).2 ⟨p, hp, rfl⟩
  exact ⟨hx.isFinite wf finite, hy.isFinite wf finite⟩

/-- The box of a document is tight around the first and second numbers of its positions. -/
theorem tight_box? {value : Json} {g : GeoJson} (wf : value.WellFormed)
    (finite : value.FiniteFloats) (h : Reads value g) {box : Box} (hbox : g.box? = some box) :
    box.Tight (value.Ordinate 0) (value.Ordinate 1) := by
  refine (Extent.tight_ofPositions (isFinite_of_mem_positions wf finite h) hbox).of_iff ?_ ?_
  · intro x
    simp [ordinate_iff h, Position.toList, -List.map_map]
  · intro y
    simp [ordinate_iff h, Position.toList, -List.map_map]

theorem box?_isSome_of_positionAt {value : Json} {g : GeoJson} (h : Reads value g)
    (some : ∃ path found, value.PositionAt path found) : ∃ box, g.box? = .some box := by
  rw [← Option.ne_none_iff_exists', Ne, box?_eq_none_iff, positions_eq_nil_iff h]
  obtain ⟨path, found, spot⟩ := some
  exact fun none => none path found spot

theorem ofDocument_value {value : Json} {g : GeoJson} (h : decode value = .ok g) :
    ofDocument (.value value) = .ok g := h

/-- **The bounding box of a document is tight around its positions.** It is missing just when there is
    no position. Else its sides are reached by first and by second numbers of positions, of which none
    is beyond, so the sides are finite and in order; further numbers of positions do not count, for
    documents with the same first and the same second numbers have the same box. The summary has the
    same box, or none. -/
theorem boundingBox_exact {value : Json} {g : GeoJson} (wf : value.WellFormed)
    (finite : value.FiniteFloats) (h : decode value = .ok g) :
    (boundingBox (.value value) = .error .noPositions ↔
      ∀ path found, ¬value.PositionAt path found) ∧
    ((∃ path found, value.PositionAt path found) → ∃ box, boundingBox (.value value) = .ok box ∧
      box.Tight (value.Ordinate 0) (value.Ordinate 1) ∧
      (∀ side ∈ box.toList, side.isFinite = true) ∧
      box.minX ≤ box.maxX ∧ box.minY ≤ box.maxY ∧
      ∀ other g', other.WellFormed → other.FiniteFloats → decode other = .ok g' →
        (∀ x, other.Ordinate 0 x ↔ value.Ordinate 0 x) →
        (∀ y, other.Ordinate 1 y ↔ value.Ordinate 1 y) →
        ∃ box', boundingBox (.value other) = .ok box' ∧ box.Same box') ∧
    ∃ summary, analyze (.value value) = .ok summary ∧
      boundingBox (.value value) = summary.box.elim (.error .noPositions) .ok := by
  have hreads := (decode_eq_ok_iff value g).1 h
  have hbounding := boundingBox_of_ofDocument (ofDocument_value h)
  have hnone : g.box? = none ↔ ∀ path found, ¬value.PositionAt path found :=
    box?_eq_none_iff.trans (positions_eq_nil_iff hreads)
  refine ⟨?_, fun hsome => ?_, g.summary, ?_, ?_⟩
  · rw [hbounding, ← hnone]
    cases g.box? <;> simp
  · obtain ⟨box, hbox⟩ := box?_isSome_of_positionAt hreads hsome
    have htight := tight_box? wf finite hreads hbox
    have hx : ∀ x, value.Ordinate 0 x → x.isFinite = true := fun x hx => hx.isFinite wf finite
    have hy : ∀ y, value.Ordinate 1 y → y.isFinite = true := fun y hy => hy.isFinite wf finite
    refine ⟨box, by rw [hbounding, hbox], htight, htight.finite hx hy, htight.ordered.1,
      htight.ordered.2, ?_⟩
    intro other g' wf' finite' h' hsameX hsameY
    have hreads' := (decode_eq_ok_iff other g').1 h'
    obtain ⟨path, numbers, -, spot, -⟩ := (hsameX _).2 htight.minX.1
    obtain ⟨box', hbox'⟩ := box?_isSome_of_positionAt hreads' ⟨path, _, spot⟩
    have htight' := (tight_box? wf' finite' hreads' hbox').of_iff (fun x => (hsameX x).symm)
      fun y => (hsameY y).symm
    refine ⟨box', ?_, htight.same htight' hx hy⟩
    rw [boundingBox_of_ofDocument (ofDocument_value h'), hbox']
  · rw [analyze, ofDocument_value h]
    rfl
  · rw [hbounding]
    show _ = g.box?.elim _ _
    cases g.box? <;> rfl

theorem wellFormed_scattered : scattered.WellFormed := by
  simp [scattered, Json.WellFormed, Json.WellFormedMembers, Json.WellFormedItems, Members.keys,
    Number.InWord]

theorem finiteFloats_scattered : scattered.FiniteFloats := by decide +kernel

/-- The box of the scattered positions. -/
theorem boundingBox_scattered :
    scattered.WellFormed ∧ scattered.FiniteFloats ∧
      boundingBox (.value scattered) = .ok ⟨-4, -91, 200, 8⟩ ∧
      ∀ x, scattered.Ordinate 0 x → -4 ≤ x := by
  have wf := wellFormed_scattered
  have finite := finiteFloats_scattered
  have hbox : boundingBox (.value scattered) = .ok ⟨-4, -91, 200, 8⟩ := by decide +kernel
  obtain ⟨hnone, hsome, -⟩ := boundingBox_exact wf finite rfl
  have hpositions : ∃ path found, scattered.PositionAt path found := by
    refine Classical.byContradiction fun hnot => ?_
    rw [hnone.2 fun path found spot => hnot ⟨path, found, spot⟩] at hbox
    cases hbox
  obtain ⟨box, hbox', htight, -⟩ := hsome hpositions
  obtain rfl := Except.ok.inj (hbox'.symm.trans hbox)
  exact ⟨wf, finite, hbox, htight.minX.2⟩

end GeoJson

end CartoStyle
