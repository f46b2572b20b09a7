import CartoStyle.Optimize.Pass
import CartoStyle.Proofs.Expression.Text
import CartoStyle.Proofs.Json.Injective
import CartoStyle.Proofs.Style.RoundTrip
import Mathlib.Data.List.Basic

set_option autoImplicit false

/-! # Layers that share a filter

A grouping keeps two things in step, the keys in the order in which they were first seen and the names
under each (`Grouping.Gathers`). Taking the names out again key by key gives back all of them. As
filters with finite floats are told apart by their text, the groups of a style are the classes of its
layers by the filters of the document (`Pass.consolidateFilters_exact`). -/

namespace CartoStyle

/-! ## Gathering -/

/-- The positions under a key. -/
def positionsOf (key : String) (entries : List (String × Nat)) : List Nat :=
  (entries.filter (·.1 == key)).map Prod.snd

theorem positionsOf_append (key : String) (entries : List (String × Nat)) (k : String) (n : Nat) :
    positionsOf key (entries ++ [(k, n)]) =
      positionsOf key entries ++ if k = key then [n] else [] := by
  by_cases hk : k = key <;> simp [positionsOf, hk]

theorem mem_positionsOf_iff {key : String} {entries : List (String × Nat)} {n : Nat} :
    n ∈ positionsOf key entries ↔ (key, n) ∈ entries := by
  simp [positionsOf]

namespace Grouping

/-- Whether a grouping holds the names at some positions, each under its key, and the keys by their
    first positions. -/
structure Gathers (nameAt : Nat → String) (entries : List (String × Nat)) (g : Grouping) : Prop where
  namesOf : ∀ key, g.groups.lookup key =
    if positionsOf key entries = [] then none else some ((positionsOf key entries).map nameAt)
  mem_order : ∀ key, key ∈ g.order ↔ positionsOf key entries ≠ []
  sorted : g.order.Pairwise fun key key' =>
    ∃ i ∈ positionsOf key entries, ∀ j ∈ positionsOf key' entries, i < j

namespace Gathers

variable {nameAt : Nat → String} {entries : List (String × Nat)} {g : Grouping}

theorem empty : Gathers nameAt [] {} where
  namesOf := by simp [positionsOf]
  mem_order := by simp [positionsOf]
  sorted := .nil

theorem namesOf_eq (h : Gathers nameAt entries g) (key : String) :
    g.namesOf key = (positionsOf key entries).map nameAt := by
  rw [Grouping.namesOf, h.namesOf]
  split
  · next hnone => simp [hnone]
  · rfl

/-- Putting a name under a key keeps the keys and the names in step. -/
theorem add (h : Gathers nameAt entries g) {key : String} {n : Nat}
    (later : ∀ entry ∈ entries, entry.2 < n) :
    Gathers nameAt (entries ++ [(key, n)]) (g.add (key, nameAt n)) := by
  have hlater : ∀ k, ∀ i ∈ positionsOf k entries, i < n := fun k i hi =>
    later (k, i) (mem_positionsOf_iff.1 hi)
  have hnew : (g.namesOf key).isEmpty = true ↔ positionsOf key entries = [] := by
    rw [h.namesOf_eq, List.isEmpty_iff, List.map_eq_nil_iff]
  -- The first position under a key stays the first one.
  have hkept : g.order.Pairwise fun k k' => ∃ i ∈ positionsOf k (entries ++ [(key, n)]),
      ∀ j ∈ positionsOf k' (entries ++ [(key, n)]), i < j := by
    refine h.sorted.imp fun {k k'} ⟨i, hi, hfirst⟩ => ⟨i, ?_, fun j hj => ?_⟩
    · rw [positionsOf_append]
      exact List.mem_append_left _ hi
    · rw [positionsOf_append] at hj
      rcases List.mem_append.1 hj with hj | hj
      · exact hfirst j hj
      · obtain rfl : j = n := by
          split at hj <;> simp_all
        exact hlater k i hi
  refine ⟨fun k => ?_, fun k => ?_, ?_⟩
  · show (Members.put key (g.namesOf key ++ [nameAt n]) g.groups).lookup k = _
    rw [Members.lookup_put, positionsOf_append, h.namesOf_eq]
    by_cases hk : k = key
    · subst hk
      simp
    · rw [if_neg hk, if_neg (Ne.symm hk), List.append_nil]
      exact h.namesOf k
  · rw [positionsOf_append]
    show k ∈ (if (g.namesOf key).isEmpty then g.order ++ [key] else g.order) ↔ _
    by_cases hk : key = k
    · subst hk
      by_cases hempty : positionsOf key entries = []
      · simp [hnew.2 hempty]
      · simpa [hnew, hempty] using h.mem_order key
    · have hsame := h.mem_order k
      by_cases hempty : (g.namesOf key).isEmpty = true
      · simp [hempty, hk, Ne.symm hk, hsame]
      · simp [hempty, hk, hsame]
  · show (if (g.namesOf key).isEmpty then g.order ++ [key] else g.order).Pairwise _
    split
    · next hempty =>
      refine List.pairwise_append.2 ⟨hkept, List.pairwise_singleton _ _, fun k hk k' hk' => ?_⟩
      obtain rfl := List.mem_singleton.1 hk'
      obtain ⟨i, hi⟩ := List.exists_mem_of_ne_nil _ ((h.mem_order k).1 hk)
      refine ⟨i, ?_, fun j hj => ?_⟩
      · rw [positionsOf_append]
        exact List.mem_append_left _ hi
      · rw [positionsOf_append, hnew.1 hempty, if_pos rfl] at hj
        obtain rfl := List.mem_singleton.1 hj
        exact hlater k i hi
    · exact hkept

/-- Putting names under keys, one after the other, keeps the keys and the names in step. -/
theorem foldl (h : Gathers nameAt entries g) {more : List (String × Nat)}
    (sorted : ((entries ++ more).map Prod.snd).Pairwise (· < ·)) :
    Gathers nameAt (entries ++ more)
      ((more.map fun entry => (entry.1, nameAt entry.2)).foldl Grouping.add g) := by
  induction more generalizing entries g with
  | nil => simpa using h
  | cons entry rest ih =>
    have hlater : ∀ earlier ∈ entries, earlier.2 < entry.2 := by
      rw [List.map_append, List.pairwise_append] at sorted
      exact fun earlier hm => sorted.2.2 _ (List.mem_map_of_mem hm) _ (by simp)
    rw [List.append_cons] at sorted ⊢
    exact ih (h.add hlater) sorted

end Gathers

/-! ## Taking out -/

theorem drain_eq {order : List String} (nodup : order.Nodup)
    (groups : List (String × List String)) :
    drain order groups = order.filterMap (List.lookup · groups) := by
  induction order generalizing groups with
  | nil => rfl
  | cons key rest ih =>
    obtain ⟨hnot, hrest⟩ := List.nodup_cons.1 nodup
    rw [drain, List.filterMap_cons]
    cases hnames : groups.lookup key with
    | none => exact ih hrest groups
    | some names =>
      -- The names of the other keys are still there.
      have hothers : rest.filterMap (List.lookup · (Members.erase key groups)) =
          rest.filterMap (List.lookup · groups) := by
        refine List.filterMap_congr fun k hk => ?_
        rw [Members.lookup_erase, if_neg (by rintro rfl; exact hnot hk)]
      simp only [ih hrest, hothers]

theorem Gathers.toList_eq {nameAt : Nat → String} {entries : List (String × Nat)} {g : Grouping}
    (h : Gathers nameAt entries g) :
    g.toList = g.order.map fun key => (positionsOf key entries).map nameAt := by
  have hnodup : g.order.Nodup := by
    refine h.sorted.imp ?_
    rintro key _ ⟨i, hi, hfirst⟩ rfl
    exact lt_irrefl i (hfirst i hi)
  rw [toList, drain_eq hnodup, ← List.filterMap_eq_map]
  refine List.filterMap_congr fun key hkey => ?_
  rw [h.namesOf, if_neg ((h.mem_order key).1 hkey)]
  rfl

end Grouping

/-! ## Filters of a document -/

namespace Json

/-- The layers of a document: what its `layers` hold, if these are all objects. -/
def layerObjects (value : Json) : List (List (String × Json)) :=
  (((value.get? "layers").bind asArray?).bind (·.mapM asObject?)).getD []

/-- The filter of a layer, unless it is null. -/
def filterOf (layer : List (String × Json)) : Option Json :=
  (layer.lookup "filter").filter fun value => !value.isNull

/-- The id of a layer, or the empty text when there is none that is a text. -/
def idOf (layer : List (String × Json)) : String :=
  match layer.lookup "id" with
  | some (.string id) => id
  | _ => ""

/-- The positions of the layers that have the given filter. -/
def sharing (layers : List (List (String × Json))) (filter : Json) : List Nat :=
  (layers.zipIdx.filter fun entry => filterOf entry.1 == some filter).map Prod.snd

theorem mem_sharing_iff {layers : List (List (String × Json))} {filter : Json} {i : Nat} :
    i ∈ sharing layers filter ↔ ∃ layer, layers[i]? = some layer ∧ filterOf layer = some filter := by
  simp [sharing, List.mk_mem_zipIdx_iff_getElem?]

theorem lookup_of_filterOf {layer : List (String × Json)} {filter : Json}
    (h : filterOf layer = some filter) : layer.lookup "filter" = some filter :=
  (Option.filter_eq_some_iff.1 h).1

theorem object_mem_of_mem_layerObjects {value : Json} {layer : List (String × Json)}
    (h : layer ∈ value.layerObjects) :
    ∃ items, value.get? "layers" = some (.array items) ∧ Json.object layer ∈ items := by
  obtain ⟨objects, hobjects, hlayer⟩ : ∃ objects,
      ((value.get? "layers").bind asArray?).bind (·.mapM asObject?) = some objects ∧
        layer ∈ objects := by
    rw [layerObjects] at h
    cases hobjects : ((value.get? "layers").bind asArray?).bind (·.mapM asObject?) with
    | none => simp [hobjects] at h
    | some objects => exact ⟨objects, rfl, by simpa [hobjects] using h⟩
  obtain ⟨items, hitems, hobjects⟩ := Option.bind_eq_some_iff.1 hobjects
  obtain ⟨held, hheld, harray⟩ := Option.bind_eq_some_iff.1 hitems
  obtain rfl := asArray?_eq_some_iff.1 harray
  obtain ⟨objects, rfl, rfl⟩ := (mapM_eq_some_iff asObject? object id (fun _ => rfl)
    (fun _ members hm => ⟨members, asObject?_eq_some_iff.1 hm⟩) items _).1 hobjects
  exact ⟨_, hheld, List.mem_map_of_mem (by simpa using hlayer)⟩

/-- The layers of a document with finite floats have filters with finite floats. -/
theorem FiniteFloats.filterOf {value : Json} (finite : value.FiniteFloats)
    {layer : List (String × Json)} (hlayer : layer ∈ value.layerObjects) {filter : Json}
    (h : Json.filterOf layer = some filter) : filter.FiniteFloats := by
  have hheld := object_mem_of_mem_layerObjects hlayer
  obtain ⟨items, hitems, hmem⟩ := hheld
  cases value with
  | object members =>
    have hlayers := finite.member (Members.mem_of_lookup hitems)
    exact (hlayers.item hmem).member (Members.mem_of_lookup (lookup_of_filterOf h))
  | _ => simp [get?] at hitems

end Json

theorem mapM_map_eq {α β γ : Type} (f : α → Option β) (g : β → γ) (as : List α) :
    (as.mapM fun a => (f a).map g) = (as.mapM f).map (List.map g) := by
  induction as with
  | nil => rfl
  | cons a rest ih =>
    rw [List.mapM_cons, List.mapM_cons, ih]
    cases f a with
    | none => rfl
    | some b => cases rest.mapM f <;> rfl

namespace Style

variable {mode : Mode} {value : Json} {s : Style}

theorem layerList_eq (h : ofJson mode value = .ok s) :
    s.layerList = value.layerObjects.map Layer.read := by
  obtain ⟨members, rfl, rfl⟩ := ofJson_eq_ok h
  show ((members.lookup "layers").bind Shape.layers.read).getD [] = _
  rw [Json.layerObjects, Json.get?]
  cases members.lookup "layers" with
  | none => rfl
  | some held =>
    rw [Option.bind_some, Option.bind_some]
    show (held.asArray?.bind fun items => items.mapM fun v => v.asObject?.map Layer.read).getD [] = _
    cases held.asArray? with
    | none => rfl
    | some items =>
      rw [Option.bind_some, Option.bind_some, mapM_map_eq]
      cases items.mapM Json.asObject? <;> rfl

/-- The filter that a layer is read with is written as that of the layer. -/
theorem map_text_filter (layer : List (String × Json)) :
    (Layer.read layer).filter.map Expression.text = (Json.filterOf layer).map Json.compact := by
  show ((layer.lookup "filter").bind Shape.expression.read).map Expression.text = _
  rw [Json.filterOf]
  cases layer.lookup "filter" with
  | none => rfl
  | some value =>
    have htext : (Expression.ofJson value).text = value.compact := by
      rw [Expression.text_eq, Expression.toJson_ofJson]
    cases hnull : value.isNull <;> simp [Shape.expression, hnull, htext]

theorem name_read (layer : List (String × Json)) : (Layer.read layer).name = Json.idOf layer := by
  show ((layer.lookup "id").bind Json.asString?).getD "" = _
  rw [Json.idOf]
  cases layer.lookup "id" with
  | none => rfl
  | some value => cases value <;> rfl

/-- The texts of the filters of layers, each with the position of its layer. -/
def textsAt (layers : List (List (String × Json))) : List (String × Nat) :=
  layers.zipIdx.filterMap fun entry => (Json.filterOf entry.1).map fun f => (f.compact, entry.2)

/-- The id of the layer at a position. -/
def idAt (layers : List (List (String × Json))) (i : Nat) : String :=
  Json.idOf (layers.getD i [])

theorem filterTexts_eq (h : ofJson mode value = .ok s) :
    s.filterTexts =
      (textsAt value.layerObjects).map fun entry => (entry.1, idAt value.layerObjects entry.2) := by
  have hread : ∀ layer : List (String × Json),
      ((Layer.read layer).filter.map fun e => (e.text, (Layer.read layer).name)) =
        (Json.filterOf layer).map fun f => (f.compact, Json.idOf layer) := by
    intro layer
    have hpair := congrArg (Option.map (·, Json.idOf layer)) (map_text_filter layer)
    rw [name_read]
    rwa [Option.map_map, Option.map_map] at hpair
  rw [filterTexts, layerList_eq h, List.filterMap_map, textsAt, List.map_filterMap]
  conv_lhs => rw [← List.zipIdx_map_fst 0 value.layerObjects, List.filterMap_map]
  refine List.filterMap_congr fun ⟨layer, i⟩ hm => ?_
  have hlayer := List.mk_mem_zipIdx_iff_getElem?.1 hm
  have hid : idAt value.layerObjects i = Json.idOf layer := by
    simp [idAt, List.getD, hlayer]
  simp [hread, ← hid, Function.comp_def]

theorem sorted_textsAt (layers : List (List (String × Json))) :
    ((textsAt layers).map Prod.snd).Pairwise (· < ·) := by
  have hpositions : layers.zipIdx.Pairwise fun entry entry' => entry.2 < entry'.2 := by
    rw [← List.pairwise_map, List.zipIdx_map_snd]
    exact List.pairwise_lt_range'
  rw [List.pairwise_map, textsAt]
  refine List.Pairwise.filterMap _ ?_ hpositions
  intro entry entry' hlt found hfound found' hfound'
  obtain ⟨f, -, rfl⟩ := Option.map_eq_some_iff.1 hfound
  obtain ⟨f', -, rfl⟩ := Option.map_eq_some_iff.1 hfound'
  exact hlt

/-- The layers under the text of a filter are those that have it. -/
theorem positionsOf_compact {layers : List (List (String × Json))}
    (finite : ∀ layer ∈ layers, ∀ f, Json.filterOf layer = some f → f.FiniteFloats) {filter : Json}
    (hfilter : filter.FiniteFloats) :
    positionsOf filter.compact (textsAt layers) = Json.sharing layers filter := by
  have hmem : ∀ entry ∈ layers.zipIdx, entry.1 ∈ layers := fun entry hm =>
    List.mem_of_getElem? (List.mem_zipIdx_iff_getElem?.1 hm)
  rw [positionsOf, textsAt, Json.sharing]
  revert hmem
  generalize layers.zipIdx = entries
  intro hmem
  induction entries with
  | nil => rfl
  | cons entry rest ih =>
    obtain ⟨hentry, hrest⟩ := List.forall_mem_cons.1 hmem
    cases hf : Json.filterOf entry.1 with
    | none => simpa [hf] using ih hrest
    | some f =>
      have hcompact : f.compact = filter.compact ↔ f = filter :=
        ⟨Json.compact_injective (finite entry.1 hentry f hf) hfilter, fun h => by rw [h]⟩
      by_cases he : f = filter
      · simpa [hf, he] using ih hrest
      · simpa [hf, he, hcompact] using ih hrest

theorem mem_positionsOf_textsAt_iff {layers : List (List (String × Json))} {key : String} {i : Nat} :
    i ∈ positionsOf key (textsAt layers) ↔
      ∃ layer f, layers[i]? = some layer ∧ Json.filterOf layer = some f ∧ f.compact = key := by
  rw [mem_positionsOf_iff, textsAt, List.mem_filterMap]
  constructor
  · rintro ⟨⟨layer, j⟩, hm, hentry⟩
    obtain ⟨f, hf, hpair⟩ := Option.map_eq_some_iff.1 hentry
    obtain ⟨rfl, rfl⟩ := Prod.mk.inj hpair
    exact ⟨layer, f, List.mk_mem_zipIdx_iff_getElem?.1 hm, hf, rfl⟩
  · rintro ⟨layer, f, hlayer, hf, rfl⟩
    exact ⟨(layer, i), List.mk_mem_zipIdx_iff_getElem?.2 hlayer, by simp [hf]⟩

/-- The classes of the layers of a document that share a filter. -/
structure Classes (layers : List (List (String × Json))) (classes : List (List Nat)) : Prop where
  mem_iff : ∀ c, c ∈ classes ↔ 2 ≤ c.length ∧ ∃ filter, c = Json.sharing layers filter
  sorted : classes.Pairwise fun c c' => ∃ i ∈ c, ∀ j ∈ c', i < j

/-- No layer is in two classes. -/
theorem Classes.disjoint {layers : List (List (String × Json))} {classes : List (List Nat)}
    (h : Classes layers classes) : classes.Pairwise List.Disjoint := by
  refine h.sorted.imp_of_mem ?_
  rintro c c' hc hc' ⟨i, hi, hfirst⟩ j hj hj'
  obtain ⟨-, filter, rfl⟩ := (h.mem_iff c).1 hc
  obtain ⟨-, filter', rfl⟩ := (h.mem_iff c').1 hc'
  obtain ⟨layer, hlayer, hfilter⟩ := Json.mem_sharing_iff.1 hj
  obtain ⟨layer', hlayer', hfilter'⟩ := Json.mem_sharing_iff.1 hj'
  cases hlayer.symm.trans hlayer'
  cases hfilter.symm.trans hfilter'
  exact lt_irrefl i (hfirst i hi)

/-- The groups of a style are the ids of the classes of its layers. -/
theorem exists_classes (finite : value.FiniteFloats) (h : ofJson mode value = .ok s) :
    ∃ classes, Classes value.layerObjects classes ∧
      s.filterGroups = classes.map (·.map (idAt value.layerObjects)) := by
  let layers := value.layerObjects
  have hfinite : ∀ layer ∈ layers, ∀ f, Json.filterOf layer = some f → f.FiniteFloats :=
    fun layer hlayer f hf => finite.filterOf hlayer hf
  have hsorted : (([] ++ textsAt layers).map Prod.snd).Pairwise (· < ·) := sorted_textsAt layers
  have hempty : Grouping.Gathers (idAt layers) [] {} := .empty
  have hgathers := hempty.foldl hsorted
  rw [List.nil_append, ← filterTexts_eq h] at hgathers
  generalize hg : s.filterTexts.foldl Grouping.add {} = g at hgathers
  refine ⟨(g.order.map fun key => positionsOf key (textsAt layers)).filter (1 < ·.length),
    ⟨fun c => ?_, ?_⟩, ?_⟩
  · rw [List.mem_filter, List.mem_map, decide_eq_true_iff, and_comm]
    refine and_congr_right fun hlength => ?_
    constructor
    · rintro ⟨key, hkey, rfl⟩
      obtain ⟨i, hi⟩ := List.exists_mem_of_ne_nil _ ((hgathers.mem_order key).1 hkey)
      obtain ⟨layer, f, hlayer, hf, rfl⟩ := mem_positionsOf_textsAt_iff.1 hi
      exact ⟨f, positionsOf_compact hfinite (hfinite layer (List.mem_of_getElem? hlayer) f hf)⟩
    · rintro ⟨filter, rfl⟩
      obtain ⟨i, hi⟩ := List.exists_mem_of_length_pos (Nat.lt_trans Nat.zero_lt_one hlength)
      obtain ⟨layer, hlayer, hf⟩ := Json.mem_sharing_iff.1 hi
      have hpositions := positionsOf_compact hfinite
        (hfinite layer (List.mem_of_getElem? hlayer) filter hf)
      refine ⟨filter.compact, (hgathers.mem_order _).2 ?_, hpositions⟩
      rw [hpositions]
      exact List.ne_nil_of_mem hi
  · exact (List.pairwise_map.2 hgathers.sorted).filter _
  · rw [filterGroups, hg, hgathers.toList_eq, List.filter_map, List.filter_map, List.map_map]
    simp only [Function.comp_def, List.length_map]
    rfl

end Style

namespace Pass

open Style

/-- **The groups are the classes of layers with the same filter.** A class is all the layers that have
    one filter, not null and the same with its members in their order, when there are two at least. The
    classes come in the order of their first layers and each has the ids of its layers in the order of
    the document; no layer is in two classes. The pass changes nothing and counts the groups. -/
theorem consolidateFilters_exact {mode : Style.Mode} {value : Json} {s : Style}
    (finite : value.FiniteFloats) (h : Style.ofJson mode value = .ok s) :
    (∃ classes : List (List Nat),
      s.filterGroups = classes.map (·.map fun i => Json.idOf (value.layerObjects.getD i [])) ∧
      (∀ c, c ∈ classes ↔ 2 ≤ c.length ∧ ∃ filter, c = Json.sharing value.layerObjects filter) ∧
      (classes.Pairwise fun c c' => ∃ i ∈ c, ∀ j ∈ c', i < j) ∧
      classes.Pairwise List.Disjoint) ∧
    consolidateFilters.apply s = (s, s.filterGroups.length) := by
  obtain ⟨classes, hclasses, hgroups⟩ := exists_classes finite h
  exact ⟨⟨classes, hgroups, hclasses.mem_iff, hclasses.sorted, hclasses.disjoint⟩, rfl⟩

/-- Layers of which some share a filter, up to the order of its members, and some an id. -/
def filtered : List (String × Json) :=
  let layer (id : Json) (filter : Json) : Json := .object [("id", id), ("filter", filter)]
  let water : Json := .array [.string "==", .string "class", .string "water"]
  let one : Json := .object [("a", .bool true), ("b", .null)]
  let other : Json := .object [("b", .null), ("a", .bool true)]
  [("layers", .array
    [layer (.string "x") one, layer (.string "y") water, layer (.string "x") .null,
      layer (.number (.integer 3)) water, .object [("id", .string "z")], layer (.string "v") other,
      layer (.string "x") one, layer (.string "y") water])]

/-- Two filters are shared: the one by the first layer and the seventh, the other by three layers. -/
theorem consolidateFilters_filtered :
    let s := Style.read filtered
    Style.ofJson .lenient (.object filtered) = .ok s ∧ (Json.object filtered).FiniteFloats ∧
      s.filterGroups = [["x", "x"], ["y", "", "y"]] ∧
      (∃ classes : List (List Nat), s.filterGroups = classes.map (·.map fun i =>
          Json.idOf ((Json.object filtered).layerObjects.getD i [])) ∧
        [0, 6] ∈ classes ∧ [1, 3, 7] ∈ classes) ∧
      consolidateFilters.apply s = (s, 2) := by
  intro s
  have finite : (Json.object filtered).FiniteFloats := by decide +kernel
  have hread : Style.ofJson .lenient (.object filtered) = .ok s := rfl
  obtain ⟨⟨classes, hclasses, hmem, -⟩, happly⟩ := consolidateFilters_exact finite hread
  have hgroups : s.filterGroups = [["x", "x"], ["y", "", "y"]] := by decide +kernel
  refine ⟨hread, finite, hgroups, ⟨classes, hclasses, ?_, ?_⟩, by rw [happly, hgroups]; rfl⟩
  · exact (hmem _).2 ⟨by decide, .object [("a", .bool true), ("b", .null)], by decide +kernel⟩
  · exact (hmem _).2 ⟨by decide, .array [.string "==", .string "class", .string "water"],
      by decide +kernel⟩

end Pass

end CartoStyle
