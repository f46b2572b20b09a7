import CartoStyle.Proofs.Json.Tree
import CartoStyle.Proofs.Style.Fields
import CartoStyle.Style.Basic

set_option autoImplicit false

/-! # Sources and layers of a document

A style decodes its sources when they are an object of objects, and its layers when they are an array
of objects; otherwise the whole container is left aside (`Shape.read_sources_iff`,
`Shape.read_layers_iff`). -/

namespace CartoStyle

/-! ## Kinds -/

@[simp]
theorem SourceKind.text_ofText (name : String) : (SourceKind.ofText name).text = name := by
  unfold SourceKind.ofText
  cases h : SourceKind.known.find? (·.text == name) with
  | none => rfl
  | some kind => simpa using List.find?_some h

@[simp]
theorem LayerKind.text_ofText (name : String) : (LayerKind.ofText name).text = name := by
  unfold LayerKind.ofText
  cases h : LayerKind.known.find? (·.text == name) with
  | none => rfl
  | some kind => simpa using List.find?_some h

theorem LayerKind.ofText_eq_iff {name : String} {kind : LayerKind} (h : kind ∈ known) :
    ofText name = kind ↔ name = kind.text := by
  constructor
  · rintro rfl
    exact (text_ofText name).symm
  · rintro rfl
    revert kind
    decide

theorem SourceKind.ofText_eq_iff {name : String} {kind : SourceKind} (h : kind ∈ known) :
    ofText name = kind ↔ name = kind.text := by
  constructor
  · rintro rfl
    exact (text_ofText name).symm
  · rintro rfl
    revert kind
    decide

/-! ## Containers of objects -/

/-- Reading every element of a list, when what is read is wrapped in the element. -/
theorem mapM_eq_some_iff {α β γ : Type} (f : α → Option β) (wrap : γ → α) (read : γ → β)
    (hread : ∀ c, f (wrap c) = some (read c)) (hwrap : ∀ a b, f a = some b → ∃ c, a = wrap c)
    (as : List α) (bs : List β) :
    as.mapM f = some bs ↔ ∃ cs : List γ, as = cs.map wrap ∧ bs = cs.map read := by
  induction as generalizing bs with
  | nil =>
    constructor
    · intro h
      exact ⟨[], rfl, by simpa using h.symm⟩
    · rintro ⟨cs, hcs, rfl⟩
      obtain rfl := List.map_eq_nil_iff.1 hcs.symm
      rfl
  | cons a rest ih =>
    rw [List.mapM_cons]
    constructor
    · intro h
      obtain ⟨b, hb, h⟩ := Option.bind_eq_some_iff.1 h
      obtain ⟨bs', hbs, h⟩ := Option.bind_eq_some_iff.1 h
      obtain rfl : b :: bs' = bs := by simpa using h
      obtain ⟨c, rfl⟩ := hwrap a b hb
      obtain ⟨cs, rfl, rfl⟩ := (ih bs').1 hbs
      obtain rfl : read c = b := by simpa [hread] using hb
      exact ⟨c :: cs, rfl, rfl⟩
    · rintro ⟨cs, hcs, rfl⟩
      cases cs with
      | nil => simp at hcs
      | cons c cs =>
        rw [List.map_cons, List.cons.injEq] at hcs
        obtain ⟨rfl, rfl⟩ := hcs
        simp [hread, (ih (cs.map read)).2 ⟨cs, rfl, rfl⟩]

/-- Elements that all come from somewhere come from a list. -/
theorem exists_eq_map {α γ : Type} {good : γ → Prop} {f : γ → α} {as : List α}
    (h : ∀ a ∈ as, ∃ c, good c ∧ a = f c) : ∃ cs : List γ, (∀ c ∈ cs, good c) ∧ as = cs.map f := by
  induction as with
  | nil => exact ⟨[], by simp, rfl⟩
  | cons a rest ih =>
    obtain ⟨c, hc, rfl⟩ := h a (List.mem_cons_self ..)
    obtain ⟨cs, hcs, rfl⟩ := ih fun a hm => h a (List.mem_cons_of_mem _ hm)
    exact ⟨c :: cs, List.forall_mem_cons.2 ⟨hc, hcs⟩, rfl⟩

/-- A list of objects is one of members. -/
theorem exists_eq_map_object {items : List Json} (h : ∀ item ∈ items, item.isObject) :
    ∃ objects : List (List (String × Json)), items = objects.map .object := by
  have hfrom : ∀ item ∈ items, ∃ members : List (String × Json),
      True ∧ item = Json.object members := by
    intro item hm
    cases item with
    | object members => exact ⟨members, trivial, rfl⟩
    | _ => simpa [Json.isObject] using h _ hm
  obtain ⟨objects, -, rfl⟩ := exists_eq_map hfrom
  exact ⟨objects, rfl⟩

/-- So are entries that are objects, key by key. -/
theorem exists_eq_map_object_entries {entries : List (String × Json)}
    (h : ∀ entry ∈ entries, entry.2.isObject) :
    ∃ objects : List (String × List (String × Json)),
      entries = objects.map fun (key, members) => (key, .object members) := by
  have hfrom : ∀ entry ∈ entries, ∃ object : String × List (String × Json),
      True ∧ entry = (object.1, Json.object object.2) := by
    rintro ⟨key, value⟩ hm
    cases value with
    | object members => exact ⟨(key, members), trivial, rfl⟩
    | _ => simpa [Json.isObject] using h _ hm
  obtain ⟨objects, -, rfl⟩ := exists_eq_map hfrom
  exact ⟨objects, rfl⟩

theorem Json.asObject?_eq_some_iff {value : Json} {members : List (String × Json)} :
    value.asObject? = some members ↔ value = .object members := by
  cases value <;> simp [Json.asObject?]

theorem Json.asArray?_eq_some_iff {value : Json} {items : List Json} :
    value.asArray? = some items ↔ value = .array items := by
  cases value <;> simp [Json.asArray?]

namespace Shape

/-- Sources are read from an object of objects. -/
theorem read_sources_iff {value : Json} {list : List (String × Source)} :
    sources.read value = some list ↔
      ∃ entries : List (String × List (String × Json)),
        value = .object (entries.map fun (key, members) => (key, .object members)) ∧
        list = entries.map fun (key, members) => (key, Source.read members) := by
  have hentries := mapM_eq_some_iff
    (fun (entry : String × Json) =>
      entry.2.asObject?.map fun members => (entry.1, Source.read members))
    (fun (entry : String × List (String × Json)) => (entry.1, Json.object entry.2))
    (fun entry => (entry.1, Source.read entry.2)) (fun _ => rfl)
    (by
      rintro ⟨key, v⟩ b h
      obtain ⟨members, hm, -⟩ := Option.map_eq_some_iff.1 h
      exact ⟨(key, members), Prod.ext rfl (Json.asObject?_eq_some_iff.1 hm)⟩)
  constructor
  · intro h
    obtain ⟨entries, hobject, h⟩ := Option.bind_eq_some_iff.1 h
    obtain ⟨objects, rfl, rfl⟩ := (hentries entries list).1 h
    exact ⟨objects, Json.asObject?_eq_some_iff.1 hobject, rfl⟩
  · rintro ⟨entries, rfl, rfl⟩
    exact (hentries _ _).2 ⟨entries, rfl, rfl⟩

/-- Layers are read from an array of objects. -/
theorem read_layers_iff {value : Json} {list : List Layer} :
    layers.read value = some list ↔
      ∃ objects : List (List (String × Json)),
        value = .array (objects.map .object) ∧ list = objects.map Layer.read := by
  have hitems := mapM_eq_some_iff (fun (v : Json) => v.asObject?.map Layer.read) Json.object
    Layer.read (fun _ => rfl)
    (by
      intro v b h
      obtain ⟨members, hm, -⟩ := Option.map_eq_some_iff.1 h
      exact ⟨members, Json.asObject?_eq_some_iff.1 hm⟩)
  constructor
  · intro h
    obtain ⟨items, harray, h⟩ := Option.bind_eq_some_iff.1 h
    obtain ⟨objects, rfl, rfl⟩ := (hitems items list).1 h
    exact ⟨objects, Json.asArray?_eq_some_iff.1 harray, rfl⟩
  · rintro ⟨objects, rfl, rfl⟩
    exact (hitems _ _).2 ⟨objects, rfl, rfl⟩

end Shape

namespace Style

variable {members : List (String × Json)}

theorem layerList_read {objects : List (List (String × Json))}
    (h : members.lookup "layers" = some (.array (objects.map .object))) :
    (read members).layerList = objects.map Layer.read := by
  have hread : Shape.layers.get? "layers" members = some (objects.map Layer.read) := by
    rw [Shape.get?, h]
    exact Shape.read_layers_iff.2 ⟨objects, rfl, rfl⟩
  show (Shape.layers.get? "layers" members).getD [] = _
  rw [hread]
  rfl

theorem source?_read {entries : List (String × List (String × Json))}
    (h : members.lookup "sources" =
      some (.object (Members.mapValues (fun _ object => .object object) entries))) (name : String) :
    (read members).source? name = (entries.lookup name).map Source.read := by
  have hread : Shape.sources.get? "sources" members =
      some (Members.mapValues (fun _ => Source.read) entries) := by
    rw [Shape.get?, h]
    exact Shape.read_sources_iff.2 ⟨entries, rfl, rfl⟩
  show ((Shape.sources.get? "sources" members).getD []).lookup name = _
  rw [hread, Option.getD_some]
  exact Members.lookup_mapValues _ entries name

end Style

end CartoStyle
