import CartoStyle.Proofs.Json.Members
import CartoStyle.Style.Field

set_option autoImplicit false

/-! # Reading and writing the fields of an object

What the fields of an object take and what they leave over make up the whole object again. The main
statement is `writeFields_leftover`: when every field writes back a changed form of the value that
it took, the object comes out with just these values changed, and with all its members in their old
order. With nothing changed this is the round trip of decoding and encoding. What fields write when
they hold something else is `writeFields_eq`. -/

namespace CartoStyle

/-! ## What fields take -/

namespace Field

variable {fields : List Field} {members : List (String × Json)}

/-- Whether one of the fields takes the value of a member. -/
def takes (fields : List Field) (key : String) (value : Json) : Bool :=
  fields.any fun field => field.key == key && field.fits value

/-- What a field writes when it took its value and changed it. -/
def slot (change : String → Json → Json) (members : List (String × Json)) (field : Field) :
    String × Option Json :=
  (field.key, ((members.lookup field.key).filter field.fits).map (change field.key))

theorem takes_eq_false {key : String} (h : key ∉ fields.map (·.key)) (value : Json) :
    takes fields key value = false := by
  rw [takes, List.any_eq_false]
  intro field hf
  have hne : field.key ≠ key := fun he => h (he ▸ List.mem_map_of_mem hf)
  simp [hne]

theorem takes_cons (field : Field) (rest : List Field) (key : String) (value : Json) :
    takes (field :: rest) key value =
      (field.key == key && field.fits value || takes rest key value) := rfl

/-- With distinct keys it is the field of the key that decides. -/
theorem takes_of_mem (distinct : (fields.map (·.key)).Nodup) (field : Field)
    (hf : field ∈ fields) (value : Json) : takes fields field.key value = field.fits value := by
  induction fields with
  | nil => simp at hf
  | cons other rest ih =>
    rw [List.map_cons, List.nodup_cons] at distinct
    rw [takes_cons]
    rcases List.mem_cons.1 hf with rfl | hf'
    · simp [takes_eq_false distinct.1]
    · have hne : other.key ≠ field.key := fun he => distinct.1 (he ▸ List.mem_map_of_mem hf')
      simp [hne, ih distinct.2 hf']

/-! ## What fields leave over -/

theorem misfit?_key {field : Field} {key : String} {value : Json}
    (h : misfit? members field = some (key, value)) : key = field.key := by
  unfold misfit? at h
  split at h
  · split at h
    · simp at h
    · exact (Prod.mk.inj (Option.some.inj h)).1.symm
  · simp at h

theorem lookup_filterMap_misfit? (distinct : (fields.map (·.key)).Nodup) (k : String) :
    (fields.filterMap (misfit? members)).lookup k =
      if k ∈ fields.map (·.key) then
        (members.lookup k).filter fun value => !takes fields k value
      else none := by
  induction fields with
  | nil => simp
  | cons field rest ih =>
    rw [List.map_cons, List.nodup_cons] at distinct
    obtain ⟨hnot, distinct'⟩ := distinct
    by_cases hk : k = field.key
    · subst hk
      have hrest : (rest.filterMap (misfit? members)).lookup field.key = none := by
        rw [ih distinct', if_neg hnot]
      rw [if_pos (by simp), List.filterMap_cons]
      cases hv : members.lookup field.key with
      | none => simp [misfit?, hv, hrest]
      | some value =>
        by_cases hfits : field.fits value
        · simp [misfit?, hv, hrest, takes_cons, hfits, Option.filter_some]
        · simp [misfit?, hv, takes_cons, hfits, takes_eq_false hnot, Option.filter_some]
    · -- The misfit of another field is found under that field's key.
      have hne : (field.key == k) = false := beq_false_of_ne (Ne.symm hk)
      have hskip : ((field :: rest).filterMap (misfit? members)).lookup k =
          (rest.filterMap (misfit? members)).lookup k := by
        rw [List.filterMap_cons]
        cases hm : misfit? members field with
        | none => rfl
        | some member =>
          obtain ⟨key, value⟩ := member
          obtain rfl := misfit?_key hm
          exact Members.lookup_cons_of_ne hk value _
      rw [hskip, ih distinct']
      simp [takes_cons, hne, hk]

/-- What is left over is what no field takes. -/
theorem lookup_leftover (distinct : (fields.map (·.key)).Nodup) (k : String) :
    (leftover fields members).lookup k =
      (members.lookup k).filter fun value => !takes fields k value := by
  rw [leftover, List.lookup_append, lookup_filterMap_misfit? distinct,
    Members.lookup_filter (fun key => !(fields.map (·.key)).contains key)]
  by_cases hk : k ∈ fields.map (·.key)
  · simp [hk]
  · have hnone : (members.lookup k).filter (fun value => !takes fields k value) =
        members.lookup k := by
      cases members.lookup k with
      | none => rfl
      | some value => simp [takes_eq_false hk]
    simp [hk, hnone]

/-- Changing what fields take, to something that they take again, leaves the same over. -/
theorem leftover_mapValues {change : String → Json → Json}
    (distinct : (fields.map (·.key)).Nodup)
    (taken : ∀ key value, (key, value) ∈ members → takes fields key value →
      takes fields key (change key value))
    (fixed : ∀ key value, (key, value) ∈ members → takes fields key value = false →
      change key value = value) :
    leftover fields (Members.mapValues change members) = leftover fields members := by
  -- A field that took its value takes the new one, and any other field sees the old one.
  have hmisfit : ∀ field ∈ fields,
      misfit? (Members.mapValues change members) field = misfit? members field := by
    intro field hf
    unfold misfit?
    rw [Members.lookup_mapValues]
    cases hv : members.lookup field.key with
    | none => rfl
    | some value =>
      have hm := Members.mem_of_lookup hv
      have htaken := taken field.key value hm
      have hfixed := fixed field.key value hm
      rw [takes_of_mem distinct field hf, takes_of_mem distinct field hf] at htaken
      rw [takes_of_mem distinct field hf] at hfixed
      by_cases hfits : field.fits value
      · simp [hfits, htaken hfits]
      · simp [hfits, hfixed (by simpa using hfits)]
  have hunread : ∀ member ∈ members, !(fields.map (·.key)).contains member.1 →
      (member.1, change member.1 member.2) = member := by
    rintro ⟨key, value⟩ hm hnot
    rw [fixed key value hm (takes_eq_false (by simpa using hnot) value)]
  rw [leftover, leftover, List.filterMap_congr hmisfit, Members.mapValues, List.filter_map]
  congr 1
  rw [List.map_congr_left (g := id)]
  · simp [Function.comp_def]
  · intro member hm
    rw [List.mem_filter] at hm
    exact hunread member hm.1 hm.2

/-! ## What fields write -/

theorem lookup_map_slot (change : String → Json → Json) (distinct : (fields.map (·.key)).Nodup)
    (k : String) :
    ((fields.map (slot change members)).lookup k).join =
      ((members.lookup k).filter (takes fields k)).map (change k) := by
  induction fields with
  | nil =>
    have hnone : (members.lookup k).filter (takes [] k) = none := by
      cases members.lookup k <;> simp [takes]
    simp [hnone]
  | cons field rest ih =>
    rw [List.map_cons, List.nodup_cons] at distinct
    obtain ⟨hnot, distinct'⟩ := distinct
    by_cases hk : k = field.key
    · subst hk
      have htakes : takes (field :: rest) field.key = field.fits := by
        funext value
        simp [takes_cons, takes_eq_false hnot]
      simp [slot, htakes]
    · have htakes : takes (field :: rest) k = takes rest k := by
        funext value
        simp [takes_cons, beq_false_of_ne (Ne.symm hk)]
      rw [List.map_cons, List.lookup_cons, htakes, ← ih distinct']
      simp [slot, beq_false_of_ne hk]

end Field

theorem lookup_foldl_putSome {slots : List (String × Option Json)}
    (distinct : (Members.keys slots).Nodup) (members : List (String × Json)) (k : String) :
    (slots.foldl (fun members slot => Members.putSome slot.1 slot.2 members) members).lookup k =
      ((slots.lookup k).join).or (members.lookup k) := by
  induction slots generalizing members with
  | nil => simp
  | cons slot rest ih =>
    obtain ⟨key, value⟩ := slot
    simp only [Members.keys, List.map_cons, List.nodup_cons] at distinct
    rw [List.foldl_cons, ih distinct.2, Members.lookup_putSome]
    by_cases hk : k = key
    · subst hk
      simp [Members.lookup_eq_none distinct.1]
    · simp [hk, Members.lookup_cons_of_ne hk]

/-- What slots add behind members, of the keys that pass a test and that no member has. -/
theorem filter_foldl_putSome (test : String → Bool) {slots : List (String × Option Json)}
    (distinct : (Members.keys slots).Nodup) {members : List (String × Json)}
    (new : ∀ key ∈ Members.keys slots, test key → key ∉ Members.keys members) :
    (slots.foldl (fun members slot => Members.putSome slot.1 slot.2 members) members).filter
        (fun member => test member.1) =
      members.filter (fun member => test member.1) ++
        slots.filterMap fun slot => if test slot.1 then slot.2.map (slot.1, ·) else none := by
  induction slots generalizing members with
  | nil => simp
  | cons slot rest ih =>
    obtain ⟨key, value⟩ := slot
    simp only [Members.keys, List.map_cons, List.nodup_cons] at distinct
    cases value with
    | none =>
      have new' : ∀ k ∈ Members.keys rest, test k → k ∉ Members.keys members :=
        fun k hk => new k (List.mem_cons_of_mem _ hk)
      simpa [Members.putSome] using ih distinct.2 new'
    | some v =>
      have new' : ∀ k ∈ Members.keys rest, test k → k ∉ Members.keys (Members.put key v members) := by
        intro k hk ht hm
        rcases Members.mem_keys_put hm with rfl | hm
        · exact distinct.1 hk
        · exact new k (List.mem_cons_of_mem _ hk) ht hm
      have hrest := ih distinct.2 new'
      cases ht : test key with
      | false =>
        rw [Members.filter_put_of_not ht] at hrest
        simpa [ht, Members.putSome] using hrest
      | true =>
        have hput : Members.put key v members = members ++ [(key, v)] :=
          Members.put_of_not_mem (new key (List.mem_cons_self ..) ht) v
        rw [hput] at hrest
        simpa [ht, Members.putSome, hput] using hrest

/-- **What is written:** in the old order what the fields hold or what is left over under their keys,
    then in the order of the fields what those hold whose keys are new. -/
theorem writeFields_eq {order : List String} {leftover : List (String × Json)}
    {slots : List (String × Option Json)} (distinct : (Members.keys slots).Nodup)
    (inside : ∀ key ∈ Members.keys leftover, key ∈ order) :
    writeFields order leftover slots =
      (order ++ (Members.keys slots).filter fun key => !order.contains key).filterMap fun key =>
        (((slots.lookup key).join).or (leftover.lookup key)).map (key, ·) := by
  have hold : leftover.filter (fun member => !order.contains member.1) = [] := by
    rw [List.filter_eq_nil_iff]
    intro member hm
    simpa using inside member.1 (List.mem_map_of_mem hm)
  have hnew : slots.filterMap (fun slot =>
      if !order.contains slot.1 then slot.2.map (slot.1, ·) else none) =
      ((Members.keys slots).filter fun key => !order.contains key).filterMap fun key =>
        (((slots.lookup key).join).or (leftover.lookup key)).map (key, ·) := by
    rw [Members.keys, List.filterMap_filter, List.filterMap_map]
    apply List.filterMap_congr
    rintro ⟨key, value⟩ hm
    by_cases hk : key ∈ order
    · simp [hk]
    · have hleft : leftover.lookup key = none :=
        Members.lookup_eq_none fun h => hk (inside key h)
      simp [hk, hleft, Members.lookup_of_mem distinct hm]
  have hfound : ∀ key,
      (slots.foldl (fun members slot => Members.putSome slot.1 slot.2 members) leftover).lookup key =
        ((slots.lookup key).join).or (leftover.lookup key) :=
    lookup_foldl_putSome distinct leftover
  have hoff : ∀ key ∈ Members.keys slots, !order.contains key → key ∉ Members.keys leftover := by
    intro key _ ht hm
    simp [inside key hm] at ht
  rw [writeFields, Members.arrange, filter_foldl_putSome (fun key => !order.contains key) distinct hoff,
    hold, List.nil_append, hnew, List.filterMap_append]
  simp only [hfound]

theorem lookup_writeFields {order : List String} {leftover : List (String × Json)}
    {slots : List (String × Option Json)} (distinct : (Members.keys slots).Nodup) (k : String) :
    (writeFields order leftover slots).lookup k =
      ((slots.lookup k).join).or (leftover.lookup k) := by
  rw [writeFields, Members.lookup_arrange, lookup_foldl_putSome distinct]

/-- **Fields and leftovers make up the object.** When each field writes a changed form of what it
    took, and `change` leaves alone what no field takes, writing gives the members back with their
    values changed. -/
theorem writeFields_leftover {fields : List Field} {members : List (String × Json)}
    {slots : List (String × Option Json)} {change : String → Json → Json}
    (nodup : (Members.keys members).Nodup) (distinct : (fields.map (·.key)).Nodup)
    (perm : (fields.map (Field.slot change members)).Perm slots)
    (fixed : ∀ key value, (key, value) ∈ members → Field.takes fields key value = false →
      change key value = value) :
    writeFields (Members.keys members) (Field.leftover fields members) slots =
      Members.mapValues change members := by
  have hkeys : Members.keys (fields.map (Field.slot change members)) = fields.map (·.key) := by
    simp [Members.keys, Field.slot, Function.comp_def]
  have distinct' : (Members.keys (fields.map (Field.slot change members))).Nodup :=
    hkeys ▸ distinct
  have distinct'' : (Members.keys slots).Nodup := (perm.map Prod.fst).nodup_iff.1 distinct'
  apply Members.arrange_eq_mapValues nodup
  intro k
  rw [lookup_foldl_putSome distinct'', ← Members.lookup_perm perm distinct',
    Field.lookup_map_slot change distinct, Field.lookup_leftover distinct]
  cases hv : members.lookup k with
  | none => rfl
  | some value =>
    cases ht : Field.takes fields k value with
    | true => simp [ht]
    | false => simp [ht, fixed k value (Members.mem_of_lookup hv) ht]

/-! ## Fields of a shape -/

namespace Shape

variable {α : Type} {shape : Shape α} {key : String} {members : List (String × Json)}

theorem get?_of_mem {value : Json} (nodup : (Members.keys members).Nodup)
    (hm : (key, value) ∈ members) : shape.get? key members = shape.read value := by
  rw [get?, Members.lookup_of_mem nodup hm]
  rfl

/-- What is written for a field of a shape, when `encode` writes what `change` makes of a value. -/
theorem filter_fits_map {encode : α → Json} {change : Json → Json}
    (h : ∀ value a, shape.read value = some a → change value = encode a) :
    ((members.lookup key).filter shape.Fits).map change =
      (shape.get? key members).map encode := by
  unfold get?
  cases members.lookup key with
  | none => rfl
  | some value =>
    cases hr : shape.read value with
    | none => simp [Option.filter_some, Fits, hr]
    | some a => simp [Option.filter_some, Fits, hr, h value a hr]

/-- A field whose value was not changed is read as before. -/
theorem get?_mapValues_of_fixed {change : String → Json → Json}
    (h : ∀ value, change key value = value) :
    shape.get? key (Members.mapValues change members) = shape.get? key members := by
  rw [get?, get?, Members.lookup_mapValues, funext h, Option.map_id']

/-- Reading a field from members whose values were changed. -/
theorem get?_mapValues {change : String → Json → Json} {edit : α → α}
    (h : ∀ value, (key, value) ∈ members →
      shape.read (change key value) = (shape.read value).map edit) :
    shape.get? key (Members.mapValues change members) = (shape.get? key members).map edit := by
  unfold get?
  rw [Members.lookup_mapValues]
  cases hv : members.lookup key with
  | none => rfl
  | some value => simpa using h value (Members.mem_of_lookup hv)

end Shape

end CartoStyle
