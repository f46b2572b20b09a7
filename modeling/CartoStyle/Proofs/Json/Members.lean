import CartoStyle.Json.Basic
import Mathlib.Data.List.Basic
import Mathlib.Data.List.Forall2

set_option autoImplicit false

/-! # Members of an object

How look-up goes through the operations on members. As long as no key is repeated, members are
determined by their keys and by what look-up finds (`arrange_eq_mapValues`), which is what decoding
an object and encoding it again comes down to. -/

namespace CartoStyle

namespace Members

variable {α β : Type}

/-! ## Look-up and membership -/

theorem mem_keys_of_mem {key : String} {value : α} {members : List (String × α)}
    (h : (key, value) ∈ members) : key ∈ keys members :=
  List.mem_map.2 ⟨(key, value), h, rfl⟩

theorem lookup_cons_of_ne {key k : String} (h : k ≠ key) (value : α)
    (members : List (String × α)) : ((key, value) :: members).lookup k = members.lookup k := by
  rw [List.lookup_cons, beq_false_of_ne h]

theorem mem_of_lookup {key : String} {value : α} {members : List (String × α)}
    (h : members.lookup key = some value) : (key, value) ∈ members := by
  obtain ⟨before, after, rfl, -⟩ := List.lookup_eq_some_iff.1 h
  simp

theorem lookup_eq_none {key : String} {members : List (String × α)} (h : key ∉ keys members) :
    members.lookup key = none := by
  rw [List.lookup_eq_none_iff]
  intro member hm
  have hne : key ≠ member.1 := fun he => h (he ▸ List.mem_map_of_mem hm)
  simpa using hne

/-- A member is found when no key is repeated. -/
theorem lookup_of_mem {key : String} {value : α} {members : List (String × α)}
    (nodup : (keys members).Nodup) (h : (key, value) ∈ members) :
    members.lookup key = some value := by
  induction members with
  | nil => simp at h
  | cons member rest ih =>
    obtain ⟨k, v⟩ := member
    simp only [keys, List.map_cons, List.nodup_cons] at nodup
    rcases List.mem_cons.1 h with he | h'
    · obtain ⟨rfl, rfl⟩ := Prod.mk.inj he
      simp
    · have hne : key ≠ k := fun he => nodup.1 (he ▸ mem_keys_of_mem h')
      rw [lookup_cons_of_ne hne]
      exact ih nodup.2 h'

/-- Without repeated keys the order of members does not matter to look-up. -/
theorem lookup_perm {members others : List (String × α)} (perm : members.Perm others)
    (nodup : (keys members).Nodup) (key : String) : members.lookup key = others.lookup key := by
  have nodup' : (keys others).Nodup := (perm.map Prod.fst).nodup_iff.1 nodup
  ext value
  constructor
  · intro h
    exact lookup_of_mem nodup' (perm.mem_iff.1 (mem_of_lookup h))
  · intro h
    exact lookup_of_mem nodup (perm.mem_iff.2 (mem_of_lookup h))

/-! ## Setting and leaving out members -/

theorem lookup_put (key : String) (value : α) (members : List (String × α)) (k : String) :
    (put key value members).lookup k = if k = key then some value else members.lookup k := by
  induction members with
  | nil =>
    by_cases hk : k = key
    · simp [put, hk]
    · simp [put, hk]
  | cons member rest ih =>
    obtain ⟨l, v⟩ := member
    simp only [put]
    by_cases hl : l = key
    · subst hl
      by_cases hk : k = l
      · simp [hk]
      · simp [hk, lookup_cons_of_ne hk]
    · rw [if_neg hl, List.lookup_cons, List.lookup_cons, ih]
      by_cases hk : k = key
      · subst hk
        simp [beq_false_of_ne (Ne.symm hl)]
      · simp [hk]

theorem lookup_putSome (key : String) (value : Option α) (members : List (String × α))
    (k : String) :
    (putSome key value members).lookup k =
      if k = key then value.or (members.lookup k) else members.lookup k := by
  cases value with
  | none => simp [putSome]
  | some v => simp [putSome, lookup_put]

theorem put_of_not_mem {key : String} {members : List (String × α)} (h : key ∉ keys members)
    (value : α) : put key value members = members ++ [(key, value)] := by
  induction members with
  | nil => rfl
  | cons member rest ih =>
    obtain ⟨l, v⟩ := member
    obtain ⟨hne, hrest⟩ : key ≠ l ∧ key ∉ keys rest := by simpa [keys] using h
    rw [put, if_neg (Ne.symm hne), ih hrest, List.cons_append]

/-- Entries without repeated keys are members already. -/
theorem ofEntries_eq_self {entries : List (String × α)} (nodup : (keys entries).Nodup) :
    ofEntries entries = entries := by
  have hfold : ∀ (done more : List (String × α)), (keys (done ++ more)).Nodup →
      more.foldl (fun members entry => put entry.1 entry.2 members) done = done ++ more := by
    intro done more
    induction more generalizing done with
    | nil => simp
    | cons entry rest ih =>
      intro h
      have hnew : entry.1 ∉ keys done := by
        rw [keys, List.map_append] at h
        exact fun hm => (List.nodup_append.1 h).2.2 _ hm entry.1 (by simp) rfl
      rw [List.foldl_cons, put_of_not_mem hnew]
      simpa using ih (done ++ [entry]) (by simpa using h)
  exact hfold [] entries nodup

/-- Every member comes from an entry. -/
theorem mem_of_mem_ofEntries {entries : List (String × α)} {member : String × α}
    (h : member ∈ ofEntries entries) : member ∈ entries := by
  have hput : ∀ (key : String) (value : α) (members : List (String × α)),
      ∀ m ∈ put key value members, m = (key, value) ∨ m ∈ members := by
    intro key value members
    induction members with
    | nil => simp [put]
    | cons first rest ih =>
      intro m hm
      rw [put] at hm
      split at hm
      · exact (List.mem_cons.1 hm).imp_right (List.mem_cons_of_mem _)
      · rcases List.mem_cons.1 hm with rfl | hm
        · exact Or.inr (List.mem_cons_self ..)
        · exact (ih m hm).imp_right (List.mem_cons_of_mem _)
  have hfold : ∀ (done more : List (String × α)),
      ∀ m ∈ more.foldl (fun members entry => put entry.1 entry.2 members) done,
        m ∈ done ∨ m ∈ more := by
    intro done more
    induction more generalizing done with
    | nil => simp
    | cons entry rest ih =>
      intro m hm
      rcases ih _ m hm with hdone | hrest
      · rcases hput _ _ _ m hdone with rfl | hdone
        · exact Or.inr (List.mem_cons_self ..)
        · exact Or.inl hdone
      · exact Or.inr (List.mem_cons_of_mem _ hrest)
  exact (hfold [] entries member h).resolve_left List.not_mem_nil

/-- Look-up among the members whose key passes a test. -/
theorem lookup_filter (test : String → Bool) (members : List (String × α)) (k : String) :
    (members.filter fun member => test member.1).lookup k =
      if test k then members.lookup k else none := by
  induction members with
  | nil => simp
  | cons member rest ih =>
    obtain ⟨l, v⟩ := member
    by_cases hk : k = l
    · subst hk
      cases ht : test k with
      | true => simp [ht]
      | false => simpa [ht] using ih
    · rw [lookup_cons_of_ne hk, List.filter_cons]
      by_cases ht : test l
      · simp only [if_pos ht, lookup_cons_of_ne hk, ih]
      · simp only [if_neg ht, ih]

theorem lookup_erase (key : String) (members : List (String × α)) (k : String) :
    (erase key members).lookup k = if k = key then none else members.lookup k := by
  rw [erase, lookup_filter (fun l => l != key)]
  by_cases hk : k = key
  · simp [hk]
  · simp [hk]

/-! ## Setting members one after the other -/

theorem keys_put_of_mem {key : String} {members : List (String × α)} (h : key ∈ keys members)
    (value : α) : keys (put key value members) = keys members := by
  induction members with
  | nil => simp [keys] at h
  | cons member rest ih =>
    obtain ⟨l, v⟩ := member
    rw [put]
    by_cases hl : l = key
    · subst hl
      simp [keys]
    · have hrest : key ∈ keys rest := by simpa [keys, Ne.symm hl] using h
      rw [if_neg hl]
      exact congrArg (l :: ·) (ih hrest)

theorem mem_keys_put {key k : String} {value : α} {members : List (String × α)}
    (h : k ∈ keys (put key value members)) : k = key ∨ k ∈ keys members := by
  by_cases hkey : key ∈ keys members
  · rw [keys_put_of_mem hkey] at h
    exact Or.inr h
  · rw [put_of_not_mem hkey, keys, List.map_append, List.mem_append] at h
    rcases h with h | h
    · exact Or.inr h
    · exact Or.inl (by simpa using h)

theorem filter_put_of_not {test : String → Bool} {key : String} (h : test key = false) (value : α)
    (members : List (String × α)) :
    (put key value members).filter (fun member => test member.1) =
      members.filter fun member => test member.1 := by
  induction members with
  | nil => simp [put, h]
  | cons member rest ih =>
    obtain ⟨l, v⟩ := member
    rw [put]
    by_cases hl : l = key
    · subst hl
      simp [h]
    · rw [if_neg hl, List.filter_cons, List.filter_cons, ih]

/-- Set each entry's key to its value, one after the other. -/
def putAll (entries members : List (String × α)) : List (String × α) :=
  entries.foldl (fun members entry => put entry.1 entry.2 members) members

theorem putAll_append (entries more members : List (String × α)) :
    putAll (entries ++ more) members = putAll more (putAll entries members) :=
  List.foldl_append

/-- The value of the last entry of a key. -/
def last? (key : String) (entries : List (String × α)) : Option α := entries.reverse.lookup key

theorem last?_cons (key : String) (entry : String × α) (rest : List (String × α)) :
    last? key (entry :: rest) = (last? key rest).or (if key = entry.1 then some entry.2 else none) := by
  obtain ⟨k, v⟩ := entry
  rw [last?, List.reverse_cons, List.lookup_append]
  by_cases hk : key = k
  · simp [last?, hk]
  · simp [last?, hk, lookup_cons_of_ne hk]

/-- Look-up finds what was set last. -/
theorem lookup_putAll (entries members : List (String × α)) (k : String) :
    (putAll entries members).lookup k = (last? k entries).or (members.lookup k) := by
  induction entries generalizing members with
  | nil => rfl
  | cons entry rest ih =>
    calc (putAll (entry :: rest) members).lookup k
        = (last? k rest).or ((put entry.1 entry.2 members).lookup k) := ih _
      _ = (last? k (entry :: rest)).or (members.lookup k) := by
        rw [lookup_put, last?_cons, Option.or_assoc]
        by_cases hk : k = entry.1
        · simp [hk]
        · simp [hk]

theorem keys_putAll {entries members : List (String × α)}
    (h : ∀ entry ∈ entries, entry.1 ∈ keys members) :
    keys (putAll entries members) = keys members := by
  induction entries generalizing members with
  | nil => rfl
  | cons entry rest ih =>
    have hkeys : keys (put entry.1 entry.2 members) = keys members :=
      keys_put_of_mem (h entry (List.mem_cons_self ..)) entry.2
    calc keys (putAll (entry :: rest) members)
        = keys (put entry.1 entry.2 members) :=
          ih fun e he => hkeys ▸ h e (List.mem_cons_of_mem _ he)
      _ = keys members := hkeys

/-! ## Changing values -/

/-- The members with every value changed, the key known. -/
def mapValues (change : String → α → β) (members : List (String × α)) : List (String × β) :=
  members.map fun (key, value) => (key, change key value)

theorem keys_mapValues (change : String → α → β) (members : List (String × α)) :
    keys (mapValues change members) = keys members := by
  simp [keys, mapValues, Function.comp_def]

theorem lookup_mapValues (change : String → α → β) (members : List (String × α)) (k : String) :
    (mapValues change members).lookup k = (members.lookup k).map (change k) := by
  induction members with
  | nil => rfl
  | cons member rest ih =>
    obtain ⟨l, v⟩ := member
    by_cases hk : k = l
    · subst hk
      simp [mapValues]
    · simpa [mapValues, lookup_cons_of_ne hk] using ih

/-- Only the members that are there matter to a change of values. -/
theorem mapValues_congr {change other : String → α → β} {members : List (String × α)}
    (h : ∀ key value, (key, value) ∈ members → change key value = other key value) :
    mapValues change members = mapValues other members := by
  apply List.map_congr_left
  rintro ⟨key, value⟩ hm
  show (key, change key value) = (key, other key value)
  rw [h key value hm]

theorem mapValues_eq_self {change : String → α → α} {members : List (String × α)}
    (h : ∀ key value, (key, value) ∈ members → change key value = value) :
    mapValues change members = members := by
  calc mapValues change members
      = mapValues (fun _ value => value) members := mapValues_congr h
    _ = members := by simp [mapValues]

/-! ## Arranging members -/

/-- Arranging does not matter to look-up. -/
theorem lookup_arrange (order : List String) (members : List (String × α)) (k : String) :
    (arrange order members).lookup k = members.lookup k := by
  have hfirst : (order.filterMap fun key => (members.lookup key).map (key, ·)).lookup k =
      if k ∈ order then members.lookup k else none := by
    induction order with
    | nil => rfl
    | cons key rest ih =>
      rw [List.filterMap_cons]
      by_cases hk : k = key
      · subst hk
        cases hv : members.lookup k with
        | none => simpa [hv] using ih
        | some value => simp
      · cases members.lookup key with
        | none => simpa [hk] using ih
        | some value => simpa [hk, lookup_cons_of_ne hk] using ih
  rw [arrange, List.lookup_append, hfirst, lookup_filter (fun key => !order.contains key)]
  by_cases hk : k ∈ order
  · simp [hk]
  · simp [hk]

/-- Members that look-up sees as those of an object with changed values are arranged into just
    that. -/
theorem arrange_eq_mapValues {members : List (String × α)} {found : List (String × β)}
    {change : String → α → β} (nodup : (keys members).Nodup)
    (h : ∀ k, found.lookup k = (members.lookup k).map (change k)) :
    arrange (keys members) found = mapValues change members := by
  -- Every key that is found is one of the members, so nothing comes after those in order.
  have hin : ∀ member ∈ found, member.1 ∈ keys members := by
    intro member hm
    by_contra hne
    have hnone := h member.1
    rw [lookup_eq_none hne, Option.map_none, List.lookup_eq_none_iff] at hnone
    simpa using hnone member hm
  have hrest : found.filter (fun member => !(keys members).contains member.1) = [] := by
    rw [List.filter_eq_nil_iff]
    intro member hm
    simpa using hin member hm
  have hfirst : (keys members).filterMap (fun key => (found.lookup key).map (key, ·)) =
      mapValues change members := by
    rw [keys, List.filterMap_map, mapValues, ← List.filterMap_eq_map]
    apply List.filterMap_congr
    rintro ⟨key, value⟩ hm
    simp [h key, lookup_of_mem nodup hm]
  rw [arrange, hfirst, hrest, List.append_nil]

end Members

end CartoStyle
