import CartoStyle.Geo.Summary
import CartoStyle.Proofs.Json.Members
import Mathlib.Data.List.Sort
import Mathlib.Data.String.Basic

set_option autoImplicit false

/-! # Counting names

What counting a list of names one by one comes to: the names that occur, in alphabetical order, each
with how often it does (`Tallies.foldl`), whatever the order in which they were counted
(`Tallies.unique`). -/

namespace CartoStyle

open Members (keys lookup_eq_none lookup_cons_of_ne mem_of_lookup lookup_of_mem)

theorem mem_keys_tally {name key : String} {counts : List (String × Nat)} :
    key ∈ keys (tally name counts) ↔ key = name ∨ key ∈ keys counts := by
  induction counts with
  | nil => simp [tally, keys]
  | cons entry rest ih =>
    obtain ⟨k, n⟩ := entry
    simp only [keys] at ih
    rw [tally]
    split
    · simp [keys]
    split
    · next heq => simp [keys, heq]
    · simp only [keys, List.map_cons, List.mem_cons, ih, or_left_comm]

/-- Counting a name keeps the counts in order. -/
theorem sorted_tally {counts : List (String × Nat)} (sorted : (keys counts).Pairwise (· < ·))
    (name : String) : (keys (tally name counts)).Pairwise (· < ·) := by
  induction counts with
  | nil => simp [tally, keys]
  | cons entry rest ih =>
    obtain ⟨k, n⟩ := entry
    obtain ⟨hhead, htail⟩ := List.pairwise_cons.1 sorted
    rw [tally]
    split
    · next hlt =>
      refine List.pairwise_cons.2 ⟨fun key hm => ?_, sorted⟩
      rcases List.mem_cons.1 hm with rfl | hm
      · exact hlt
      · exact hlt.trans (hhead key hm)
    split
    · exact sorted
    · next hlt hne =>
      refine List.pairwise_cons.2 ⟨fun key hm => ?_, ih htail⟩
      rcases mem_keys_tally.1 hm with rfl | hm
      · exact lt_of_le_of_ne (not_lt.1 hlt) (Ne.symm hne)
      · exact hhead key hm

/-- Counting a name adds one to its count and leaves the other counts alone. -/
theorem lookup_tally {counts : List (String × Nat)} (sorted : (keys counts).Pairwise (· < ·))
    (name key : String) :
    (tally name counts).lookup key =
      if key = name then some ((counts.lookup name).getD 0 + 1) else counts.lookup key := by
  induction counts with
  | nil => by_cases hkey : key = name <;> simp [tally, hkey]
  | cons entry rest ih =>
    obtain ⟨k, n⟩ := entry
    obtain ⟨hhead, htail⟩ := List.pairwise_cons.1 sorted
    rw [tally]
    split
    · next hlt =>
      -- What is counted for the first time stands before all that is counted already.
      have hnew : name ∉ keys ((k, n) :: rest) := by
        intro hm
        rcases List.mem_cons.1 hm with rfl | hm
        · exact lt_irrefl _ hlt
        · exact lt_asymm hlt (hhead name hm)
      rw [lookup_eq_none hnew]
      by_cases hkey : key = name
      · simp [hkey]
      · rw [if_neg hkey, lookup_cons_of_ne hkey]
    split
    · next heq =>
      subst heq
      by_cases hkey : key = name
      · simp [hkey]
      · simp [hkey, lookup_cons_of_ne hkey]
    · next hne =>
      rw [lookup_cons_of_ne hne]
      by_cases hkey : key = name
      · subst hkey
        rw [if_pos rfl, lookup_cons_of_ne hne, ih htail, if_pos rfl]
      · rw [if_neg hkey, List.lookup_cons, List.lookup_cons, ih htail, if_neg hkey]

/-- Whether counts tell how often each name of a list occurs in it. -/
structure Tallies (names : List String) (counts : List (String × Nat)) : Prop where
  sorted : (keys counts).Pairwise (· < ·)
  lookup : ∀ name, counts.lookup name =
    if names.count name = 0 then none else some (names.count name)

namespace Tallies

variable {names names' : List String} {counts counts' : List (String × Nat)}

theorem nil : Tallies [] [] where
  sorted := .nil
  lookup := fun _ => rfl

/-- One name more, counted once more. -/
theorem step (h : Tallies names counts) (name : String) :
    Tallies (names ++ [name]) (tally name counts) where
  sorted := sorted_tally h.sorted name
  lookup := by
    intro key
    rw [lookup_tally h.sorted, h.lookup, h.lookup, List.count_append, List.count_singleton]
    by_cases hkey : key = name
    · subst hkey
      by_cases hcount : names.count key = 0
      · simp [hcount]
      · simp [hcount]
    · simp [hkey, Ne.symm hkey]

/-- What counting comes to. -/
theorem foldl (h : Tallies names counts) (more : List String) :
    Tallies (names ++ more) (more.foldl (fun counts name => tally name counts) counts) := by
  induction more generalizing names counts with
  | nil => simpa using h
  | cons name rest ih => simpa using ih (h.step name)

theorem mem_iff (h : Tallies names counts) {name : String} {n : Nat} :
    (name, n) ∈ counts ↔ n ≠ 0 ∧ names.count name = n := by
  have hlookup : (name, n) ∈ counts ↔ counts.lookup name = some n :=
    ⟨lookup_of_mem (h.sorted.imp ne_of_lt), mem_of_lookup⟩
  rw [hlookup, h.lookup]
  by_cases hcount : names.count name = 0
  · simp [hcount, eq_comm]
  · simp only [hcount, if_false, Option.some.injEq]
    exact ⟨fun he => ⟨he ▸ hcount, he⟩, And.right⟩

/-- The counts are determined by how often each name occurs. -/
theorem unique (h : Tallies names counts) (h' : Tallies names' counts')
    (same : ∀ name, names.count name = names'.count name) : counts = counts' := by
  have hnodup : ∀ {names counts}, Tallies names counts → counts.Nodup := fun h =>
    .of_map Prod.fst (h.sorted.imp ne_of_lt)
  have hperm : counts.Perm counts' := by
    rw [List.perm_ext_iff_of_nodup (hnodup h) (hnodup h')]
    rintro ⟨name, n⟩
    rw [h.mem_iff, h'.mem_iff, same]
  exact hperm.eq_of_pairwise (fun a b _ _ hab hba => absurd hba (lt_asymm hab))
    (List.pairwise_map.1 h.sorted) (List.pairwise_map.1 h'.sorted)

end Tallies

end CartoStyle
