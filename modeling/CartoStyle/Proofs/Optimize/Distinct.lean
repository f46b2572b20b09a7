import CartoStyle.Optimize.Pass
import Mathlib.Data.List.Basic
import Mathlib.Data.List.Pairwise

set_option autoImplicit false

/-! # The first elements of each key

`distinctBy` keeps the first element of every key, in order: what it keeps has distinct keys, covers
the keys of what it was given, and is not changed by keeping the first elements again. Elements can
be left out before or after, when their key tells which (`distinctBy_filter`). What is kept can be
told at each position from what stands before it (`distinctBy_eq_firstsBy`). -/

namespace CartoStyle

variable {α : Type} {key : α → String}

theorem distinctBy_sublist (seen : List String) (as : List α) :
    (distinctBy key seen as).Sublist as := by
  induction as generalizing seen with
  | nil => exact List.Sublist.refl _
  | cons a rest ih =>
    rw [distinctBy]
    by_cases h : seen.contains (key a)
    · rw [if_pos h]
      exact (ih seen).cons a
    · rw [if_neg h]
      exact (ih (key a :: seen)).cons_cons a

/-- Nothing that is kept has a key that was seen before. -/
theorem not_mem_seen_of_mem_distinctBy {seen : List String} {as : List α} {a : α}
    (h : a ∈ distinctBy key seen as) : key a ∉ seen := by
  induction as generalizing seen with
  | nil => simp [distinctBy] at h
  | cons b rest ih =>
    rw [distinctBy] at h
    by_cases hb : seen.contains (key b)
    · rw [if_pos hb] at h
      exact ih h
    · rw [if_neg hb] at h
      rcases List.mem_cons.1 h with rfl | h'
      · simpa using hb
      · exact fun hs => ih h' (List.mem_cons_of_mem _ hs)

theorem pairwise_distinctBy (seen : List String) (as : List α) :
    (distinctBy key seen as).Pairwise fun a b => key a ≠ key b := by
  induction as generalizing seen with
  | nil => exact List.Pairwise.nil
  | cons a rest ih =>
    rw [distinctBy]
    by_cases h : seen.contains (key a)
    · rw [if_pos h]
      exact ih seen
    · rw [if_neg h]
      -- From here on the key of `a` counts as seen.
      refine List.Pairwise.cons ?_ (ih (key a :: seen))
      intro b hb he
      exact not_mem_seen_of_mem_distinctBy hb (he ▸ List.mem_cons_self ..)

/-- Every key that was not seen before is kept once. -/
theorem exists_mem_distinctBy {seen : List String} {as : List α} {a : α} (ha : a ∈ as)
    (hseen : key a ∉ seen) : ∃ b ∈ distinctBy key seen as, key b = key a := by
  induction as generalizing seen with
  | nil => simp at ha
  | cons b rest ih =>
    rw [distinctBy]
    rcases List.mem_cons.1 ha with rfl | ha'
    · rw [if_neg (by simpa using hseen)]
      exact ⟨a, List.mem_cons_self .., rfl⟩
    · by_cases hb : seen.contains (key b)
      · rw [if_pos hb]
        exact ih ha' hseen
      · rw [if_neg hb]
        by_cases he : key b = key a
        · exact ⟨b, List.mem_cons_self .., he⟩
        · have hseen' : key a ∉ key b :: seen := by
            simpa [Ne.symm he] using hseen
          obtain ⟨c, hc, hkey⟩ := ih ha' hseen'
          exact ⟨c, List.mem_cons_of_mem _ hc, hkey⟩

/-- Elements with distinct keys are all kept. -/
theorem distinctBy_eq_self {seen : List String} {as : List α}
    (hseen : ∀ a ∈ as, key a ∉ seen) (distinct : as.Pairwise fun a b => key a ≠ key b) :
    distinctBy key seen as = as := by
  induction as generalizing seen with
  | nil => rfl
  | cons a rest ih =>
    have hfirst : key a ∉ seen := hseen a (List.mem_cons_self ..)
    obtain ⟨hne, distinct'⟩ := List.pairwise_cons.1 distinct
    have hrest : ∀ b ∈ rest, key b ∉ key a :: seen := by
      intro b hb hmem
      rcases List.mem_cons.1 hmem with he | hs
      · exact hne b hb he.symm
      · exact hseen b (List.mem_cons_of_mem _ hb) hs
    rw [distinctBy, if_neg (by simpa using hfirst), ih hrest distinct']

/-- Keys that do not occur need not count as seen. -/
theorem distinctBy_congr {seen seen' : List String} {as : List α}
    (h : ∀ a ∈ as, key a ∈ seen ↔ key a ∈ seen') :
    distinctBy key seen as = distinctBy key seen' as := by
  induction as generalizing seen seen' with
  | nil => rfl
  | cons a rest ih =>
    obtain ⟨hfirst, hrest⟩ := List.forall_mem_cons.1 h
    have hskip : seen.contains (key a) = seen'.contains (key a) := by
      rw [Bool.eq_iff_iff, List.contains_iff_mem, List.contains_iff_mem]
      exact hfirst
    have hkeep : ∀ b ∈ rest, key b ∈ key a :: seen ↔ key b ∈ key a :: seen' := by
      intro b hb
      rw [List.mem_cons, List.mem_cons, hrest b hb]
    rw [distinctBy, distinctBy, hskip, ih hrest, ih hkeep]

/-- **Which elements are left out can be decided before or after,** when their key decides it. -/
theorem distinctBy_filter {keep : α → Bool} (seen : List String) {as : List α}
    (h : ∀ a ∈ as, ∀ b ∈ as, key a = key b → keep a = keep b) :
    distinctBy key seen (as.filter keep) = (distinctBy key seen as).filter keep := by
  induction as generalizing seen with
  | nil => rfl
  | cons a rest ih =>
    have hrest : ∀ b ∈ rest, ∀ c ∈ rest, key b = key c → keep b = keep c := fun b hb c hc =>
      h b (List.mem_cons_of_mem _ hb) c (List.mem_cons_of_mem _ hc)
    by_cases ha : keep a
    · rw [List.filter_cons_of_pos ha, distinctBy, distinctBy, ih seen hrest,
        ih (key a :: seen) hrest]
      split
      · rfl
      · rw [List.filter_cons_of_pos ha]
    · -- Later elements of this key are left out as well, so it does not matter that it was seen.
      have hseen : distinctBy key seen (rest.filter keep) =
          distinctBy key (key a :: seen) (rest.filter keep) := by
        refine distinctBy_congr fun b hb => ?_
        obtain ⟨hb, hkeep⟩ := List.mem_filter.1 hb
        have hne : key b ≠ key a := by
          intro he
          rw [h b (List.mem_cons_of_mem _ hb) a (List.mem_cons_self ..) he] at hkeep
          exact ha hkeep
        simp [hne]
      rw [List.filter_cons_of_neg ha, distinctBy]
      split
      · exact ih seen hrest
      · rw [List.filter_cons_of_neg ha, hseen, ih (key a :: seen) hrest]

/-- **Keeping the first elements twice is keeping them once.** -/
theorem distinctBy_distinctBy (as : List α) :
    distinctBy key [] (distinctBy key [] as) = distinctBy key [] as :=
  distinctBy_eq_self (by simp) (pairwise_distinctBy [] as)

/-! ## Elements without an equal before them -/

section FirstsBy

variable {β γ : Type} [DecidableEq β] [DecidableEq γ]

/-- Whether no element before a position has the key of the one that stands there. -/
def isFirst (key : α → β) (as : List α) (entry : α × Nat) : Bool :=
  (as.take entry.2).all fun b => key b ≠ key entry.1

/-- The elements that share their key with no earlier one, in order. -/
def firstsBy (key : α → β) (as : List α) : List α :=
  (as.zipIdx.filter (isFirst key as)).map Prod.fst

theorem isFirst_iff {key : α → β} {as : List α} {entry : α × Nat} :
    isFirst key as entry ↔ ∀ b ∈ as.take entry.2, key b ≠ key entry.1 := by
  simp [isFirst]

/-- Keys that tell the same elements apart make no difference. -/
theorem firstsBy_congr {key : α → β} {key' : α → γ} {as : List α}
    (h : ∀ a ∈ as, ∀ b ∈ as, key b = key a ↔ key' b = key' a) :
    firstsBy key as = firstsBy key' as := by
  unfold firstsBy
  refine congrArg _ (List.filter_congr fun entry hm => ?_)
  rw [Bool.eq_iff_iff, isFirst_iff, isFirst_iff]
  refine forall₂_congr fun b hb => not_congr ?_
  exact h entry.1 (List.fst_mem_of_mem_zipIdx hm) b (List.mem_of_mem_take hb)

end FirstsBy

/-- Going on after some elements, whose keys have been seen, is to look for them in front. -/
theorem map_fst_filter_isFirst (before as : List α) {seen : List String}
    (hseen : ∀ k, k ∈ seen ↔ k ∈ before.map key) :
    ((as.zipIdx before.length).filter (isFirst key (before ++ as))).map Prod.fst =
      distinctBy key seen as := by
  induction as generalizing before seen with
  | nil => rfl
  | cons a rest ih =>
    have hfirst : isFirst key (before ++ a :: rest) (a, before.length) ↔
        key a ∉ before.map key := by
      rw [isFirst_iff, List.take_left]
      simp
    -- In both cases the key of `a` stands before the rest.
    have hrest := @ih (before ++ [a])
    simp only [List.append_assoc, List.singleton_append, List.length_append, List.length_singleton]
      at hrest
    rw [List.zipIdx_cons, distinctBy]
    by_cases hmem : key a ∈ before.map key
    · rw [List.filter_cons_of_neg (fun h => hfirst.1 h hmem), if_pos (by simpa [hseen] using hmem)]
      refine hrest fun k => ?_
      rw [List.map_append, List.mem_append, ← hseen]
      refine ⟨Or.inl, fun h => h.elim id fun hk => ?_⟩
      rwa [List.mem_singleton.1 hk, hseen]
    · rw [List.filter_cons_of_pos (hfirst.2 hmem), if_neg (by simpa [hseen] using hmem),
        List.map_cons]
      refine congrArg _ (hrest fun k => ?_)
      rw [List.map_append, List.mem_append, ← hseen, List.mem_cons, or_comm, List.map_singleton,
        List.mem_singleton]

/-- **What is kept are the elements that share their key with no earlier one.** -/
theorem distinctBy_eq_firstsBy (as : List α) : distinctBy key [] as = firstsBy key as :=
  (map_fst_filter_isFirst [] as (by simp)).symm

end CartoStyle
