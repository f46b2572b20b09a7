import CartoStyle.Json.Path
import CartoStyle.Proofs.Json.Numerals

set_option autoImplicit false

/-! # The written form of paths

Paths through members with plain names are told apart by their text (`Path.text_injective`): a dot or
a bracket ends a name, and a bracket ends a position. -/

namespace CartoStyle

namespace Path

/-- Whether a step has a name that no dot or bracket cuts short. -/
def PlainStep : Step → Prop
  | .member name => name ≠ "" ∧ ∀ c ∈ name.toList, c ≠ '.' ∧ c ≠ '['
  | .index _ => True

/-- Whether a path has only such steps. -/
def Plain (path : Path) : Prop := ∀ step ∈ path, PlainStep step

/-- The text of a step after others. -/
def stepText : Step → List Char
  | .member name => '.' :: name.toList
  | .index position => '[' :: (Nat.toDigits 10 position ++ [']'])

theorem toList_tailText (path : Path) : (tailText path).toList = path.flatMap stepText := by
  induction path with
  | nil => rfl
  | cons step rest ih => cases step <;> simp [tailText, stepText, ih]

theorem head?_flatMap_stepText {path : Path} {c : Char}
    (h : (path.flatMap stepText).head? = some c) : c = '.' ∨ c = '[' := by
  cases path with
  | nil => cases h
  | cons step rest =>
    cases step with
    | member name => exact .inl (by simpa [stepText, eq_comm] using h)
    | index position => exact .inr (by simpa [stepText, eq_comm] using h)

/-- What stands before the first mark is told apart from what follows. -/
theorem append_inj_of_mark {mark : Char → Prop} [DecidablePred mark] {xs ys tail tail' : List Char}
    (hxs : ∀ c ∈ xs, ¬mark c) (hys : ∀ c ∈ ys, ¬mark c)
    (htail : ∀ c, tail.head? = some c → mark c) (htail' : ∀ c, tail'.head? = some c → mark c)
    (h : xs ++ tail = ys ++ tail') : xs = ys ∧ tail = tail' := by
  have htake : ∀ {xs tail : List Char}, (∀ c ∈ xs, ¬mark c) →
      (∀ c, tail.head? = some c → mark c) → (xs ++ tail).takeWhile (fun c => !decide (mark c)) = xs := by
    intro xs tail hxs htail
    rw [List.takeWhile_append_of_pos (by simpa using hxs)]
    cases tail with
    | nil => simp
    | cons c rest => simp [htail c rfl]
  have hsame : xs = ys := by rw [← htake hxs htail, h, htake hys htail']
  subst hsame
  exact ⟨rfl, List.append_cancel_left h⟩

theorem stepText_append_inj {step step' : Step} (plain : PlainStep step) (plain' : PlainStep step')
    {tail tail' : List Char} (htail : ∀ c, tail.head? = some c → c = '.' ∨ c = '[')
    (htail' : ∀ c, tail'.head? = some c → c = '.' ∨ c = '[')
    (h : stepText step ++ tail = stepText step' ++ tail') : step = step' ∧ tail = tail' := by
  cases step with
  | member name =>
    cases step' with
    | member name' =>
      obtain ⟨-, h⟩ := List.cons.inj h
      obtain ⟨hname, rfl⟩ := append_inj_of_mark (by simpa using plain.2) (by simpa using plain'.2)
        htail htail' h
      exact ⟨congrArg Step.member (String.toList_inj.1 hname), rfl⟩
    | index position => simp [stepText] at h
  | index position =>
    cases step' with
    | member name' => simp [stepText] at h
    | index position' =>
      have hdigits : ∀ n : Nat, ∀ c ∈ Nat.toDigits 10 n, ¬c = ']' := by
        rintro n c hc rfl
        cases Json.isDigit_of_mem_toDigits hc
      simp only [stepText, List.cons_append, List.append_assoc, List.cons.injEq, true_and] at h
      obtain ⟨hposition, h⟩ := append_inj_of_mark (hdigits _) (hdigits _) (by simp [eq_comm])
        (by simp [eq_comm]) h
      have hvalue := congrArg Json.digitsValue hposition
      rw [Json.digitsValue_toDigits, Json.digitsValue_toDigits] at hvalue
      exact ⟨congrArg Step.index hvalue, (List.cons.inj h).2⟩

theorem flatMap_stepText_injective {path path' : Path} (plain : path.Plain) (plain' : path'.Plain)
    (h : path.flatMap stepText = path'.flatMap stepText) : path = path' := by
  induction path generalizing path' with
  | nil =>
    cases path' with
    | nil => rfl
    | cons step' rest' => cases step' <;> simp [stepText] at h
  | cons step rest ih =>
    cases path' with
    | nil => cases step <;> simp [stepText] at h
    | cons step' rest' =>
      rw [List.flatMap_cons, List.flatMap_cons] at h
      obtain ⟨rfl, hrest⟩ := stepText_append_inj (plain _ (List.mem_cons_self ..))
        (plain' _ (List.mem_cons_self ..)) (fun _ => head?_flatMap_stepText)
        (fun _ => head?_flatMap_stepText) h
      rw [ih (fun _ hm => plain _ (List.mem_cons_of_mem _ hm))
        (fun _ hm => plain' _ (List.mem_cons_of_mem _ hm)) hrest]

theorem toList_text_member (name : String) (rest : Path) :
    (text (.member name :: rest)).toList = name.toList ++ rest.flatMap stepText := by
  rw [text, String.toList_append, toList_tailText]

/-- A path that starts with no name is written as it is behind others. -/
theorem toList_text_other {path : Path} (other : ¬∃ name rest, path = .member name :: rest) :
    path.text.toList = path.flatMap stepText := by
  rcases path with _ | ⟨name | position, rest⟩
  · exact toList_tailText []
  · exact absurd ⟨name, rest, rfl⟩ other
  · exact toList_tailText _

/-- A plain name starts neither with a bracket nor not at all. -/
theorem text_member_ne {name : String} (plain : PlainStep (.member name)) (rest : Path)
    {path : Path} (other : ¬∃ name rest, path = .member name :: rest) :
    text (.member name :: rest) ≠ path.text := by
  intro h
  have hchars := congrArg (fun s => s.toList.head?) h
  obtain ⟨c, cs, hname⟩ : ∃ c cs, name.toList = c :: cs :=
    List.exists_cons_of_ne_nil (by simpa using plain.1)
  have hbracket : c ≠ '[' := (plain.2 c (by simp [hname])).2
  simp only [toList_text_member, hname, List.cons_append, List.head?_cons,
    toList_text_other other] at hchars
  rcases path with _ | ⟨name' | position, rest'⟩
  · cases hchars
  · exact other ⟨name', rest', rfl⟩
  · exact hbracket (Option.some.inj hchars)

/-- **Plain paths with the same text are the same.** -/
theorem text_injective {path path' : Path} (plain : path.Plain) (plain' : path'.Plain)
    (h : path.text = path'.text) : path = path' := by
  refine flatMap_stepText_injective plain plain' ?_
  by_cases hpath : ∃ name rest, path = .member name :: rest
  · obtain ⟨name, rest, rfl⟩ := hpath
    by_cases hpath' : ∃ name rest, path' = .member name :: rest
    · obtain ⟨name', rest', rfl⟩ := hpath'
      have htext := congrArg String.toList h
      rw [toList_text_member, toList_text_member] at htext
      rw [List.flatMap_cons, List.flatMap_cons, stepText, stepText, List.cons_append,
        List.cons_append, htext]
    · exact absurd h (text_member_ne (plain _ (List.mem_cons_self ..)) rest hpath')
  · by_cases hpath' : ∃ name rest, path' = .member name :: rest
    · obtain ⟨name', rest', rfl⟩ := hpath'
      exact absurd h.symm (text_member_ne (plain' _ (List.mem_cons_self ..)) rest' hpath)
    · rw [← toList_text_other hpath, ← toList_text_other hpath', h]

end Path

end CartoStyle
