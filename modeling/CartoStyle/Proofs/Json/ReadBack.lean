import CartoStyle.Json.Reader
import CartoStyle.Proofs.Json.Members
import CartoStyle.Proofs.Json.ReadNumeral

set_option autoImplicit false

/-! # Values that are read back

The text of a value on one line is read as that value again (`Json.parse_compact_iff`), as long as its
floats are what their digits denote and its arrays and objects nest no deeper than the reader goes. The
loops over items and members are treated once, for any reader of elements that reads the text of each
element back whatever ends it (`Json.readEnclosed_sequence`). -/

namespace CartoStyle

namespace Json

/-! ## Where a part begins -/

/-- Whether a text begins with neither a blank nor what ends a value. -/
def Begins (part : List Char) : Prop :=
  ∃ c rest, part = c :: rest ∧ isBlank c = false ∧ isStop c = false

theorem skipBlanks_of_begins {part : List Char} (h : Begins part) (rest : List Char) :
    skipBlanks (part ++ rest) = part ++ rest := by
  obtain ⟨c, more, rfl, hblank, -⟩ := h
  rw [List.cons_append, skipBlanks, if_neg (by simp [hblank])]

theorem skipBlanks_of_isStop {c : Char} (h : isStop c) (rest : List Char) :
    skipBlanks (c :: rest) = c :: rest := by
  rcases eq_of_isStop h with rfl | rfl | rfl <;> rfl

theorem begins_cons {c : Char} (hblank : isBlank c = false) (hstop : isStop c = false)
    (rest : List Char) : Begins (c :: rest) :=
  ⟨c, rest, rfl, hblank, hstop⟩

theorem begins_quoted (s : String) (rest : List Char) : Begins (quoted s ++ rest) :=
  begins_cons (by decide) (by decide) _

theorem isBlank_of_isNumberChar {c : Char} (h : isNumberChar c) : isBlank c = false := by
  by_contra hblank
  simp only [isBlank, Bool.not_eq_false, Bool.or_eq_true, beq_iff_eq, or_assoc] at hblank
  rcases hblank with rfl | rfl | rfl | rfl <;> exact absurd h (by decide)

theorem begins_chars (value : Json) : Begins value.chars := by
  cases value with
  | null => exact begins_cons (by decide) (by decide) _
  | bool b => cases b <;> exact begins_cons (by decide) (by decide) _
  | number n =>
    obtain ⟨c, rest, hchars⟩ := List.exists_cons_of_ne_nil n.numberWord_render.nonempty
    have hc := n.numberWord_render.all c (by simp [hchars])
    exact ⟨c, rest, hchars, isBlank_of_isNumberChar hc, isStop_eq_false (isPlain_of_isNumberChar hc)⟩
  | string s => exact begins_cons (by decide) (by decide) _
  | array items => exact begins_cons (by decide) (by decide) _
  | object members => exact begins_cons (by decide) (by decide) _

/-! ## Arrays and objects -/

section Elements

variable {α : Type} {element : Reader α} (shrinks : Shrinks element) {brackets : Brackets}

/-- The last element is followed by the closing bracket. -/
theorem readElements_last {done : List α} {a : α} {text between rest : List Char}
    (hread : element text = .ok (a, between))
    (hseparator : readSeparator brackets between = .ok (false, rest)) :
    readElements shrinks brackets done text = .ok ((a :: done).reverse, rest) := by
  rw [readElements]
  split
  · next h => simp [hread] at h
  · next h =>
    obtain ⟨rfl, rfl⟩ := Prod.mk.inj (Except.ok.inj (hread.symm.trans h))
    rw [hseparator]

/-- Every other element is followed by a comma and the next one. -/
theorem readElements_more {done : List α} {a : α} {text between rest : List Char}
    (hread : element text = .ok (a, between))
    (hseparator : readSeparator brackets between = .ok (true, rest)) :
    readElements shrinks brackets done text =
      readElements shrinks brackets (a :: done) rest := by
  rw [readElements]
  split
  · next h => simp [hread] at h
  · next h =>
    obtain ⟨rfl, rfl⟩ := Prod.mk.inj (Except.ok.inj (hread.symm.trans h))
    rw [hseparator]

variable (hclose : isStop brackets.close)

include hclose

theorem readSeparator_close (hcomma : brackets.close ≠ ',') (rest : List Char) :
    readSeparator brackets (brackets.close :: rest) = .ok (false, rest) := by
  rw [readSeparator, skipBlanks_of_isStop hclose]
  split
  · next heq => simp at heq
  · next heq => exact absurd (List.cons.inj heq).1 hcomma
  · next heq =>
    obtain ⟨rfl, rfl⟩ := List.cons.inj heq
    rw [if_pos rfl]

theorem ne_close_of_begins {c : Char} {part : List Char} (h : Begins (c :: part)) :
    c ≠ brackets.close := by
  obtain ⟨_, _, heq, -, hstop⟩ := h
  obtain ⟨rfl, -⟩ := List.cons.inj heq
  rintro rfl
  rw [hclose] at hstop
  exact absurd hstop (by decide)

theorem readSeparator_comma {part : List Char} (h : Begins part) (rest : List Char) :
    readSeparator brackets (',' :: (part ++ rest)) = .ok (true, part ++ rest) := by
  have hskip := skipBlanks_of_begins h rest
  cases part with
  | nil => obtain ⟨_, _, heq, -⟩ := h; simp at heq
  | cons c more =>
    rw [List.cons_append] at hskip ⊢
    simp only [readSeparator, skipBlanks_of_isStop (show isStop ',' by decide), hskip,
      if_neg (ne_close_of_begins hclose h)]

variable (hcomma : brackets.close ≠ ',') {text : α → List Char}

include hcomma

/-- Elements that are read back one by one are read back in a row. -/
theorem readElements_continued {done as : List α} {a : α} {rest : List Char}
    (hread : ∀ b ∈ a :: as, ∀ more, Ends more → element (text b ++ more) = .ok (b, more))
    (hbegins : ∀ b ∈ as, Begins (text b)) :
    readElements shrinks brackets done
        (text a ++ (continued brackets.close (as.map text) ++ rest)) =
      .ok (done.reverse ++ a :: as, rest) := by
  have hfirst := hread a (List.mem_cons_self ..) _
    (ends_continued hclose (as.map text) rest)
  induction as generalizing done a with
  | nil =>
    rw [readElements_last shrinks hfirst (readSeparator_close hclose hcomma rest)]
    simp
  | cons b as ih =>
    obtain ⟨hb, hbegins⟩ := List.forall_mem_cons.1 hbegins
    have hrest := fun c hc => hread c (List.mem_cons_of_mem _ hc)
    have hseparator := readSeparator_comma hclose hb (continued brackets.close (as.map text) ++ rest)
    have hcontinued : continued brackets.close ((b :: as).map text) ++ rest =
        ',' :: (text b ++ (continued brackets.close (as.map text) ++ rest)) := by
      simp [continued]
    rw [hcontinued] at hfirst ⊢
    rw [readElements_more shrinks hfirst hseparator, ih hrest hbegins
      (hrest b (List.mem_cons_self ..) _ (ends_continued hclose (as.map text) rest))]
    simp

/-- **What is written between brackets is read back,** when its elements are. -/
theorem readEnclosed_sequence {as : List α} {rest : List Char}
    (hread : ∀ a ∈ as, ∀ more, Ends more → element (text a ++ more) = .ok (a, more))
    (hbegins : ∀ a ∈ as, Begins (text a)) :
    readEnclosed shrinks brackets (sequence brackets.close (as.map text) ++ rest) =
      .ok (as, rest) := by
  cases as with
  | nil =>
    show readEnclosed shrinks brackets (brackets.close :: rest) = _
    rw [readEnclosed, skipBlanks_of_isStop hclose]
    simp
  | cons a as =>
    obtain ⟨ha, has⟩ := List.forall_mem_cons.1 hbegins
    have helements : readElements shrinks brackets []
        (text a ++ (continued brackets.close (as.map text) ++ rest)) = .ok (a :: as, rest) :=
      readElements_continued shrinks hclose hcomma hread has
    rw [List.map_cons, sequence, List.append_assoc, readEnclosed, skipBlanks_of_begins ha]
    cases htext : text a with
    | nil => obtain ⟨_, _, heq, -⟩ := ha; simp [htext] at heq
    | cons c more =>
      rw [htext] at ha helements
      rw [List.cons_append] at helements ⊢
      dsimp only
      rw [if_neg (ne_close_of_begins hclose ha), helements]

end Elements

/-- A member is read back when its value is. -/
theorem readMember_memberPart {reader : Reader Json} {member : String × Json} {rest : List Char}
    (h : reader (member.2.chars ++ rest) = .ok (member.2, rest)) :
    readMember reader (memberPart member ++ rest) = .ok (member, rest) := by
  have hkey := readString_quoted member.1 (':' :: (member.2.chars ++ rest))
  have hquoted : memberPart member ++ rest =
      '"' :: ((quoted member.1).tail ++ ':' :: (member.2.chars ++ rest)) := by
    simp [memberPart, quoted]
  rw [hquoted, readMember, hkey]
  show (reader (member.2.chars ++ rest) >>= _) = _
  rw [h]
  rfl

/-! ## Depth -/

theorem depthItems_le_iff {items : List Json} {n : Nat} :
    depthItems items ≤ n ↔ ∀ item ∈ items, item.depth ≤ n := by
  induction items with
  | nil => simp [depthItems]
  | cons item rest ih => rw [depthItems, Nat.max_le, ih, List.forall_mem_cons]

theorem depthMembers_le_iff {members : List (String × Json)} {n : Nat} :
    depthMembers members ≤ n ↔ ∀ member ∈ members, member.2.depth ≤ n := by
  induction members with
  | nil => simp [depthMembers]
  | cons member rest ih => rw [depthMembers, Nat.max_le, ih, List.forall_mem_cons]

/-! ## Floats -/

mutual

/-- The floats of a value, in document order. -/
def floats : Json → List Float
  | .number (.float x) => [x]
  | .array items => floatsItems items
  | .object members => floatsMembers members
  | _ => []

/-- The floats of a list of items. -/
def floatsItems : List Json → List Float
  | [] => []
  | item :: rest => item.floats ++ floatsItems rest

/-- The floats of a list of members. -/
def floatsMembers : List (String × Json) → List Float
  | [] => []
  | (_, value) :: rest => value.floats ++ floatsMembers rest

end

theorem mem_floatsItems {items : List Json} {item : Json} (hm : item ∈ items) {x : Float}
    (hx : x ∈ item.floats) : x ∈ floatsItems items := by
  induction items with
  | nil => simp at hm
  | cons first rest ih =>
    rw [floatsItems, List.mem_append]
    rcases List.mem_cons.1 hm with rfl | hm
    · exact Or.inl hx
    · exact Or.inr (ih hm)

theorem mem_floatsMembers {members : List (String × Json)} {key : String} {value : Json}
    (hm : (key, value) ∈ members) {x : Float} (hx : x ∈ value.floats) :
    x ∈ floatsMembers members := by
  induction members with
  | nil => simp at hm
  | cons first rest ih =>
    obtain ⟨k, v⟩ := first
    rw [floatsMembers, List.mem_append]
    rcases List.mem_cons.1 hm with he | hm
    · obtain ⟨-, rfl⟩ := Prod.mk.inj he
      exact Or.inl hx
    · exact Or.inr (ih hm)

/-! ## Values -/

/-- A text that begins with a digit is read as a number. -/
theorem readValue_digit {c : Char} (hc : c.isDigit) (inner : Option ValueReader)
    (rest : List Char) :
    readValue inner (c :: rest) = do
      let (n, rest) ← readMagnitude false (c :: rest)
      return (.number n, rest) := by
  have hblank := isBlank_of_isNumberChar (isNumberChar_of_isDigit hc)
  have hskip : skipBlanks (c :: rest) = c :: rest := by
    rw [skipBlanks, if_neg (by simp [hblank])]
  rw [readValue, hskip]
  split
  case h_9 heq =>
    obtain ⟨rfl, rfl⟩ := List.cons.inj heq
    rw [if_pos hc]
  case h_1 heq => simp at heq
  -- No other character that a value begins with is a digit.
  all_goals
    next heq =>
      obtain ⟨rfl, -⟩ := List.cons.inj heq
      exact absurd hc (by decide)

/-- A number that its numeral denotes is read back. -/
theorem readValue_number {n : Number} (h : n.ReadsBack) (inner : Option ValueReader)
    {rest : List Char} (hrest : Ends rest) :
    readValue inner (n.render.toList ++ rest) = .ok (.number n, rest) := by
  obtain ⟨numeral, hnumeral, hvalue⟩ := Option.bind_eq_some_iff.1 h
  have hwf := Number.wellFormed_of_numeral? hnumeral
  have hread := readMagnitude_unsigned hwf hvalue hrest
  rw [Number.toList_render hnumeral, Numeral.text]
  cases hnegative : numeral.negative with
  | true =>
    rw [hnegative] at hread
    show (readMagnitude true (numeral.unsigned ++ rest) >>= _) = _
    rw [hread]
    rfl
  | false =>
    obtain ⟨c, more, hunsigned, hc⟩ := hwf.exists_unsigned_eq_cons
    rw [hnegative, hunsigned, List.cons_append] at hread
    rw [if_neg (by simp), hunsigned, List.cons_append, readValue_digit hc, hread]
    rfl

theorem readValue_string (s : String) (inner : Option ValueReader) (rest : List Char) :
    readValue inner (quoted s ++ rest) = .ok (.string s, rest) := by
  show (readString "" ((quoted s).tail ++ rest) >>= _) = _
  rw [readString_quoted]
  rfl

/-- Readers of values differ in what they allow inside arrays and objects only. -/
theorem exists_valueReader_eq (depth : Nat) : ∃ inner, (valueReader depth).1 = readValue inner := by
  cases depth with
  | zero => exact ⟨none, rfl⟩
  | succ depth => exact ⟨some (valueReader depth), rfl⟩

/-- **A value is read back,** whatever ends it, by a reader that goes as deep as it does. -/
theorem valueReader_chars {value : Json} (wf : value.WellFormed)
    (hfloats : ∀ x ∈ value.floats, (Number.float x).ReadsBack) {depth : Nat}
    (hdepth : value.depth ≤ depth) {rest : List Char} (hrest : Ends rest) :
    (valueReader depth).1 (value.chars ++ rest) = .ok (value, rest) := by
  obtain ⟨inner, hinner⟩ := exists_valueReader_eq depth
  induction value using tree_induction generalizing depth inner rest with
  | null => rw [hinner]; rfl
  | bool b => rw [hinner]; cases b <;> rfl
  | number n =>
    have hn : n.ReadsBack := by
      cases n with
      | integer n => exact Number.readsBack_integer wf
      | float x => exact hfloats x (List.mem_singleton.2 rfl)
    rw [hinner]
    exact readValue_number hn inner hrest
  | string s =>
    rw [hinner]
    exact readValue_string s inner rest
  | array items ih =>
    cases depth with
    | zero => simp [Json.depth] at hdepth
    | succ depth =>
      have hitems := depthItems_le_iff.1 (Nat.le_of_succ_le_succ hdepth)
      obtain ⟨inner', hinner'⟩ := exists_valueReader_eq depth
      have hread : ∀ item ∈ items, ∀ more, Ends more →
          (valueReader depth).1 (item.chars ++ more) = .ok (item, more) := by
        intro item hm more hmore
        exact ih item hm (wf.item hm) (fun x hx => hfloats x (mem_floatsItems hm hx))
          (hitems item hm) hmore inner' hinner'
      have henclosed : readEnclosed (valueReader depth).2 arrayBrackets
          (sequence arrayBrackets.close (items.map chars) ++ rest) = .ok (items, rest) :=
        readEnclosed_sequence _ (by decide) (by decide) hread fun item _ => begins_chars item
      rw [chars, itemParts_eq_map]
      show (readEnclosed (valueReader depth).2 arrayBrackets
        (sequence arrayBrackets.close (items.map chars) ++ rest) >>= _) = _
      rw [henclosed]
      rfl
  | object members ih =>
    cases depth with
    | zero => simp [Json.depth] at hdepth
    | succ depth =>
      have hmembers := depthMembers_le_iff.1 (Nat.le_of_succ_le_succ hdepth)
      obtain ⟨inner', hinner'⟩ := exists_valueReader_eq depth
      have hread : ∀ member ∈ members, ∀ more, Ends more →
          readMember (valueReader depth).1 (memberPart member ++ more) = .ok (member, more) := by
        intro member hm more hmore
        exact readMember_memberPart (ih member.1 member.2 hm (wf.member hm)
          (fun x hx => hfloats x (mem_floatsMembers hm hx)) (hmembers member hm) hmore inner'
          hinner')
      have henclosed : readEnclosed (shrinks_readMember (valueReader depth).2) objectBrackets
          (sequence objectBrackets.close (members.map memberPart) ++ rest) = .ok (members, rest) :=
        readEnclosed_sequence _ (by decide) (by decide) hread fun member _ => begins_quoted _ _
      rw [chars, memberParts_eq_map]
      show (readEnclosed (shrinks_readMember (valueReader depth).2) objectBrackets
        (sequence objectBrackets.close (members.map memberPart) ++ rest) >>= _) = _
      rw [henclosed]
      show Except.ok (Json.object (Members.ofEntries members), rest) = _
      rw [Members.ofEntries_eq_self wf.keys_nodup]

/-! ## How deep a text may nest -/

/-- What holds of everything that is read as an element holds of all elements that are read. -/
theorem forall_of_readElements {α : Type} {element : Reader α} (shrinks : Shrinks element)
    {brackets : Brackets} {P : α → Prop} (hread : ∀ text a rest, element text = .ok (a, rest) → P a)
    {done as : List α} (hdone : ∀ a ∈ done, P a) {text rest : List Char}
    (h : readElements shrinks brackets done text = .ok (as, rest)) : ∀ a ∈ as, P a := by
  fun_induction readElements shrinks brackets done text with
  | case1 => simp at h
  | case2 => simp at h
  | case3 done text a rest₁ h₁ rest₂ h₂ =>
    obtain ⟨rfl, -⟩ := Prod.mk.inj (Except.ok.inj h)
    intro b hb
    rcases List.mem_cons.1 (List.mem_reverse.1 hb) with rfl | hb
    · exact hread _ _ _ h₁
    · exact hdone b hb
  | case4 done text a rest₁ h₁ rest₂ h₂ ih =>
    refine ih (fun b hb => ?_) h
    rcases List.mem_cons.1 hb with rfl | hb
    · exact hread _ _ _ h₁
    · exact hdone b hb

theorem forall_of_readEnclosed {α : Type} {element : Reader α} (shrinks : Shrinks element)
    {brackets : Brackets} {P : α → Prop} (hread : ∀ text a rest, element text = .ok (a, rest) → P a)
    {as : List α} {text rest : List Char}
    (h : readEnclosed shrinks brackets text = .ok (as, rest)) : ∀ a ∈ as, P a := by
  unfold readEnclosed at h
  split at h
  · simp at h
  · split at h
    · obtain ⟨rfl, -⟩ := Prod.mk.inj (Except.ok.inj h)
      simp
    · exact forall_of_readElements shrinks hread (by simp) h

/-- The value of a member is read by the reader of values. -/
theorem exists_of_readMember {value : Reader Json} {member : String × Json} {text rest : List Char}
    (h : readMember value text = .ok (member, rest)) :
    ∃ text' rest', value text' = .ok (member.2, rest') := by
  unfold readMember at h
  split at h
  · obtain ⟨⟨key, rest₁⟩, h₁, h⟩ := bind_eq_ok.1 h
    dsimp only at h
    split at h
    · exact absurd h (by simp [throw, throwThe, MonadExceptOf.throw])
    · obtain ⟨⟨v, rest₃⟩, h₃, h⟩ := bind_eq_ok.1 h
      obtain ⟨rfl, -⟩ := Prod.mk.inj (Except.ok.inj h)
      exact ⟨_, _, h₃⟩
    · exact absurd h (by simp [throw, throwThe, MonadExceptOf.throw])
  · simp at h

/-- What is read nests one level deeper than what is read inside it. -/
theorem depth_le_of_readValue {inner : Option ValueReader} {depth : Nat}
    (hinner : ∀ reader ∈ inner, ∃ below, below + 1 = depth ∧ ∀ text value rest,
      reader.1 text = .ok (value, rest) → value.depth ≤ below)
    {text rest : List Char} {value : Json} (h : readValue inner text = .ok (value, rest)) :
    value.depth ≤ depth := by
  unfold readValue at h
  split at h
  case h_1 => simp at h
  case h_7 =>
    split at h
    · simp at h
    · next reader =>
      obtain ⟨⟨items, rest'⟩, h', h⟩ := bind_eq_ok.1 h
      obtain ⟨rfl, -⟩ := Prod.mk.inj (Except.ok.inj h)
      obtain ⟨below, rfl, hread⟩ := hinner reader rfl
      exact Nat.succ_le_succ (depthItems_le_iff.2 (forall_of_readEnclosed reader.2 hread h'))
  case h_8 =>
    split at h
    · simp at h
    · next reader =>
      obtain ⟨⟨entries, rest'⟩, h', h⟩ := bind_eq_ok.1 h
      obtain ⟨rfl, -⟩ := Prod.mk.inj (Except.ok.inj h)
      obtain ⟨below, rfl, hread⟩ := hinner reader rfl
      have hentries : ∀ entry ∈ entries, entry.2.depth ≤ below := by
        refine forall_of_readEnclosed (shrinks_readMember reader.2) ?_ h'
        intro text entry rest hentry
        obtain ⟨text', rest', hvalue⟩ := exists_of_readMember hentry
        exact hread text' entry.2 rest' hvalue
      refine Nat.succ_le_succ (depthMembers_le_iff.2 fun member hm => ?_)
      exact hentries member (Members.mem_of_mem_ofEntries hm)
  case h_9 =>
    split at h
    · obtain ⟨⟨n, rest'⟩, -, h⟩ := bind_eq_ok.1 h
      obtain ⟨rfl, -⟩ := Prod.mk.inj (Except.ok.inj h)
      exact Nat.zero_le _
    · simp at h
  all_goals
    obtain ⟨_, -, h⟩ := bind_eq_ok.1 h
    obtain ⟨rfl, -⟩ := Prod.mk.inj (Except.ok.inj h)
    exact Nat.zero_le _

/-- **What is read nests no deeper than the reader goes.** -/
theorem depth_le_of_valueReader {depth : Nat} {text rest : List Char} {value : Json}
    (h : (valueReader depth).1 text = .ok (value, rest)) : value.depth ≤ depth := by
  induction depth generalizing text rest value with
  | zero =>
    change readValue none text = _ at h
    exact depth_le_of_readValue (by simp) h
  | succ depth ih =>
    change readValue (some (valueReader depth)) text = _ at h
    refine depth_le_of_readValue ?_ h
    rintro _ ⟨⟩
    exact ⟨depth, rfl, fun _ _ _ hinner => ih hinner⟩

/-! ## Texts -/

/-- A value that was read from a text nests no deeper than texts may. -/
theorem depth_le_of_parse {text : String} {value : Json} (h : parse text = .ok value) :
    value.depth ≤ maxNesting := by
  rw [parse] at h
  cases hread : readText text.toList with
  | error stop => simp [hread, Except.mapError] at h
  | ok v =>
    rw [hread] at h
    obtain rfl := Except.ok.inj h
    obtain ⟨⟨v', rest⟩, hvalue, hend⟩ := bind_eq_ok.1 hread
    obtain ⟨_, -, hv⟩ := bind_eq_ok.1 hend
    obtain rfl := Except.ok.inj hv
    exact depth_le_of_valueReader hvalue

/-- **The text of a value is read as that value** just when it nests no deeper than texts may. -/
theorem parse_compact_iff {value : Json} (wf : value.WellFormed)
    (hfloats : ∀ x ∈ value.floats, (Number.float x).ReadsBack) :
    parse value.compact = .ok value ↔ value.depth ≤ maxNesting := by
  constructor
  · exact depth_le_of_parse
  · intro hdepth
    have hread := valueReader_chars wf hfloats hdepth ends_nil
    rw [List.append_nil] at hread
    have htext : readText value.chars = .ok value := by
      rw [readText, hread]
      rfl
    rw [parse, toList_compact, htext]
    rfl

end Json

end CartoStyle
