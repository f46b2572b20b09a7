import CartoStyle.Proofs.Json.NumberWord
import CartoStyle.Proofs.Json.Quote
import CartoStyle.Proofs.Json.Tree

set_option autoImplicit false

/-! # Compact text

The characters of a value on one line (`toList_compact`), and that where a value ends can be told
from them (`apart_chars`): before the end of a text, a comma or a closing bracket, no value is the
beginning of another one. Numerals only have to be words without the characters that set values
apart. -/

namespace CartoStyle

namespace Json

/-! ## The characters of a value -/

/-- Parts after the first, each behind a comma, and the closing bracket. -/
def continued (close : Char) : List (List Char) → List Char
  | [] => [close]
  | part :: rest => ',' :: (part ++ continued close rest)

/-- Parts with commas between them, and the closing bracket. -/
def sequence (close : Char) : List (List Char) → List Char
  | [] => [close]
  | part :: rest => part ++ continued close rest

mutual

/-- The characters of the text of a value. -/
def chars : Json → List Char
  | .null => "null".toList
  | .bool b => (if b then "true" else "false").toList
  | .number n => n.render.toList
  | .string s => quoted s
  | .array items => '[' :: sequence ']' (itemParts items)
  | .object members => '\x7b' :: sequence '\x7d' (memberParts members)

/-- The characters of each item. -/
def itemParts : List Json → List (List Char)
  | [] => []
  | item :: rest => item.chars :: itemParts rest

/-- The characters of each member. -/
def memberParts : List (String × Json) → List (List Char)
  | [] => []
  | (key, value) :: rest => (quoted key ++ ':' :: value.chars) :: memberParts rest

end

theorem itemParts_eq_map (items : List Json) : itemParts items = items.map chars := by
  induction items with
  | nil => rfl
  | cons item rest ih => rw [itemParts, ih, List.map_cons]

/-- The text of a member. -/
def memberPart (member : String × Json) : List Char := quoted member.1 ++ ':' :: member.2.chars

theorem memberParts_eq_map (members : List (String × Json)) :
    memberParts members = members.map memberPart := by
  induction members with
  | nil => rfl
  | cons member rest ih => rw [memberParts, ih, List.map_cons, memberPart]

mutual

theorem toList_renderOnto (level : Nat) (written : String) (value : Json) :
    (value.renderOnto .compact level written).toList = written.toList ++ value.chars := by
  match value with
  | .null => simp [renderOnto, chars]
  | .bool b => simp [renderOnto, chars]
  | .number n => simp [renderOnto, chars]
  | .string s => rw [renderOnto, toList_quoteOnto, chars]
  | .array [] => simp [renderOnto, chars, itemParts, sequence]
  | .array (item :: rest) =>
    rw [renderOnto, toList_renderItems, toList_renderOnto]
    simp [Spacing.lineBreak, chars, itemParts, sequence]
  | .object [] => simp [renderOnto, chars, memberParts, sequence]
  | .object ((key, value) :: rest) =>
    rw [renderOnto, toList_renderMembers, toList_renderOnto, String.toList_append, toList_quoteOnto]
    simp [Spacing.lineBreak, Spacing.colon, chars, memberParts, sequence]

theorem toList_renderItems (level : Nat) (written : String) (items : List Json) :
    (renderItems .compact level written items).toList =
      written.toList ++ continued ']' (itemParts items) := by
  match items with
  | [] => simp [renderItems, Spacing.lineBreak, itemParts, continued]
  | item :: rest =>
    rw [renderItems, toList_renderItems, toList_renderOnto]
    simp [Spacing.lineBreak, itemParts, continued]

theorem toList_renderMembers (level : Nat) (written : String) (members : List (String × Json)) :
    (renderMembers .compact level written members).toList =
      written.toList ++ continued '\x7d' (memberParts members) := by
  match members with
  | [] => simp [renderMembers, Spacing.lineBreak, memberParts, continued]
  | (key, value) :: rest =>
    rw [renderMembers, toList_renderMembers, toList_renderOnto, String.toList_append,
      toList_quoteOnto]
    simp [Spacing.lineBreak, Spacing.colon, memberParts, continued]

end

theorem toList_compact (value : Json) : value.compact.toList = value.chars := by
  rw [compact, toList_renderOnto, String.toList_empty, List.nil_append]

theorem compact_inj {a b : Json} : a.compact = b.compact ↔ a.chars = b.chars := by
  rw [← String.toList_inj, toList_compact, toList_compact]

/-! ## Where a value ends -/

/-- Whether a character ends the value before it. -/
def isStop (c : Char) : Bool := [',', ']', '\x7d'].contains c

/-- Whether a character neither ends a value nor opens a string, an array or an object. -/
def isPlain (c : Char) : Bool := !(isStop c || ['"', '[', '\x7b'].contains c)

theorem isStop_eq_false {c : Char} (h : isPlain c) : isStop c = false := by
  rw [isPlain, Bool.not_eq_true', Bool.or_eq_false_iff] at h
  exact h.1

theorem isPlain_of_isNumberChar {c : Char} (h : isNumberChar c) : isPlain c := by
  by_contra hnot
  have hmem : c ∈ [',', ']', '\x7d', '"', '[', '\x7b'] := by
    by_contra hc
    simp only [List.mem_cons, List.not_mem_nil, or_false, not_or] at hc
    simp [isPlain, isStop, hc] at hnot
  simp only [List.mem_cons, List.not_mem_nil, or_false] at hmem
  rcases hmem with rfl | rfl | rfl | rfl | rfl | rfl <;> exact absurd h (by decide)

/-- Whether a text is at its end or goes on with what ends a value. -/
def Ends (rest : List Char) : Prop := ∀ c ∈ rest.head?, isStop c

theorem ends_nil : Ends [] := by simp [Ends]

theorem ends_cons {c : Char} (h : isStop c) (rest : List Char) : Ends (c :: rest) := by
  simpa [Ends] using h

theorem ends_of_append {part rest more : List Char} {c : Char} (hc : isStop c)
    (h : part ++ rest = c :: more) : Ends part := by
  cases part with
  | nil => exact ends_nil
  | cons d part' =>
    obtain ⟨rfl, -⟩ := List.cons.inj h
    exact ends_cons hc part'

/-- Whether two texts before the end of a value are told apart by what they are. -/
def Apart (part other : List Char) : Prop :=
  ∀ rest rest', Ends rest → Ends rest' → part ++ rest = other ++ rest' →
    part = other ∧ rest = rest'

theorem apart_of_plain {part other : List Char} (hpart : ∀ c ∈ part, isPlain c)
    (hother : ∀ c ∈ other, isPlain c) : Apart part other := by
  have hstop : ∀ {c : Char}, isPlain c → ¬isStop c := by
    intro c hc
    simp [isStop_eq_false hc]
  induction part generalizing other with
  | nil =>
    intro rest rest' hrest _ h
    cases other with
    | nil => exact ⟨rfl, h⟩
    | cons d other' =>
      -- One word is at its end and the other goes on: what follows would start with a plain letter.
      obtain rfl : rest = d :: (other' ++ rest') := h
      exact absurd (hrest d rfl) (hstop (hother d (List.mem_cons_self ..)))
  | cons c part' ih =>
    intro rest rest' hrest hrest' h
    cases other with
    | nil =>
      obtain rfl : c :: (part' ++ rest) = rest' := h
      exact absurd (hrest' c rfl) (hstop (hpart c (List.mem_cons_self ..)))
    | cons d other' =>
      obtain ⟨rfl, htail⟩ := List.cons.inj h
      obtain ⟨hparts, hrests⟩ := ih (fun c hc => hpart c (List.mem_cons_of_mem _ hc))
        (fun c hc => hother c (List.mem_cons_of_mem _ hc)) rest rest' hrest hrest' htail
      exact ⟨by rw [hparts], hrests⟩

theorem ends_continued {close : Char} (hclose : isStop close) (parts : List (List Char))
    (rest : List Char) : Ends (continued close parts ++ rest) := by
  cases parts with
  | nil => exact ends_cons hclose rest
  | cons part parts => exact ends_cons (by decide) _

theorem continued_append_inj {close : Char} (hclose : isStop close) (hcomma : close ≠ ',')
    {as bs : List (List Char)} (apart : ∀ a ∈ as, ∀ b ∈ bs, Apart a b) {rest rest' : List Char}
    (h : continued close as ++ rest = continued close bs ++ rest') : as = bs ∧ rest = rest' := by
  induction as generalizing bs with
  | nil =>
    cases bs with
    | nil => exact ⟨rfl, (List.cons.inj h).2⟩
    | cons b bs => exact absurd (List.cons.inj h).1 hcomma
  | cons a as ih =>
    cases bs with
    | nil => exact absurd (List.cons.inj h).1.symm hcomma
    | cons b bs =>
      have htail : a ++ (continued close as ++ rest) = b ++ (continued close bs ++ rest') := by
        simpa [continued] using h
      obtain ⟨rfl, hrest⟩ := apart a (List.mem_cons_self ..) b (List.mem_cons_self ..) _ _
        (ends_continued hclose as rest) (ends_continued hclose bs rest') htail
      obtain ⟨rfl, hrests⟩ := ih (fun x hx y hy =>
        apart x (List.mem_cons_of_mem _ hx) y (List.mem_cons_of_mem _ hy)) hrest
      exact ⟨rfl, hrests⟩

/-- Parts that are told apart, and do not look like the end of a sequence, are told apart in a
    sequence. -/
theorem sequence_append_inj {close : Char} (hclose : isStop close) (hcomma : close ≠ ',')
    {as bs : List (List Char)} (apart : ∀ a ∈ as, ∀ b ∈ bs, Apart a b)
    (hopen : ∀ a, a ∈ as ∨ a ∈ bs → ¬Ends a) {rest rest' : List Char}
    (h : sequence close as ++ rest = sequence close bs ++ rest') : as = bs ∧ rest = rest' := by
  cases as with
  | nil =>
    cases bs with
    | nil => exact ⟨rfl, (List.cons.inj h).2⟩
    | cons b bs =>
      rw [sequence, sequence, List.append_assoc] at h
      exact absurd (ends_of_append hclose h.symm) (hopen b (by simp))
  | cons a as =>
    cases bs with
    | nil =>
      rw [sequence, sequence, List.append_assoc] at h
      exact absurd (ends_of_append hclose h) (hopen a (by simp))
    | cons b bs =>
      rw [sequence, sequence, List.append_assoc, List.append_assoc] at h
      obtain ⟨rfl, hrest⟩ := apart a (List.mem_cons_self ..) b (List.mem_cons_self ..) _ _
        (ends_continued hclose as rest) (ends_continued hclose bs rest') h
      obtain ⟨rfl, hrests⟩ := continued_append_inj hclose hcomma (fun x hx y hy =>
        apart x (List.mem_cons_of_mem _ hx) y (List.mem_cons_of_mem _ hy)) hrest
      exact ⟨rfl, hrests⟩

/-! ## The text of a value -/

/-- The character that opens a value, if it has one. -/
def opening : Json → Option Char
  | .string _ => some '"'
  | .array _ => some '['
  | .object _ => some '\x7b'
  | _ => none

theorem isPlain_of_mem_chars {value : Json} (h : value.opening = none) {c : Char}
    (hc : c ∈ value.chars) : isPlain c := by
  cases value with
  | null => exact (List.all_eq_true.1 (by decide) : ∀ c ∈ "null".toList, isPlain c) c hc
  | bool b =>
    cases b with
    | true => exact (List.all_eq_true.1 (by decide) : ∀ c ∈ "true".toList, isPlain c) c hc
    | false => exact (List.all_eq_true.1 (by decide) : ∀ c ∈ "false".toList, isPlain c) c hc
  | number n => exact isPlain_of_isNumberChar (n.numberWord_render.all c hc)
  | _ => simp [opening] at h

theorem chars_ne_nil (value : Json) : value.chars ≠ [] := by
  cases value with
  | bool b => cases b <;> decide
  | number n => exact n.numberWord_render.nonempty
  | _ => simp [chars, quoted]

/-- The first character of a value tells how it opens. -/
theorem exists_chars_eq_cons (value : Json) : ∃ c rest, value.chars = c :: rest ∧
    ¬isStop c ∧ value.opening = if isPlain c then none else some c := by
  cases ho : value.opening with
  | none =>
    obtain ⟨c, rest, hchars⟩ := List.exists_cons_of_ne_nil value.chars_ne_nil
    have hc : isPlain c := isPlain_of_mem_chars ho (by simp [hchars])
    exact ⟨c, rest, hchars, by simp [isStop_eq_false hc], by simp [hc]⟩
  | some c =>
    cases value with
    | string s =>
      obtain rfl : '"' = c := Option.some.inj ho
      exact ⟨_, _, rfl, by decide, by decide⟩
    | array items =>
      obtain rfl : '[' = c := Option.some.inj ho
      exact ⟨_, _, rfl, by decide, by decide⟩
    | object members =>
      obtain rfl : '\x7b' = c := Option.some.inj ho
      exact ⟨_, _, rfl, by decide, by decide⟩
    | _ => simp [opening] at ho

theorem not_ends_chars (value : Json) : ¬Ends value.chars := by
  obtain ⟨c, rest, hchars, hstop, -⟩ := value.exists_chars_eq_cons
  simp [Ends, hchars, hstop]

theorem opening_eq {a b : Json} {rest rest' : List Char}
    (h : a.chars ++ rest = b.chars ++ rest') : a.opening = b.opening := by
  obtain ⟨c, _, ha, -, hopena⟩ := a.exists_chars_eq_cons
  obtain ⟨d, _, hb, -, hopenb⟩ := b.exists_chars_eq_cons
  rw [ha, hb] at h
  obtain ⟨rfl, -⟩ := List.cons.inj h
  rw [hopena, hopenb]

theorem apart_member {key key' : String} {value value' : Json}
    (h : Apart value.chars value'.chars) :
    Apart (quoted key ++ ':' :: value.chars) (quoted key' ++ ':' :: value'.chars) := by
  intro rest rest' hrest hrest' heq
  rw [List.append_assoc, List.append_assoc] at heq
  obtain ⟨rfl, htail⟩ := quoted_append_inj heq
  obtain ⟨hvalue, hrests⟩ := h rest rest' hrest hrest' (List.cons.inj htail).2
  exact ⟨by rw [hvalue], hrests⟩

theorem not_ends_member (key : String) (value : Json) :
    ¬Ends (quoted key ++ ':' :: value.chars) := by
  simp [Ends, quoted, isStop]

theorem apart_of_opening_eq_none {a : Json} (ha : a.opening = none) (b : Json) :
    Apart a.chars b.chars := by
  intro rest rest' hrest hrest' h
  have hb : b.opening = none := (opening_eq h).symm.trans ha
  exact apart_of_plain (fun _ => isPlain_of_mem_chars ha) (fun _ => isPlain_of_mem_chars hb)
    rest rest' hrest hrest' h

theorem itemParts_append_inj {as bs : List Json}
    (apart : ∀ a ∈ as, ∀ b : Json, Apart a.chars b.chars) {rest rest' : List Char}
    (h : (Json.array as).chars ++ rest = (Json.array bs).chars ++ rest') :
    as.map chars = bs.map chars ∧ rest = rest' := by
  rw [chars, chars, itemParts_eq_map, itemParts_eq_map] at h
  refine sequence_append_inj (by decide) (by decide) ?_ ?_ (List.cons.inj h).2
  · rintro _ ha _ hb
    obtain ⟨a, ha', rfl⟩ := List.mem_map.1 ha
    obtain ⟨b, -, rfl⟩ := List.mem_map.1 hb
    exact apart a ha' b
  · rintro _ (hm | hm)
    all_goals
      obtain ⟨value, -, rfl⟩ := List.mem_map.1 hm
      exact not_ends_chars value

theorem memberParts_append_inj {as bs : List (String × Json)}
    (apart : ∀ key a, (key, a) ∈ as → ∀ b : Json, Apart a.chars b.chars)
    {rest rest' : List Char}
    (h : (Json.object as).chars ++ rest = (Json.object bs).chars ++ rest') :
    memberParts as = memberParts bs ∧ rest = rest' := by
  refine sequence_append_inj (by decide) (by decide) ?_ ?_ (List.cons.inj h).2
  · rintro _ ha _ hb
    rw [memberParts_eq_map] at ha hb
    obtain ⟨⟨key, a⟩, ha', rfl⟩ := List.mem_map.1 ha
    obtain ⟨⟨key', b⟩, -, rfl⟩ := List.mem_map.1 hb
    exact apart_member (apart key a ha' b)
  · rintro _ (hm | hm)
    all_goals
      rw [memberParts_eq_map] at hm
      obtain ⟨⟨key, value⟩, -, rfl⟩ := List.mem_map.1 hm
      exact not_ends_member key value

/-- **Where a value ends can be told from its text.** -/
theorem apart_chars (a b : Json) : Apart a.chars b.chars := by
  -- Values that open differently never start a common text, so `b` is of the kind of `a`.
  induction a using tree_induction generalizing b with
  | null => exact apart_of_opening_eq_none rfl b
  | bool value => exact apart_of_opening_eq_none rfl b
  | number n => exact apart_of_opening_eq_none rfl b
  | string s =>
    intro rest rest' _ _ h
    cases b with
    | string t =>
      obtain ⟨rfl, hrest⟩ := quoted_append_inj h
      exact ⟨rfl, hrest⟩
    | _ => exact absurd (opening_eq h) (by simp [opening])
  | array items ih =>
    intro rest rest' _ _ h
    cases b with
    | array others =>
      obtain ⟨hparts, hrest⟩ := itemParts_append_inj ih h
      exact ⟨by rw [chars, chars, itemParts_eq_map, itemParts_eq_map, hparts], hrest⟩
    | _ => exact absurd (opening_eq h) (by simp [opening])
  | object members ih =>
    intro rest rest' _ _ h
    cases b with
    | object others =>
      obtain ⟨hparts, hrest⟩ := memberParts_append_inj ih h
      exact ⟨by rw [chars, chars, hparts], hrest⟩
    | _ => exact absurd (opening_eq h) (by simp [opening])

end Json

end CartoStyle
