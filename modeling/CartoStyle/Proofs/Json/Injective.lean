import CartoStyle.Proofs.Decimal.Shortest
import CartoStyle.Proofs.Json.EqualText
import CartoStyle.Proofs.Json.ReadBack

set_option autoImplicit false

/-! # Values told apart by their text

A value with finite floats is determined by its text (`Json.compact_injective`), member order, floats
and all: a whole number is not written as a float is, and floats are told apart by their shortest
decimals. Floats that are not finite are all written as the same word. -/

namespace CartoStyle

/-! ## Numbers -/

namespace Decimal

/-- A float is written with a fraction or an exponent. -/
theorem isWhole_numeral (d : Decimal) (negative : Bool) : (d.numeral negative).isWhole = false := by
  unfold numeral
  dsimp only
  split
  · split <;> rfl
  · simp [Json.Numeral.isWhole]

end Decimal

namespace Number

theorem integer_eq_of_numeral?_eq {n m : Int} (h : (integer n).numeral? = (integer m).numeral?) :
    n = m := by
  obtain ⟨hsign, hdigits, -, -⟩ := Json.Numeral.mk.inj (Option.some.inj h)
  have hmagnitude := congrArg Json.digitsValue hdigits
  rw [Json.digitsValue_toDigits, Json.digitsValue_toDigits] at hmagnitude
  rw [decide_eq_decide] at hsign
  omega

theorem float_eq_of_numeral?_eq {x y : Float} {numeral : Json.Numeral}
    (hx : (float x).numeral? = some numeral) (hy : (float y).numeral? = some numeral) : x = y := by
  obtain ⟨b, hb, rfl⟩ := Option.map_eq_some_iff.1 hx
  obtain ⟨c, hc, hnumeral⟩ := Option.map_eq_some_iff.1 hy
  have hnegative : c.negative = b.negative := by
    have h := congrArg Json.Numeral.negative hnumeral
    rwa [Decimal.negative_numeral, Decimal.negative_numeral] at h
  have hvalue : (c.shortest .toEven).value = (b.shortest .toEven).value := by
    have h := congrArg (fun numeral => numeral.magnitude.value) hnumeral
    rwa [Decimal.value_magnitude_numeral, Decimal.value_magnitude_numeral] at h
  obtain ⟨hsignificand, hexponent⟩ := Binary64.shortest_injective
    (Binary64.canonical_of_ofFloat? hc) (Binary64.canonical_of_ofFloat? hb) hvalue
  obtain rfl : c = b := by
    cases c
    cases b
    simp_all
  exact Binary64.ofFloat?_inj hb hc

/-- Whole numbers are written without fraction and exponent, floats are not. -/
theorem isWhole_of_numeral? {n : Number} {numeral : Json.Numeral} (h : n.numeral? = some numeral) :
    numeral.isWhole = true ↔ ∃ value, n = integer value := by
  cases n with
  | integer n =>
    obtain rfl := Option.some.inj h
    simp [Json.Numeral.isWhole]
  | float x =>
    obtain ⟨b, -, rfl⟩ := Option.map_eq_some_iff.1 h
    simp [Decimal.isWhole_numeral]

/-- **Numbers are told apart by their text,** whole numbers also from floats. -/
theorem render_injective {a b : Number} (ha : a.numeral?.isSome) (hb : b.numeral?.isSome)
    (h : a.render = b.render) : a = b := by
  obtain ⟨numeral, ha⟩ := Option.isSome_iff_exists.1 ha
  obtain ⟨other, hb⟩ := Option.isSome_iff_exists.1 hb
  have htext : numeral.text = other.text := by
    rw [← toList_render ha, ← toList_render hb, h]
  obtain rfl := (wellFormed_of_numeral? ha).eq_of_text_eq (wellFormed_of_numeral? hb) htext
  have hwhole := (isWhole_of_numeral? ha).symm.trans (isWhole_of_numeral? hb)
  cases a with
  | integer n =>
    obtain ⟨m, rfl⟩ := hwhole.1 ⟨n, rfl⟩
    rw [integer_eq_of_numeral?_eq (ha.trans hb.symm)]
  | float x =>
    cases b with
    | integer m => simpa using hwhole.2 ⟨m, rfl⟩
    | float y => rw [float_eq_of_numeral?_eq ha hb]

end Number

namespace Json

/-! ## Finite floats -/

/-- Whether every float of a value is finite: there are no numerals for other floats. -/
def FiniteFloats (value : Json) : Prop := ∀ x ∈ value.floats, (Number.float x).numeral?.isSome

instance (value : Json) : Decidable value.FiniteFloats :=
  inferInstanceAs (Decidable (∀ x ∈ value.floats, _))

theorem finiteFloats_array_iff {items : List Json} :
    (Json.array items).FiniteFloats ↔ ∀ item ∈ items, item.FiniteFloats := by
  constructor
  · exact fun h item hm x hx => h x (mem_floatsItems hm hx)
  · intro h
    show ∀ x ∈ floatsItems items, _
    induction items with
    | nil => simp [floatsItems]
    | cons item rest ih =>
      obtain ⟨hitem, hrest⟩ := List.forall_mem_cons.1 h
      intro x hx
      rw [floatsItems, List.mem_append] at hx
      exact hx.elim (hitem x) (ih hrest x)

theorem finiteFloats_object_iff {members : List (String × Json)} :
    (Json.object members).FiniteFloats ↔ ∀ member ∈ members, member.2.FiniteFloats := by
  constructor
  · exact fun h member hm x hx => h x (mem_floatsMembers hm hx)
  · intro h
    show ∀ x ∈ floatsMembers members, _
    induction members with
    | nil => simp [floatsMembers]
    | cons member rest ih =>
      obtain ⟨hmember, hrest⟩ := List.forall_mem_cons.1 h
      intro x hx
      rw [floatsMembers, List.mem_append] at hx
      exact hx.elim (hmember x) (ih hrest x)

namespace FiniteFloats

theorem number {n : Number} (h : (Json.number n).FiniteFloats) : n.numeral?.isSome := by
  cases n with
  | integer n => rfl
  | float x => exact h x (List.mem_singleton.2 rfl)

theorem item {items : List Json} (h : (Json.array items).FiniteFloats) {item : Json}
    (hm : item ∈ items) : item.FiniteFloats :=
  finiteFloats_array_iff.1 h item hm

theorem member {members : List (String × Json)} (h : (Json.object members).FiniteFloats)
    {key : String} {value : Json} (hm : (key, value) ∈ members) : value.FiniteFloats :=
  finiteFloats_object_iff.1 h (key, value) hm

theorem erase {members : List (String × Json)} (h : (Json.object members).FiniteFloats)
    (key : String) : (Json.object (Members.erase key members)).FiniteFloats :=
  finiteFloats_object_iff.2 fun _ hm => h.member (List.mem_of_mem_filter hm)

end FiniteFloats

/-! ## Values -/

/-- The word for what is absent is no numeral. -/
theorem eq_null_of_compact_eq {value : Json} (hfinite : value.FiniteFloats)
    (h : value.compact = Json.null.compact) : value = .null := by
  have ho := opening_eq_of_compact_eq h
  have hchars : value.chars = "null".toList := compact_inj.1 h
  cases value with
  | null => rfl
  | bool b => cases b <;> simp [chars] at hchars
  | number n =>
    obtain ⟨numeral, hn⟩ := Option.isSome_iff_exists.1 hfinite.number
    obtain ⟨c, rest, hunsigned, hc⟩ := (Number.wellFormed_of_numeral? hn).exists_unsigned_eq_cons
    rw [chars, Number.toList_render hn, Numeral.text, hunsigned] at hchars
    split at hchars
    · simp at hchars
    · obtain ⟨rfl, -⟩ := List.cons.inj hchars
      exact absurd hc (by decide)
  | _ => simp [opening] at ho

/-- **Values are told apart by their text,** when their floats are finite. -/
theorem compact_injective {a b : Json} (ha : a.FiniteFloats) (hb : b.FiniteFloats)
    (h : a.compact = b.compact) : a = b := by
  induction a using tree_induction generalizing b with
  | null => exact (eq_null_of_compact_eq hb h.symm).symm
  | bool value => exact (compact_eq_bool_iff.1 h.symm).symm
  | string s => exact (compact_eq_string_iff.1 h.symm).symm
  | number n =>
    have ho := opening_eq_of_compact_eq h
    cases b with
    | null => exact eq_null_of_compact_eq ha h
    | bool value => exact compact_eq_bool_iff.1 h
    | number m =>
      have hrender : n.render = m.render := String.toList_inj.1 (compact_inj.1 h)
      rw [Number.render_injective ha.number hb.number hrender]
    | _ => simp [opening] at ho
  | array items ih =>
    obtain ⟨others, rfl, hitems⟩ := compact_eq_array_iff.1 h.symm
    have hid := map_eq_map_of_imp (g := id)
      (fun item hm other hm' heq => ih item hm (ha.item hm) (hb.item hm') heq) hitems.symm
    rw [List.map_id, List.map_id] at hid
    rw [hid]
  | object members ih =>
    obtain ⟨others, rfl, htexts⟩ := compact_eq_object_iff.1 h.symm
    have hid : members.map id = others.map id := by
      refine map_eq_map_of_imp ?_ htexts.symm
      rintro ⟨key, value⟩ hm ⟨key', value'⟩ hm' heq
      obtain ⟨rfl, hcompact⟩ := Prod.mk.inj heq
      rw [ih key value hm (ha.member hm) (hb.member hm') hcompact]
    rw [List.map_id, List.map_id] at hid
    rw [hid]

end Json

end CartoStyle
