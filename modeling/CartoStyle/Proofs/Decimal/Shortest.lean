import CartoStyle.Decimal.Binary64
import CartoStyle.Proofs.Decimal.Value
import Mathlib.Tactic.GCongr
import Mathlib.Tactic.Linarith
import Mathlib.Tactic.FieldSimp
import Mathlib.Tactic.Positivity

set_option autoImplicit false

/-! # The shortest decimal of a float

The shortest decimal of a float lies in the interval that rounds to it (`Binary64.holds_shortest`):
seventeen digits are enough to find one. The intervals of two floats have no number in common
(`Binary64.eq_of_holds`), so floats are told apart by their shortest decimals
(`Binary64.shortest_injective`). -/

namespace CartoStyle

namespace Binary64

/-! ## Intervals of rationals -/

namespace Span

variable (s : Span)

/-- The lower end of an interval. -/
def lower : ℚ := s.low / s.denominator

/-- The upper end of an interval. -/
def upper : ℚ := s.high / s.denominator

/-- Whether a number lies in an interval. -/
def Holds (q : ℚ) : Prop :=
  if s.closed then s.lower ≤ q ∧ q ≤ s.upper else s.lower < q ∧ q < s.upper

variable {s}

theorem Holds.lower_le {q : ℚ} (h : s.Holds q) : s.lower ≤ q := by
  unfold Holds at h
  split at h
  · exact h.1
  · exact h.1.le

theorem Holds.le_upper {q : ℚ} (h : s.Holds q) : q ≤ s.upper := by
  unfold Holds at h
  split at h
  · exact h.2
  · exact h.2.le

/-- An interval that holds one of its ends is closed. -/
theorem Holds.closed_of_eq_end {q : ℚ} (h : s.Holds q) (hend : q = s.lower ∨ q = s.upper) :
    s.closed := by
  by_contra hopen
  rw [Holds, if_neg hopen] at h
  rcases hend with rfl | rfl
  · exact lt_irrefl _ h.1
  · exact lt_irrefl _ h.2

theorem contains_iff_holds (hden : 0 < s.denominator) {n : Nat} : s.Contains n ↔ s.Holds n := by
  have hden' : (0 : ℚ) < s.denominator := by exact_mod_cast hden
  rw [Contains, Holds, lower, upper]
  split
  · rw [div_le_iff₀ hden', le_div_iff₀ hden']
    norm_cast
  · rw [div_lt_iff₀ hden', lt_div_iff₀ hden']
    norm_cast

/-! ## Other units -/

theorem cast_div_inUnits (n : Nat) (k : ℤ) :
    ((n * 10 ^ (-k).toNat : Nat) : ℚ) / (s.denominator * 10 ^ k.toNat : Nat) * 10 ^ k =
      n / s.denominator := by
  rw [zpow_eq_div]
  push_cast
  field_simp

theorem lower_inUnits (k : ℤ) : (s.inUnits k).lower * 10 ^ k = s.lower := cast_div_inUnits s.low k

theorem upper_inUnits (k : ℤ) : (s.inUnits k).upper * 10 ^ k = s.upper := cast_div_inUnits s.high k

theorem holds_inUnits_iff {k : ℤ} {q : ℚ} : (s.inUnits k).Holds q ↔ s.Holds (q * 10 ^ k) := by
  have hunit : (0 : ℚ) < 10 ^ k := by positivity
  have hclosed : (s.inUnits k).closed = s.closed := rfl
  rw [Holds, Holds, hclosed, ← lower_inUnits (s := s) k,
    ← upper_inUnits (s := s) k,
    mul_le_mul_iff_of_pos_right hunit, mul_le_mul_iff_of_pos_right hunit,
    mul_lt_mul_iff_of_pos_right hunit, mul_lt_mul_iff_of_pos_right hunit]

/-! ## The whole number nearest to the middle -/

variable {tie : Tie}

theorem contains_of_nearest? {n : Nat} (h : s.nearest? tie = some n) : s.Contains n := by
  unfold nearest? at h
  dsimp only at h
  split at h
  · next hfirst =>
    split at h
    · next hnext =>
      obtain rfl := Option.some.inj h
      exact hnext.1
    · obtain rfl := Option.some.inj h
      exact hfirst
  · split at h
    · next hnext =>
      obtain rfl := Option.some.inj h
      exact hnext
    · simp at h

/-- An interval that reaches more than half a unit to either side holds a whole number. -/
theorem exists_nearest? (hden : 0 < s.denominator) (hlow : s.denominator < 2 * (s.mid - s.low))
    (hhigh : s.denominator < 2 * (s.high - s.mid)) : ∃ n, s.nearest? tie = some n := by
  have hnear : s.Contains (s.mid / s.denominator) ∨ s.Contains (s.mid / s.denominator + 1) := by
    have hmid := Nat.div_add_mod' s.mid s.denominator
    have hrest := Nat.mod_lt s.mid hden
    unfold Contains
    rw [Nat.add_mul, Nat.one_mul]
    generalize s.mid / s.denominator * s.denominator = below at hmid
    -- The nearer neighbour is at most half a unit away.
    by_cases hhalf : 2 * (s.mid % s.denominator) ≤ s.denominator
    · left
      split <;> omega
    · right
      split <;> omega
  unfold nearest?
  dsimp only
  split
  · split
    · exact ⟨_, rfl⟩
    · exact ⟨_, rfl⟩
  · next hfirst =>
    rw [if_pos (hnear.resolve_left hfirst)]
    exact ⟨_, rfl⟩

/-! ## The leading digit -/

/-- The leading digit of the middle does not stand higher than the middle itself. -/
theorem pow_leading_le (hmid : 0 < s.mid) (hden : 0 < s.denominator) :
    (10 : ℚ) ^ s.leading ≤ s.mid / s.denominator := by
  have hden' : (0 : ℚ) < s.denominator := by exact_mod_cast hden
  rw [le_div_iff₀ hden', leading]
  split
  · next hle =>
    have hpos := Nat.div_pos hle hden
    have hlength := Decimal.length_pos (s.mid / s.denominator)
    have hpow : 10 ^ (Decimal.length (s.mid / s.denominator) - 1) * s.denominator ≤ s.mid :=
      (Nat.mul_le_mul_right _ (Decimal.pow_length_le hpos)).trans (Nat.div_mul_le_self ..)
    rw [show (Decimal.length (s.mid / s.denominator) : ℤ) - 1 =
      (Decimal.length (s.mid / s.denominator) - 1 : Nat) by omega, zpow_natCast]
    exact_mod_cast hpow
  · next hlt =>
    dsimp only
    have hbound : ∀ k : Nat, s.denominator ≤ s.mid * 10 ^ k →
        (10 : ℚ) ^ (-(k : ℤ)) * s.denominator ≤ s.mid := by
      intro k hk
      rw [zpow_neg, zpow_natCast, inv_mul_le_iff₀ (by positivity), mul_comm]
      exact_mod_cast hk
    split
    · next hk => exact hbound _ hk
    · -- One place more is enough, as the denominator has at least as many digits as the middle.
      have hmore : s.denominator ≤
          s.mid * 10 ^ (Decimal.length s.denominator - Decimal.length s.mid + 1) := by
        have hlength := Decimal.length_pos s.mid
        calc s.denominator ≤ 10 ^ Decimal.length s.denominator := (Decimal.lt_pow_length _).le
          _ ≤ 10 ^ (Decimal.length s.mid - 1 +
                (Decimal.length s.denominator - Decimal.length s.mid + 1)) :=
              Nat.pow_le_pow_right (by decide) (by omega)
          _ ≤ _ := by
              rw [Nat.pow_add]
              exact Nat.mul_le_mul_right _ (Decimal.pow_length_le hmid)
      have h := hbound _ hmore
      rwa [Nat.cast_add, Nat.cast_one, neg_add] at h

/-- How far an interval reaches, measured by its middle, does not depend on the unit. -/
theorem mid_le_reach_inUnits {a b : Nat} (k : ℤ) (h : s.mid ≤ 2 ^ 54 * (a - b)) :
    (s.inUnits k).mid ≤ 2 ^ 54 * (a * 10 ^ (-k).toNat - b * 10 ^ (-k).toNat) := by
  rw [← Nat.sub_mul, ← Nat.mul_assoc]
  exact Nat.mul_le_mul_right _ h

/-- Sixteen places below its leading digit, the middle is at least `10 ^ 16` units. -/
theorem le_mid_inUnits (hmid : 0 < s.mid) (hden : 0 < s.denominator) :
    10 ^ 16 * (s.inUnits (s.leading - 16)).denominator ≤ (s.inUnits (s.leading - 16)).mid := by
  have hunit : (0 : ℚ) < 10 ^ (s.leading - 16) := by positivity
  have hden' : (0 : ℚ) < (s.inUnits (s.leading - 16)).denominator := by
    exact_mod_cast Nat.mul_pos hden (Nat.pow_pos (by decide))
  have hsplit : (10 : ℚ) ^ s.leading = 10 ^ 16 * 10 ^ (s.leading - 16) := by
    rw [← zpow_natCast, ← zpow_add₀ (by norm_num)]
    congr 1
    omega
  have hmiddle : ((s.inUnits (s.leading - 16)).mid : ℚ) /
      (s.inUnits (s.leading - 16)).denominator * 10 ^ (s.leading - 16) = s.mid / s.denominator :=
    cast_div_inUnits s.mid _
  have hpow := pow_leading_le hmid hden
  rw [hsplit, ← hmiddle, mul_le_mul_iff_of_pos_right hunit, le_div_iff₀ hden'] at hpow
  exact_mod_cast hpow

/-- **Seventeen digits are enough** for an interval that reaches far enough around its middle. -/
theorem exists_nearest?_inUnits (hmid : 0 < s.mid) (hden : 0 < s.denominator)
    (hlow : s.mid ≤ 2 ^ 54 * (s.mid - s.low)) (hhigh : s.mid ≤ 2 ^ 54 * (s.high - s.mid)) :
    ∃ n, (s.inUnits (s.leading - 16)).nearest? tie = some n := by
  -- The middle is `10 ^ 16` units or more, so the interval reaches more than half a unit.
  have hunits := le_mid_inUnits hmid hden
  have hden' : 0 < (s.inUnits (s.leading - 16)).denominator :=
    Nat.mul_pos hden (Nat.pow_pos (by decide))
  have hlow' : (s.inUnits (s.leading - 16)).mid ≤
      2 ^ 54 * ((s.inUnits (s.leading - 16)).mid - (s.inUnits (s.leading - 16)).low) :=
    mid_le_reach_inUnits _ hlow
  have hhigh' : (s.inUnits (s.leading - 16)).mid ≤
      2 ^ 54 * ((s.inUnits (s.leading - 16)).high - (s.inUnits (s.leading - 16)).mid) :=
    mid_le_reach_inUnits _ hhigh
  exact exists_nearest? hden' (by omega) (by omega)

end Span

/-! ## Canonical form -/

/-- Whether the significand is as long as it may be, or the exponent is the least. -/
structure Canonical (b : Binary64) : Prop where
  significand_lt : b.significand < 2 ^ 53
  leastExponent_le : leastExponent ≤ b.exponent
  normal : leastExponent < b.exponent → 2 ^ 52 ≤ b.significand

theorem canonical_of_ofFloat? {x : Float} {b : Binary64} (h : ofFloat? x = some b) :
    b.Canonical := by
  have hfraction := Nat.mod_lt x.toBits.toNat (show 0 < 2 ^ 52 by decide)
  unfold ofFloat? at h
  dsimp only at h
  split at h
  · simp at h
  split at h
  · obtain rfl := Option.some.inj h
    exact ⟨by dsimp only; omega, le_refl _, fun hlt => absurd hlt (lt_irrefl _)⟩
  · obtain rfl := Option.some.inj h
    exact ⟨by dsimp only; omega, by dsimp only; omega, fun _ => Nat.le_add_left ..⟩

/-- A finite float is determined by its sign, its significand and its exponent. -/
theorem ofFloat?_inj {x y : Float} {b : Binary64} (hx : ofFloat? x = some b)
    (hy : ofFloat? y = some b) : x = y := by
  have hbits : x.toBits.toNat = y.toBits.toNat := by
    have hlt := x.toBits.toNat_lt
    have hlt' := y.toBits.toNat_lt
    unfold ofFloat? at hx hy
    dsimp only at hx hy
    split at hx
    · simp at hx
    split at hy
    · simp at hy
    split at hx <;> split at hy <;> obtain rfl := Option.some.inj hx <;>
      simp only [Option.some.injEq, Binary64.mk.injEq, decide_eq_decide] at hy <;> omega
  rcases x with ⟨⟨bits, _⟩⟩
  rcases y with ⟨⟨bits', _⟩⟩
  obtain rfl := UInt64.toNat_inj.1 hbits
  rfl

/-! ## The shortest decimal -/

/-- How far the interval reaches below a float, in quarters of the last place. -/
def below (b : Binary64) : Nat :=
  if b.significand = 2 ^ 52 ∧ leastExponent < b.exponent then 1 else 2

theorem below_cases (b : Binary64) :
    b.below = 1 ∧ b.significand = 2 ^ 52 ∨
      b.below = 2 ∧ ¬(b.significand = 2 ^ 52 ∧ leastExponent < b.exponent) := by
  unfold below
  split
  · next h => exact Or.inl ⟨rfl, h.1⟩
  · next h => exact Or.inr ⟨rfl, h⟩

section Shortest

variable {b : Binary64} (hb : b.Canonical) (hpos : 0 < b.significand)

include hb hpos

theorem mid_span_le_low : b.span.mid ≤ 2 ^ 54 * (b.span.mid - b.span.low) := by
  have hlt := hb.significand_lt
  have hquarters : 4 * b.significand ≤
      2 ^ 54 * (4 * b.significand - (4 * b.significand - b.below)) := by
    rcases b.below_cases with ⟨h, hpower⟩ | ⟨h, -⟩ <;> omega
  have hscaled := Nat.mul_le_mul_right (2 ^ (b.exponent - 2).toNat) hquarters
  rw [Nat.mul_assoc (2 ^ 54), Nat.sub_mul] at hscaled
  exact hscaled

theorem mid_span_le_high : b.span.mid ≤ 2 ^ 54 * (b.span.high - b.span.mid) := by
  have hlt := hb.significand_lt
  have hquarters : 4 * b.significand ≤ 2 ^ 54 * (4 * b.significand + 2 - 4 * b.significand) := by
    omega
  have hscaled := Nat.mul_le_mul_right (2 ^ (b.exponent - 2).toNat) hquarters
  rw [Nat.mul_assoc (2 ^ 54), Nat.sub_mul] at hscaled
  exact hscaled

/-- **The shortest decimal rounds to the float.** -/
theorem holds_shortest (tie : Tie) : b.span.Holds (b.shortest tie).value := by
  have hden : 0 < b.span.denominator := Nat.two_pow_pos _
  have hmid : 0 < b.span.mid := Nat.mul_pos (by omega) (Nat.two_pow_pos _)
  obtain ⟨m, hm⟩ : ∃ m, (b.span.inUnits (b.span.leading - 16)).nearest? tie = some m :=
    Span.exists_nearest?_inUnits hmid hden (mid_span_le_low hb hpos) (mid_span_le_high hb hpos)
  unfold shortest
  rw [if_neg (Nat.ne_of_gt hpos)]
  dsimp only
  split
  · next d hd =>
    obtain ⟨k, -, hk⟩ := List.exists_of_findSome?_eq_some hd
    obtain ⟨n, hn, rfl⟩ := Option.map_eq_some_iff.1 hk
    have hcontains := Span.contains_of_nearest? hn
    rw [Span.contains_iff_holds (Nat.mul_pos hden (by positivity)), Span.holds_inUnits_iff]
      at hcontains
    rw [Decimal.value_trim]
    exact hcontains
  · next hnone =>
    -- The finest grid has a number in the interval.
    have hfinest := List.findSome?_eq_none_iff.1 hnone (b.span.leading - 16)
      (List.mem_map.2 ⟨16, by decide, rfl⟩)
    simp [hm] at hfinest

end Shortest

/-! ## Intervals of two floats -/

theorem lower_span (b : Binary64) :
    b.span.lower = (4 * b.significand - b.below : Nat) * 2 ^ (b.exponent - 2) := by
  rw [Span.lower, zpow_eq_div, ← mul_div_assoc]
  simp [span, below]

theorem upper_span (b : Binary64) :
    b.span.upper = (4 * b.significand + 2 : Nat) * 2 ^ (b.exponent - 2) := by
  rw [Span.upper, zpow_eq_div, ← mul_div_assoc]
  simp [span]

/-- Whether a float is less than another, as exponents and significands tell. -/
def Before (b c : Binary64) : Prop :=
  b.exponent < c.exponent ∨ b.exponent = c.exponent ∧ b.significand < c.significand

section Before

variable {b c : Binary64} (hb : b.Canonical) (hc : c.Canonical) (h : b.Before c)

include hb hc h

/-- The intervals of two floats touch at most, and then one of the significands is odd. -/
theorem quarters_le_of_before :
    4 * b.significand + 2 ≤
        (4 * c.significand - c.below) * 2 ^ (c.exponent - b.exponent).toNat ∧
      (4 * b.significand + 2 =
          (4 * c.significand - c.below) * 2 ^ (c.exponent - b.exponent).toNat →
        b.significand % 2 = 1 ∨ c.significand % 2 = 1) := by
  have hlt := hb.significand_lt
  rcases h with hexponent | ⟨hexponent, hsignificand⟩
  · -- The last place of the greater float is at least twice as large, and its significand is long.
    have hnormal := hc.normal (lt_of_le_of_lt hb.leastExponent_le hexponent)
    obtain ⟨t, ht⟩ : ∃ t, (c.exponent - b.exponent).toNat = t + 1 :=
      ⟨(c.exponent - b.exponent).toNat - 1, by omega⟩
    have hpow : 1 ≤ 2 ^ t := Nat.one_le_two_pow
    have hscale : 2 * (4 * c.significand - c.below) ≤
        (4 * c.significand - c.below) * 2 ^ (t + 1) := by
      rw [Nat.pow_succ, Nat.mul_comm 2, ← Nat.mul_assoc, Nat.mul_right_comm]
      exact Nat.le_mul_of_pos_right _ hpow
    have hleast := lt_of_le_of_lt hb.leastExponent_le hexponent
    rw [ht]
    rcases c.below_cases with ⟨hbelow, hpower⟩ | ⟨hbelow, hmore⟩
    · rw [hbelow] at hscale ⊢
      omega
    · have hne : c.significand ≠ 2 ^ 52 := fun he => hmore ⟨he, hleast⟩
      rw [hbelow] at hscale ⊢
      omega
  · have hbelow : c.below ≤ 2 := by
      rcases c.below_cases with ⟨hbelow, -⟩ | ⟨hbelow, -⟩ <;> omega
    rw [hexponent, Int.sub_self, Int.toNat_zero, Nat.pow_zero, Nat.mul_one]
    omega

/-- **No number rounds to two floats.** -/
theorem not_holds_of_before {q : ℚ} (hq : b.span.Holds q) : ¬c.span.Holds q := by
  intro hq'
  obtain ⟨hle, hodd⟩ := quarters_le_of_before hb hc h
  have hunit : (0 : ℚ) < 2 ^ (b.exponent - 2) := by positivity
  have hlower : c.span.lower =
      ((4 * c.significand - c.below) * 2 ^ (c.exponent - b.exponent).toNat : Nat) *
        2 ^ (b.exponent - 2) := by
    have hle : b.exponent ≤ c.exponent := by
      rcases h with h | ⟨h, -⟩ <;> omega
    have hpow : (2 : ℚ) ^ (c.exponent - 2) =
        2 ^ (c.exponent - b.exponent).toNat * 2 ^ (b.exponent - 2) := by
      rw [← zpow_natCast, ← zpow_add₀ (by norm_num)]
      congr 1
      omega
    rw [lower_span, hpow]
    push_cast
    ring
  have hends : b.span.upper ≤ c.span.lower := by
    rw [upper_span, hlower, mul_le_mul_iff_of_pos_right hunit]
    exact_mod_cast hle
  -- The number is where the intervals touch, so both are closed.
  have heq : b.span.upper = c.span.lower :=
    le_antisymm hends (hq'.lower_le.trans hq.le_upper)
  have hclosed := hq.closed_of_eq_end
    (Or.inr (le_antisymm hq.le_upper (hends.trans hq'.lower_le)))
  have hclosed' := hq'.closed_of_eq_end
    (Or.inl (le_antisymm (hq.le_upper.trans hends) hq'.lower_le))
  rw [upper_span, hlower, mul_left_inj' hunit.ne'] at heq
  have hsome := hodd (by exact_mod_cast heq)
  simp only [span, beq_iff_eq] at hclosed hclosed'
  omega

end Before

/-- Floats that a number rounds to have the same magnitude. -/
theorem eq_of_holds {b c : Binary64} (hb : b.Canonical) (hc : c.Canonical) {q : ℚ}
    (hq : b.span.Holds q) (hq' : c.span.Holds q) :
    b.significand = c.significand ∧ b.exponent = c.exponent := by
  have hbefore : ¬b.Before c := fun h => not_holds_of_before hb hc h hq hq'
  have hafter : ¬c.Before b := fun h => not_holds_of_before hc hb h hq' hq
  unfold Before at hbefore hafter
  omega

/-! ## Floats of one decimal -/

theorem value_shortest_pos {b : Binary64} (hb : b.Canonical) (hpos : 0 < b.significand)
    (tie : Tie) : 0 < (b.shortest tie).value := by
  have hlower : 0 < b.span.lower := by
    have hbelow : 0 < 4 * b.significand - b.below := by
      rcases b.below_cases with ⟨hbelow, -⟩ | ⟨hbelow, -⟩ <;> omega
    rw [lower_span]
    positivity
  exact lt_of_lt_of_le hlower (holds_shortest hb hpos tie).lower_le

/-- **Floats are told apart by their shortest decimals,** up to the sign. -/
theorem shortest_injective {b c : Binary64} (hb : b.Canonical) (hc : c.Canonical) {tie : Tie}
    (h : (b.shortest tie).value = (c.shortest tie).value) :
    b.significand = c.significand ∧ b.exponent = c.exponent := by
  have hzero : ∀ {b : Binary64}, b.significand = 0 → (b.shortest tie).value = 0 := by
    intro b hb
    rw [shortest, if_pos hb]
    simp [Decimal.value]
  have hleast : ∀ {b : Binary64}, b.Canonical → b.significand = 0 → b.exponent = leastExponent := by
    intro b hb hzero
    have := hb.leastExponent_le
    have := hb.normal
    omega
  rcases Nat.eq_zero_or_pos b.significand with hb0 | hbpos
  · rcases Nat.eq_zero_or_pos c.significand with hc0 | hcpos
    · exact ⟨hb0.trans hc0.symm, (hleast hb hb0).trans (hleast hc hc0).symm⟩
    · have hpos := value_shortest_pos hc hcpos tie
      rw [← h, hzero hb0] at hpos
      exact absurd hpos (lt_irrefl _)
  · rcases Nat.eq_zero_or_pos c.significand with hc0 | hcpos
    · have hpos := value_shortest_pos hb hbpos tie
      rw [h, hzero hc0] at hpos
      exact absurd hpos (lt_irrefl _)
    · exact eq_of_holds hb hc (holds_shortest hb hbpos tie) (h ▸ holds_shortest hc hcpos tie)

end Binary64

end CartoStyle
