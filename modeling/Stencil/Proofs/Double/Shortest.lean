import Mathlib
import Stencil.Double.Shortest

/-! The shortest decimal of a double. A search that goes down the powers of ten, from one that is
above an interval, stops at the first one with a multiple in it. So what it finds lies in the
interval, and no multiple of the next power of ten does: no decimal there has fewer digits. -/

namespace Stencil

theorem two_pow_le_ten_pow {k e : ℕ} (h : 4004 * k ≤ 13301 * e) : 2 ^ k ≤ 10 ^ e := by
  refine (Nat.pow_le_pow_iff_left (show 13301 ≠ 0 by decide)).mp ?_
  calc (2 ^ k) ^ 13301 = (2 ^ 13301) ^ k := pow_right_comm ..
    _ ≤ (10 ^ 4004) ^ k := Nat.pow_le_pow_left (by decide +kernel) k
    _ = 10 ^ (4004 * k) := (pow_mul ..).symm
    _ ≤ 10 ^ (e * 13301) := Nat.pow_le_pow_right (by decide) (by omega)
    _ = (10 ^ e) ^ 13301 := pow_mul ..

theorem ten_pow_le_two_pow {e k : ℕ} (h : 28738 * e ≤ 8651 * k) : 10 ^ e ≤ 2 ^ k := by
  refine (Nat.pow_le_pow_iff_left (show 28738 ≠ 0 by decide)).mp ?_
  calc (10 ^ e) ^ 28738 = 10 ^ (e * 28738) := (pow_mul ..).symm
    _ ≤ 10 ^ (8651 * k) := Nat.pow_le_pow_right (by decide) (by omega)
    _ = (10 ^ 8651) ^ k := pow_mul ..
    _ ≤ (2 ^ 28738) ^ k := Nat.pow_le_pow_left (by decide +kernel) k
    _ = (2 ^ k) ^ 28738 := pow_right_comm ..

theorem two_zpow_le_ten_zpow {k e : ℤ} (hk : -2000 ≤ k) (h : 30103 * k < 100000 * e) :
    (2 : ℚ) ^ k ≤ 10 ^ e := by
  -- the logarithm of two to the base of ten is a little below 0.30103; for powers below one
  -- that makes the estimate too small, but not by as much as a hundred thousandth
  rcases le_or_gt 0 k with hpos | hneg
  · lift k to ℕ using hpos
    lift e to ℕ using by omega
    rw [zpow_natCast, zpow_natCast]
    exact_mod_cast two_pow_le_ten_pow (by omega)
  · rcases le_or_gt 0 e with hgrows | hshrinks
    · calc (2 : ℚ) ^ k ≤ 1 := zpow_le_one_of_nonpos₀ (by norm_num) hneg.le
        _ ≤ 10 ^ e := one_le_zpow₀ (by norm_num) hgrows
    · obtain ⟨m, rfl⟩ := Int.exists_eq_neg_ofNat hneg.le
      obtain ⟨n, rfl⟩ := Int.exists_eq_neg_ofNat hshrinks.le
      rw [zpow_neg, zpow_neg, zpow_natCast, zpow_natCast]
      exact inv_anti₀ (by positivity) (by exact_mod_cast ten_pow_le_two_pow (by omega))

def Decimal.value (d : Decimal) : ℚ :=
  d.digits * 10 ^ d.exponent

namespace Interval

def point (i : Interval) (count : ℕ) : ℚ :=
  count * 2 ^ i.scale

def Contains (i : Interval) (v : ℚ) : Prop :=
  if i.closed then i.point i.low ≤ v ∧ v ≤ i.point i.high
  else i.point i.low < v ∧ v < i.point i.high

/-- Whether the interval has no multiple of a power of ten. -/
def Misses (i : Interval) (e : ℤ) : Prop :=
  ∀ n : ℕ, ¬ i.Contains (n * 10 ^ e)

/-- Whether a decimal lies in the interval, and no decimal there has fewer digits. -/
structure Shortest (i : Interval) (d : Decimal) : Prop where
  inside : i.Contains d.value
  coarsest : i.Misses (d.exponent + 1)

/-- The intervals around the numbers of a format with at most fifty-three bits. -/
structure Around (i : Interval) : Prop where
  positive : 0 < i.low
  low_lt : i.low < i.middle
  lt_high : i.middle < i.high
  high_lt : i.high < 2 ^ 55
  least : -1076 ≤ i.scale
  greatest : i.scale ≤ 969

section
variable {i : Interval} {u v w : ℚ} {e : ℤ} {tie : Tie}

theorem point_lt_point {m n : ℕ} (h : m < n) : i.point m < i.point n :=
  mul_lt_mul_of_pos_right (by exact_mod_cast h) (by positivity)

theorem Contains.le (h : i.Contains v) : i.point i.low ≤ v ∧ v ≤ i.point i.high := by
  unfold Contains at h
  split at h
  · exact h
  · exact ⟨h.1.le, h.2.le⟩

theorem contains_of_lt (hlow : i.point i.low < v) (hhigh : v < i.point i.high) :
    i.Contains v := by
  unfold Contains
  split
  · exact ⟨hlow.le, hhigh.le⟩
  · exact ⟨hlow, hhigh⟩

theorem Contains.between (hu : i.Contains u) (hw : i.Contains w) (huv : u ≤ v) (hvw : v ≤ w) :
    i.Contains v := by
  unfold Contains at hu hw ⊢
  split at hu
  · next hclosed =>
    rw [if_pos hclosed] at hw ⊢
    exact ⟨hu.1.trans huv, hvw.trans hw.2⟩
  · next hopen =>
    rw [if_neg hopen] at hw ⊢
    exact ⟨hu.1.trans_le huv, hvw.trans_lt hw.2⟩

theorem Around.contains_middle (h : i.Around) : i.Contains (i.point i.middle) :=
  contains_of_lt (point_lt_point h.low_lt) (point_lt_point h.lt_high)

theorem Around.not_contains_zero (h : i.Around) : ¬ i.Contains 0 := by
  intro hzero
  have hlow : (0 : ℚ) < i.point i.low :=
    mul_pos (by exact_mod_cast h.positive) (by positivity)
  exact absurd hzero.le.1 hlow.not_ge

end

def unit (i : Interval) (e : ℤ) : ℕ :=
  Nat.pow 10 e.toNat <<< (-i.scale).toNat

def part (i : Interval) (e : ℤ) : ℕ :=
  Nat.pow 10 (-e).toNat <<< i.scale.toNat

theorem part_pos (i : Interval) (e : ℤ) : 0 < i.part e := by
  rw [part, Nat.shiftLeft_eq]
  exact Nat.mul_pos (Nat.pow_pos (by decide)) (Nat.pow_pos (by decide))

theorem unit_pos (i : Interval) (e : ℤ) : 0 < i.unit e := by
  rw [unit, Nat.shiftLeft_eq]
  exact Nat.mul_pos (Nat.pow_pos (by decide)) (Nat.pow_pos (by decide))

theorem unit_mul_two_zpow (i : Interval) (e : ℤ) :
    (i.unit e : ℚ) * 2 ^ i.scale = i.part e * 10 ^ e := by
  have hsplit (b : ℚ) (hb : b ≠ 0) (k : ℤ) : b ^ (-k).toNat * b ^ k = b ^ k.toNat := by
    rw [← zpow_natCast, ← zpow_natCast, ← zpow_add₀ hb]
    congr 1
    omega
  have htwo := hsplit 2 (by norm_num) i.scale
  have hten := hsplit 10 (by norm_num) e
  simp only [unit, part, Nat.shiftLeft_eq, Nat.pow_eq]
  push_cast
  rw [← htwo, ← hten]
  ring

section
variable {i : Interval} {e : ℤ} {m n : ℕ}

theorem point_mul_part (i : Interval) (e : ℤ) (m : ℕ) :
    i.point m * i.part e = ((m * i.part e : ℕ) : ℚ) * 2 ^ i.scale := by
  rw [point]
  push_cast
  ring

theorem multiple_mul_part (i : Interval) (e : ℤ) (n : ℕ) :
    (n : ℚ) * 10 ^ e * i.part e = ((n * i.unit e : ℕ) : ℚ) * 2 ^ i.scale := by
  push_cast
  rw [mul_assoc, mul_assoc, unit_mul_two_zpow, mul_comm ((10 : ℚ) ^ e)]

theorem point_le_iff : i.point m ≤ n * 10 ^ e ↔ m * i.part e ≤ n * i.unit e := by
  have hpart : (0 : ℚ) < i.part e := by exact_mod_cast i.part_pos e
  rw [← mul_le_mul_iff_left₀ hpart, point_mul_part, multiple_mul_part,
    mul_le_mul_iff_left₀ (by positivity), Nat.cast_le]

theorem le_point_iff : n * 10 ^ e ≤ i.point m ↔ n * i.unit e ≤ m * i.part e := by
  have hpart : (0 : ℚ) < i.part e := by exact_mod_cast i.part_pos e
  rw [← mul_le_mul_iff_left₀ hpart, point_mul_part, multiple_mul_part,
    mul_le_mul_iff_left₀ (by positivity), Nat.cast_le]

theorem point_lt_iff : i.point m < n * 10 ^ e ↔ m * i.part e < n * i.unit e := by
  rw [← not_le, ← not_le, le_point_iff]

theorem lt_point_iff : n * 10 ^ e < i.point m ↔ n * i.unit e < m * i.part e := by
  rw [← not_le, ← not_le, point_le_iff]

def below (i : Interval) (e : ℤ) : ℕ :=
  i.middle * i.part e / i.unit e

theorem below_le (i : Interval) (e : ℤ) : (i.below e : ℚ) * 10 ^ e ≤ i.point i.middle :=
  le_point_iff.mpr (Nat.div_mul_le_self ..)

theorem lt_above (i : Interval) (e : ℤ) : i.point i.middle < (i.below e + 1 : ℕ) * 10 ^ e :=
  point_lt_iff.mpr (Nat.lt_mul_of_div_lt (Nat.lt_succ_self _) (i.unit_pos e))

theorem Around.contains_below_iff (h : i.Around) : i.Contains (i.below e * 10 ^ e) ↔
    if i.closed then i.low * i.part e ≤ i.below e * i.unit e
    else i.low * i.part e < i.below e * i.unit e := by
  have hhigh : (i.below e : ℚ) * 10 ^ e < i.point i.high :=
    (i.below_le e).trans_lt (point_lt_point h.lt_high)
  unfold Contains
  split
  · rw [point_le_iff, and_iff_left hhigh.le]
  · rw [point_lt_iff, and_iff_left hhigh]

theorem Around.contains_above_iff (h : i.Around) : i.Contains ((i.below e + 1 : ℕ) * 10 ^ e) ↔
    if i.closed then (i.below e + 1) * i.unit e ≤ i.high * i.part e
    else (i.below e + 1) * i.unit e < i.high * i.part e := by
  have hlow : i.point i.low < (i.below e + 1 : ℕ) * 10 ^ e :=
    (point_lt_point h.low_lt).trans (i.lt_above e)
  unfold Contains
  split
  · rw [le_point_iff, and_iff_right hlow.le]
  · rw [lt_point_iff, and_iff_right hlow]

/-- Only the two multiples next to the middle need be looked at. -/
theorem Around.contains_multiple (h : i.Around) (hn : i.Contains (n * 10 ^ e)) :
    i.Contains (i.below e * 10 ^ e) ∨ i.Contains ((i.below e + 1 : ℕ) * 10 ^ e) := by
  have hmono {a b : ℕ} (hab : a ≤ b) : (a : ℚ) * 10 ^ e ≤ b * 10 ^ e :=
    mul_le_mul_of_nonneg_right (by exact_mod_cast hab) (by positivity)
  rcases le_or_gt n (i.below e) with hle | hlt
  · exact Or.inl (hn.between h.contains_middle (hmono hle) (i.below_le e))
  · exact Or.inr (h.contains_middle.between hn (i.lt_above e).le (hmono hlt))

theorem onGrid_cases (i : Interval) (tie : Tie) (e : ℤ) :
    let isBelowIn := if i.closed then i.low * i.part e ≤ i.below e * i.unit e
      else i.low * i.part e < i.below e * i.unit e
    let isAboveIn := if i.closed then (i.below e + 1) * i.unit e ≤ i.high * i.part e
      else (i.below e + 1) * i.unit e < i.high * i.part e
    isBelowIn ∧ i.onGrid tie e = some ⟨i.below e, e⟩ ∨
      isAboveIn ∧ i.onGrid tie e = some ⟨i.below e + 1, e⟩ ∨
      ¬ isBelowIn ∧ ¬ isAboveIn ∧ i.onGrid tie e = none := by
  have hpick {P Q R : Prop} [Decidable P] [Decidable Q] [Decidable R] (a b : Decimal) :
      let pick := if P ∧ (¬ Q ∨ R) then some a else if Q then some b else none
      P ∧ pick = some a ∨ Q ∧ pick = some b ∨ ¬ P ∧ ¬ Q ∧ pick = none := by
    by_cases hp : P <;> by_cases hq : Q <;> by_cases hr : R <;> simp [hp, hq, hr]
  exact hpick _ _

/-- A grid is searched for a multiple in the interval, and one is found if there is any. -/
theorem Around.onGrid_spec (h : i.Around) (tie : Tie) (e : ℤ) :
    (∃ d, i.onGrid tie e = some d ∧ d.exponent = e ∧ i.Contains d.value) ∨
      i.onGrid tie e = none ∧ i.Misses e := by
  rcases i.onGrid_cases tie e with ⟨hin, hgrid⟩ | ⟨hin, hgrid⟩ | ⟨hbelow, habove, hgrid⟩
  · exact Or.inl ⟨_, hgrid, rfl, h.contains_below_iff.mpr hin⟩
  · exact Or.inl ⟨_, hgrid, rfl, h.contains_above_iff.mpr hin⟩
  · refine Or.inr ⟨hgrid, fun n hn => ?_⟩
    rcases h.contains_multiple hn with hcontains | hcontains
    · exact hbelow (h.contains_below_iff.mp hcontains)
    · exact habove (h.contains_above_iff.mp hcontains)

end

section
variable {i : Interval} {d : Decimal} {e : ℤ} {tie : Tie} {steps : ℕ}

theorem Misses.of_le {e' : ℤ} (h : i.Misses e) (he : e ≤ e') : i.Misses e' := by
  -- every multiple of a power of ten is one of the powers below
  intro n hn
  obtain ⟨k, rfl⟩ := Int.le.dest he
  refine h (n * 10 ^ k) ?_
  rw [zpow_add₀ (by norm_num), zpow_natCast, mul_comm ((10 : ℚ) ^ e), ← mul_assoc] at hn
  exact_mod_cast hn

/-- The search goes down the grids until one is not missed. -/
theorem Around.firstOnGrids_cases (h : i.Around) (hmisses : i.Misses (e + 1)) :
    (∃ d, i.firstOnGrids tie e steps = some d ∧ i.Shortest d) ∨ i.Misses (e - steps + 1) := by
  induction steps generalizing e with
  | zero => exact Or.inr (by simpa using hmisses)
  | succ steps ih =>
    rw [firstOnGrids]
    rcases h.onGrid_spec tie e with ⟨d, hgrid, rfl, hinside⟩ | ⟨hgrid, hnone⟩
    · exact Or.inl ⟨d, by rw [hgrid]; rfl, hinside, hmisses⟩
    · rw [hgrid, Option.none_or]
      have hnext : i.Misses (e - 1 + 1) := by
        rwa [sub_add_cancel]
      have hsteps : e - 1 - steps + 1 = e - (steps + 1 : ℕ) + 1 := by
        push_cast
        ring
      rw [← hsteps]
      exact ih hnext

def start (i : Interval) : ℤ :=
  (i.high.log2 + i.scale + 1) * 30103 / 100000 + 1

theorem Around.log2_high_le (h : i.Around) : i.high.log2 ≤ 54 := by
  have hhigh : i.high ≠ 0 := (h.lt_high.trans_le' (Nat.zero_le _)).ne'
  exact Nat.lt_succ_iff.mp ((Nat.log2_lt hhigh).mpr h.high_lt)

theorem Around.misses_start (h : i.Around) : i.Misses i.start := by
  intro n hn
  have hlog := h.log2_high_le
  have hleast := h.least
  have hpow : (2 : ℚ) ^ (i.high.log2 + i.scale + 1) ≤ 10 ^ i.start :=
    two_zpow_le_ten_zpow (by omega) (by unfold start; omega)
  rcases Nat.eq_zero_or_pos n with rfl | hpos
  · exact h.not_contains_zero (by simpa using hn)
  · have hhigh : i.point i.high < n * 10 ^ i.start := by
      calc i.point i.high < 2 ^ (i.high.log2 + 1) * 2 ^ i.scale := by
            refine mul_lt_mul_of_pos_right ?_ (by positivity)
            exact_mod_cast Nat.lt_log2_self
        _ = 2 ^ (i.high.log2 + i.scale + 1) := by
            rw [← zpow_natCast, ← zpow_add₀ (by norm_num)]
            congr 1
            push_cast
            ring
        _ ≤ 10 ^ i.start := hpow
        _ ≤ n * 10 ^ i.start := le_mul_of_one_le_left (by positivity) (by exact_mod_cast hpos)
    exact absurd hn.le.2 hhigh.not_ge

theorem not_misses_of_lt (h : i.point i.low + 10 ^ e < i.point i.high) : ¬ i.Misses e := by
  intro hmisses
  have hten : (0 : ℚ) < 10 ^ e := by positivity
  let n : ℕ := ⌊i.point i.low / 10 ^ e⌋₊ + 1
  have hlow : i.point i.low < n * 10 ^ e := by
    rw [← div_lt_iff₀ hten]
    exact_mod_cast Nat.lt_floor_add_one _
  have hhigh : n * 10 ^ e ≤ i.point i.low + 10 ^ e := by
    have hfloor : (⌊i.point i.low / 10 ^ e⌋₊ : ℚ) * 10 ^ e ≤ i.point i.low := by
      rw [← le_div_iff₀ hten]
      exact Nat.floor_le (by unfold point; positivity)
    simp only [n]
    push_cast
    linarith
  exact hmisses n (contains_of_lt hlow (hhigh.trans_lt h))

theorem Around.not_misses_end (h : i.Around) : ¬ i.Misses (i.start - 21) := by
  have hlog := h.log2_high_le
  have hgreatest := h.greatest
  have hpow : (10 : ℚ) ^ (i.start - 21) ≤ 2 ^ i.scale := by
    have hinv : (2 : ℚ) ^ (-i.scale) ≤ 10 ^ (-(i.start - 21)) :=
      two_zpow_le_ten_zpow (by omega) (by unfold start; omega)
    rw [zpow_neg, zpow_neg] at hinv
    exact (inv_le_inv₀ (by positivity) (by positivity)).mp hinv
  refine not_misses_of_lt ?_
  calc i.point i.low + 10 ^ (i.start - 21) ≤ i.point (i.low + 1) := by
        rw [point, point]
        push_cast
        linarith
    _ < i.point i.high := point_lt_point (lt_of_le_of_lt h.low_lt h.lt_high)

/-- The search finds a decimal with as few digits as there are in the interval. -/
theorem Around.shortest_spec (h : i.Around) (tie : Tie) :
    ∃ d, i.shortest tie = some d ∧ i.Shortest d := by
  have hmisses : i.Misses (i.start + 1) := h.misses_start.of_le (by omega)
  have hsearch : (∃ d, i.shortest tie = some d ∧ i.Shortest d) ∨
      i.Misses (i.start - (22 : ℕ) + 1) := h.firstOnGrids_cases hmisses
  refine hsearch.resolve_right fun hend => ?_
  exact h.not_misses_end (hend.of_le (by push_cast; omega))

namespace Shortest

theorem digits_pos (h : i.Shortest d) (around : i.Around) : 0 < d.digits := by
  refine Nat.pos_of_ne_zero fun hzero => around.not_contains_zero ?_
  have hinside := h.inside
  rwa [Decimal.value, hzero, Nat.cast_zero, zero_mul] at hinside

theorem le_exponent {k : ℤ} {n : ℕ} (h : i.Shortest d) (hn : i.Contains (n * 10 ^ k)) :
    k ≤ d.exponent :=
  Int.not_lt.mp fun hlt => h.coarsest.of_le hlt n hn

theorem digits_lt_ten_iff (h : i.Shortest d) :
    d.digits < 10 ↔ ∃ digit < 10, ∃ k : ℤ, i.Contains ((digit : ℕ) * 10 ^ k) := by
  constructor
  · exact fun hdigits => ⟨d.digits, hdigits, d.exponent, h.inside⟩
  · rintro ⟨digit, hdigit, k, hcontains⟩
    by_contra hlong
    -- a power of ten that would have been found before
    refine h.coarsest 1 ?_
    rw [Nat.cast_one, one_mul]
    refine hcontains.between h.inside ?_ ?_
    · calc (digit : ℚ) * 10 ^ k ≤ 10 * 10 ^ d.exponent := by
            have hk : (10 : ℚ) ^ k ≤ 10 ^ d.exponent :=
              zpow_le_zpow_right₀ (by norm_num) (h.le_exponent hcontains)
            have hten : (digit : ℚ) ≤ 10 := by exact_mod_cast hdigit.le
            exact mul_le_mul hten hk (by positivity) (by norm_num)
        _ = 10 ^ (d.exponent + 1) := by rw [zpow_add_one₀ (by norm_num), mul_comm]
    · rw [zpow_add_one₀ (by norm_num), mul_comm, Decimal.value]
      have hten : (10 : ℚ) ≤ d.digits := by exact_mod_cast Nat.le_of_not_lt hlong
      exact mul_le_mul_of_nonneg_right hten (by positivity)

/-- The decimal and the middle are on the same side of a power of ten that is not between them. -/
theorem ten_zpow_le_value_iff {k : ℤ} (h : i.Shortest d) (around : i.Around)
    (hpower : i.point i.middle < 10 ^ k → ¬ i.Contains (10 ^ k)) :
    10 ^ k ≤ d.value ↔ 10 ^ k ≤ i.point i.middle := by
  constructor
  · intro hvalue
    by_contra hmiddle
    rw [not_le] at hmiddle
    exact hpower hmiddle (around.contains_middle.between h.inside hmiddle.le hvalue)
  · intro hmiddle
    by_contra hvalue
    rw [not_le] at hvalue
    have hcontains : i.Contains ((1 : ℕ) * 10 ^ k) := by
      rw [Nat.cast_one, one_mul]
      exact h.inside.between around.contains_middle hvalue.le hmiddle
    refine hvalue.not_ge ?_
    calc (10 : ℚ) ^ k ≤ 10 ^ d.exponent :=
          zpow_le_zpow_right₀ (by norm_num) (h.le_exponent hcontains)
      _ ≤ d.value := le_mul_of_one_le_left (by positivity)
          (by exact_mod_cast h.digits_pos around)

end Shortest
end
end Interval

namespace Double
variable {x : Double}

def magnitude (x : Double) : ℚ :=
  x.significand * 2 ^ x.scale

theorem significand_pos (h : x.isZero = false) : 0 < x.significand := by
  unfold significand
  split
  · next hexponent =>
    refine Nat.pos_of_ne_zero fun hfraction => ?_
    rw [isZero, hexponent, hfraction] at h
    cases h
  · exact Nat.add_pos_left (by decide) _

theorem significand_lt (x : Double) : x.significand < 2 ^ 53 := by
  have hfraction : x.fraction.val < 2 ^ 52 := x.fraction.isLt
  have hcount : fractionCount = 2 ^ 52 := rfl
  unfold significand
  split <;> omega

theorem le_significand (h : -1074 < x.scale) : 2 ^ 52 ≤ x.significand := by
  unfold scale at h
  unfold significand
  split at h
  · exact absurd h (lt_irrefl _)
  · next hexponent =>
    rw [if_neg hexponent]
    exact Nat.le_add_right _ _

theorem scale_bounds (h : x.isFinite = true) : -1074 ≤ x.scale ∧ x.scale ≤ 971 := by
  have hexponent : x.exponent.val < 2048 := x.exponent.isLt
  rw [isFinite, bne_iff_ne] at h
  unfold scale
  split <;> omega

theorem point_middle (x : Double) : x.interval.point x.interval.middle = x.magnitude := by
  have hfour : (2 : ℚ) ^ x.scale = 2 ^ (x.scale - 2) * 4 := by
    rw [show (4 : ℚ) = 2 ^ (2 : ℤ) by norm_num, ← zpow_add₀ (by norm_num), sub_add_cancel]
  rw [Interval.point, magnitude, hfour]
  simp only [interval]
  push_cast
  ring

theorem interval_around (hfinite : x.isFinite = true) (hzero : x.isZero = false) :
    x.interval.Around := by
  have hpos := significand_pos hzero
  have hlt := x.significand_lt
  have hscale := scale_bounds hfinite
  constructor <;> simp only [interval] <;> (try split) <;> omega

/-- The shortest decimal of a double is nearer to it than to any other, and no decimal with fewer
digits is. -/
theorem shortest_spec (hfinite : x.isFinite = true) (hzero : x.isZero = false) (tie : Tie) :
    x.interval.Shortest (x.shortest tie) := by
  obtain ⟨d, hfound, hshortest⟩ := (interval_around hfinite hzero).shortest_spec tie
  rwa [shortest, hfound]

end Double
end Stencil
