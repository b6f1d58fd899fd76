import Calculator.Proofs.Binary64.Units
import Calculator.Proofs.TangentSums

/-!
# Where reduced angles lie

An angle is reduced to a full turn by the remainder of a division that rounds the quotient down. That
remainder is exact but for angles below zero, where the turn is added to a negative remainder. The sum
is rounded, and if the remainder is so small that it is rounded away, the reduced angle is the full
turn itself. In the same way an angle that is reduced to half a turn around zero may be reduced to its
lower end.

Results:
1. `valueOf?_flooredRemainder_iff`: when the remainder by a divisor is the divisor.
2. `reduced_angle_bounds`: the intervals of the reduced angles, and which angles reach their open end.
-/

namespace Calculator

open Binary64 Float.Model

/-! ## Remainders that are rounded up to the divisor -/

/-- The number is negative, and below a whole multiple of the period by no more than the margin. -/
def JustBelow (period margin : ℚ) (x : Float) : Prop :=
  ∃ v, valueOf? x = some v ∧ v < 0 ∧ ∃ k : Int, k * period - margin ≤ v ∧ v < k * period

section Remainder

variable {x y : Float} {M : Nat} {e : Int} {v r w margin : ℚ}

/-- Whole multiples with rests that differ by less than one multiple are the same. -/
theorem eq_of_rests {k k' : Int} {r' : ℚ} (h : k * w + r = k' * w + r') (above : -w < r - r')
    (below : r - r' < w) : k = k' := by
  have hsub : ((k' - k : Int) : ℚ) * w = r - r' := by
    push_cast
    linarith
  have less : ((k' - k : Int) : ℚ) < 1 := by
    by_contra! ge
    nlinarith
  have more : (-1 : ℚ) < (k' - k : Int) := by
    by_contra! le
    nlinarith
  have less : k' - k < 1 := by exact_mod_cast less
  have more : -1 < k' - k := by exact_mod_cast more
  omega

/-- Numbers of one sign do not lie on two sides of zero. -/
theorem mul_nonneg_of_same_sign {z : Float} (hx : valueOf? x = some v) (hz : valueOf? z = some r)
    (same : sign? z.toModel.unpack = sign? x.toModel.unpack) : 0 ≤ v * r := by
  obtain ⟨s, hs⟩ := exists_sign_of_value? hx
  rw [eq_signed_abs hx hs, eq_signed_abs hz (same.trans hs)]
  cases s with
  | positive => exact mul_nonneg (abs_nonneg v) (abs_nonneg r)
  | negative => exact (mul_nonneg (abs_nonneg v) (abs_nonneg r)).trans_eq (neg_mul_neg _ _).symm

/-- A number is just below a multiple if and only if its remainder is negative and small. -/
theorem justBelow_iff (hx : valueOf? x = some v) (hy : valueOf? y = some w)
    (hr : valueOf? (truncatedRemainder x y) = some r) (small : margin < w) (nonneg : 0 ≤ margin) :
    JustBelow w margin x ↔ -margin ≤ r ∧ r < 0 := by
  have pos : 0 < w := nonneg.trans_lt small
  obtain ⟨k, r', hr', hsum, less, sign⟩ := truncatedRemainder_exact hx hy pos.ne'
  cases hr.symm.trans hr'
  have side : 0 ≤ v * r := mul_nonneg_of_same_sign hx hr sign
  rw [abs_of_pos pos, abs_lt] at less
  constructor
  · rintro ⟨v', hv', negative, k', above, below⟩
    cases hx.symm.trans hv'
    have nonpos : r ≤ 0 := nonpos_of_mul_nonneg_right side negative
    obtain ⟨δ, hδ⟩ : ∃ δ, v = k' * w + δ := ⟨v - k' * w, by ring⟩
    have same : k = k' := eq_of_rests (hsum.symm.trans hδ) (by linarith) (by linarith)
    subst same
    constructor <;> linarith
  · rintro ⟨above, negative⟩
    have nonpos : v ≤ 0 := nonpos_of_mul_nonneg_left side negative
    have nonzero : v ≠ 0 := by
      rintro rfl
      have hsum' : k * w + r = (0 : Int) * w + 0 := by
        rw [← hsum, Int.cast_zero, zero_mul, zero_add]
      have same : k = 0 := eq_of_rests hsum' (by linarith) (by linarith)
      rw [same, Int.cast_zero, zero_mul, zero_add] at hsum
      exact negative.ne hsum.symm
    exact ⟨v, hx, lt_of_le_of_ne nonpos nonzero, k, by linarith, by linarith⟩

/-- The remainder by a divisor with an even mantissa is the divisor if the number is just below a
multiple of it. -/
theorem valueOf?_flooredRemainder_iff (hx : valueOf? x = some v)
    (hy : valueOf? y = some ((M : ℚ) * 2 ^ e)) (canonical : Canonical M e) (long : 2 ^ 52 < M)
    (even : Even M) :
    valueOf? (flooredRemainder x y) = some ((M : ℚ) * 2 ^ e) ↔
      JustBelow ((M : ℚ) * 2 ^ e) (2 ^ e / 2) x := by
  have unit : (0 : ℚ) < 2 ^ e := zpow_pos two_pos e
  have small : (2 : ℚ) ^ e / 2 < M * 2 ^ e := by
    have one_le : (1 : ℚ) ≤ M := by exact_mod_cast (Nat.one_le_two_pow.trans long.le)
    nlinarith
  have pos : (0 : ℚ) < M * 2 ^ e := (half_pos unit).trans small
  obtain ⟨k, r, hr, hsum, less, sign⟩ := truncatedRemainder_exact hx hy pos.ne'
  rw [justBelow_iff hx hy hr small (half_pos unit).le, flooredRemainder_eq hr hy pos]
  rw [abs_of_pos pos] at less
  rcases lt_trichotomy r 0 with negative | rfl | positive
  · rw [if_neg negative.ne, if_pos negative]
    have nearest := isNearest_iff_of_even canonical long even (v := r + M * 2 ^ e) (by linarith)
    obtain ⟨u, hu, hvalue⟩ := rounded_add hr hy
    constructor
    · intro h
      have := nearest.mp ((rounded_add hr hy).isNearest h)
      exact ⟨by linarith, negative⟩
    · rintro ⟨above, -⟩
      cases hu.unique (nearest.mpr (by linarith))
      rw [hvalue, if_pos (onGrid_of_valueOf? hy).abs_lt]
  · rw [if_pos rfl, valueOf?_copySign_zero, Option.some_inj]
    exact ⟨fun h => absurd h pos.ne, fun h => absurd h.2 (lt_irrefl 0)⟩
  · rw [if_neg positive.ne', if_neg positive.not_gt, hr, Option.some_inj]
    exact ⟨fun h => absurd h ((le_abs_self r).trans_lt less).ne, fun h => absurd h.2 positive.not_gt⟩

end Remainder

/-! ## The reduced angles -/

open Tangent

theorem canonical_turn (e : Int) (least : -1074 ≤ e) : Canonical 7074237752028440 e :=
  ⟨by decide, least, .inl (by decide)⟩

/-- The full turn has an even mantissa. -/
theorem valueOf?_withinTurn_iff {x : Float} {v : ℚ} (hx : valueOf? x = some v) :
    valueOf? (withinTurn x) = some (2 * halfTurn) ↔ JustBelow (2 * halfTurn) (2 ^ (-51 : Int)) x := by
  have turn : 2 * halfTurn = ((7074237752028440 : Nat) : ℚ) * 2 ^ (-50 : Int) := by
    norm_num [halfTurn]
  have margin : (2 : ℚ) ^ (-51 : Int) = 2 ^ (-50 : Int) / 2 := by norm_num
  rw [turn, margin]
  exact valueOf?_flooredRemainder_iff hx valueOf?_twoPi (canonical_turn (-50) (by decide))
    (by decide) (by decide)

/-- Half a turn has an even mantissa. -/
theorem valueOf?_flooredRemainder_pi_iff {x : Float} {v : ℚ} (hx : valueOf? x = some v) :
    valueOf? (flooredRemainder x pi) = some halfTurn ↔ JustBelow halfTurn (2 ^ (-52 : Int)) x := by
  have turn : halfTurn = ((7074237752028440 : Nat) : ℚ) * 2 ^ (-51 : Int) := by norm_num [halfTurn]
  have margin : (2 : ℚ) ^ (-52 : Int) = 2 ^ (-51 : Int) / 2 := by norm_num
  have hpi : valueOf? pi = some (((7074237752028440 : Nat) : ℚ) * 2 ^ (-51 : Int)) := by
    rw [valueOf?_pi, turn]
  rw [turn, margin]
  exact valueOf?_flooredRemainder_iff hx hpi (canonical_turn (-51) (by decide)) (by decide)
    (by decide)

/-- An angle is reduced to the lower end of half a turn around zero if what it lacks of a quarter turn
has half a turn as its remainder. -/
theorem neg_halfPi_lt_withinHalfTurn_iff {x : Float} (finite : x.isFinite = true) :
    -halfPi < withinHalfTurn x ↔ ¬JustBelow halfTurn (2 ^ (-52 : Int)) (halfPi - x) := by
  obtain ⟨v, hv⟩ := exists_valueOf? finite
  obtain ⟨w, hw⟩ := exists_valueOf?_sub valueOf?_halfPi hv (by norm_num [halfTurn, abs_of_pos])
  obtain ⟨r, hr, r_ge, r_le⟩ := within_flooredRemainder hw valueOf?_pi (by norm_num [halfTurn])
  have hend : valueOf? (-halfPi) = some (-(halfTurn / 2)) := valueOf?_neg valueOf?_halfPi
  rw [← valueOf?_flooredRemainder_pi_iff hw, hr, Option.some_inj]
  have near : Near (withinHalfTurn x) (halfTurn / 2 - r) := near_sub valueOf?_halfPi hr
  constructor
  · rintro less rfl
    have lower : halfTurn / 2 - halfTurn = -(halfTurn / 2) := by ring
    rw [lower] at near
    rw [lt_iff hend (near.valueOf?_eq onGrid_halfTurn.neg)] at less
    exact less.false
  · intro ne
    -- a smaller remainder is smaller by a unit, which is not rounded away
    have turn : halfTurn = ((7074237752028440 : Nat) : ℚ) * 2 ^ (-51 : Int) := by
      norm_num [halfTurn]
    have less : r < ((7074237752028440 : Nat) : ℚ) * 2 ^ (-51 : Int) := by
      rw [← turn]
      exact r_le.lt_of_ne ne
    have below := (onGrid_of_valueOf? hr).onOpenGrid.le_sub_unit (by decide) less
    rw [← turn] at below
    have grid : OnGrid (-(halfTurn / 2) + 2 ^ (-51 : Int)) :=
      ⟨-7074237752028438, -52, by decide, by decide, by decide, by norm_num [halfTurn]⟩
    have rest_ge : -(halfTurn / 2) + 2 ^ (-51 : Int) ≤ halfTurn / 2 - r :=
      calc -(halfTurn / 2) + 2 ^ (-51 : Int) = halfTurn / 2 - (halfTurn - 2 ^ (-51 : Int)) := by ring
        _ ≤ halfTurn / 2 - r := sub_le_sub_left below _
    obtain ⟨u, hu, above, -⟩ := near.within grid onGrid_halfTurn rest_ge (by linarith)
    rw [lt_iff hend hu]
    have pos : (0 : ℚ) < 2 ^ (-51 : Int) := zpow_pos two_pos _
    linarith

/-- A finite angle is reduced to between zero and a full turn, and it is reduced to the full turn itself
just if it is negative and short of a multiple of it by half a unit of the turn at most. It is reduced
to within a quarter of a turn around zero, and to the lower end just if what it lacks of a quarter turn
is negative and so short of a multiple of half a turn. -/
theorem reduced_angle_bounds {x : Float} (finite : x.isFinite = true) :
    (0.0 ≤ withinTurn x ∧ withinTurn x ≤ twoPi ∧
      (withinTurn x < twoPi ↔ ¬JustBelow (2 * halfTurn) (2 ^ (-51 : Int)) x)) ∧
    (-halfPi ≤ withinHalfTurn x ∧ withinHalfTurn x ≤ halfPi ∧
      (-halfPi < withinHalfTurn x ↔ ¬JustBelow halfTurn (2 ^ (-52 : Int)) (halfPi - x))) := by
  obtain ⟨v, hv⟩ := exists_valueOf? finite
  have hturn : valueOf? twoPi = some (2 * halfTurn) := by
    rw [valueOf?_twoPi]
    norm_num [halfTurn]
  have hend : valueOf? (-halfPi) = some (-(halfTurn / 2)) := valueOf?_neg valueOf?_halfPi
  obtain ⟨r, hr, r_ge, r_le⟩ := within_flooredRemainder hv hturn (by norm_num [halfTurn])
  obtain ⟨a, ha, a_ge, a_le⟩ := within_withinHalfTurn finite
  refine ⟨⟨(le_iff valueOf?_zero hr).mpr r_ge, (le_iff hr hturn).mpr r_le, ?_⟩,
    (le_iff hend ha).mpr a_ge, (le_iff ha valueOf?_halfPi).mpr a_le,
    neg_halfPi_lt_withinHalfTurn_iff finite⟩
  have hreduced : valueOf? (withinTurn x) = some r := hr
  rw [← valueOf?_withinTurn_iff hv, hreduced, Option.some_inj, lt_iff hreduced hturn]
  exact r_le.lt_iff_ne

theorem reduced_angle_bounds_tiny :
    (-1e-20 : Float).isFinite = true ∧
    (0.0 ≤ withinTurn (-1e-20) ∧ withinTurn (-1e-20) ≤ twoPi ∧
      (withinTurn (-1e-20) < twoPi ↔ ¬JustBelow (2 * halfTurn) (2 ^ (-51 : Int)) (-1e-20))) ∧
    (-halfPi ≤ withinHalfTurn (-1e-20) ∧ withinHalfTurn (-1e-20) ≤ halfPi ∧
      (-halfPi < withinHalfTurn (-1e-20) ↔
        ¬JustBelow halfTurn (2 ^ (-52 : Int)) (halfPi - -1e-20))) :=
  have finite : (-1e-20 : Float).isFinite = true := rfl
  ⟨finite, reduced_angle_bounds finite⟩

/-- A tiny angle below zero is reduced to the full turn, and the number next above a quarter turn to
the quarter turn below zero. -/
theorem reduced_angles_reach_open_ends :
    ((-1e-20 : Float).isFinite = true ∧ (withinTurn (-1e-20) == twoPi) = true ∧
      ¬withinTurn (-1e-20) < twoPi) ∧
    ((1.5707963267948968 : Float).isFinite = true ∧
      (withinHalfTurn 1.5707963267948968 == -halfPi) = true ∧
      ¬-halfPi < withinHalfTurn 1.5707963267948968) := by
  decide +kernel

end Calculator
