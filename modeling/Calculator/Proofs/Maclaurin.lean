import Calculator.Proofs.Coefficients
import Mathlib.Algebra.BigOperators.NatAntidiagonal
import Mathlib.Data.Nat.Choose.Central
import Mathlib.RingTheory.PowerSeries.Derivative
import Mathlib.RingTheory.PowerSeries.Expand
import Mathlib.Tactic.FieldSimp

/-!
# The sums with exact numbers

The steps that the sums of the library repeat are stated for any numbers. With rational numbers, where
nothing is rounded, each of them goes through the partial sums of one Maclaurin series. A step makes
the next term from the term or the power before; that this is the next term of the series is shown for
each sum by itself, and what a loop holds after any number of iterations follows for all together.

The coefficients of the tangent are given by their recurrence alone. They are those of a formal power
series whose derivative is one plus its square.

Results:
1. `PassesThrough.of_step`: the states of a loop, from what one step does.
2. `Maclaurin.sine_succ`, `Maclaurin.cosine_succ`, `Maclaurin.arcsine_succ`,
   `Maclaurin.arctangent_succ`: the terms, each from what is before it.
3. `Maclaurin.derivative_tangentSeries`: the differential equation of the tangent.
4. `exact_sums_are_maclaurin`: what the loops hold after any number of iterations.
-/

namespace Calculator

open Finset (range)

/-! ## The states of a loop -/

/-- A loop that repeats the step from `start` is in the state `state k` after `k` iterations: however
often the step is made, and for as long as a test, be it before the step or behind it, lets the loop go
on. -/
structure PassesThrough {σ : Type} (step : σ → σ) (start : σ) (state : ℕ → σ) : Prop where
  iterate : ∀ k, step^[k] start = state k
  testFirst : ∀ stop budget, testFirstStates stop step budget start <+:
    (List.range budget).map fun k => state (k + 1)
  stepFirst : ∀ stop budget, stepFirstStates stop step budget start <+:
    (List.range budget).map fun k => state (k + 1)

section PassesThrough

variable {σ : Type} {stop : σ → Bool} {step : σ → σ} {state : ℕ → σ}

-- Behind a step the states begin one later, so both inductions are on any states.

theorem testFirstStates_prefix_of_step (next : ∀ k, step (state k) = state (k + 1)) (budget : ℕ) :
    testFirstStates stop step budget (state 0) <+:
      (List.range budget).map fun k => state (k + 1) := by
  induction budget generalizing state with
  | zero => exact List.prefix_rfl
  | succ budget ih =>
    rw [List.range_succ_eq_map, List.map_cons, List.map_map, testFirstStates, next]
    split
    · exact List.nil_prefix
    · exact List.cons_prefix_cons.mpr ⟨rfl, ih fun k => next (k + 1)⟩

theorem stepFirstStates_prefix_of_step (next : ∀ k, step (state k) = state (k + 1)) (budget : ℕ) :
    stepFirstStates stop step budget (state 0) <+:
      (List.range budget).map fun k => state (k + 1) := by
  induction budget generalizing state with
  | zero => exact List.prefix_rfl
  | succ budget ih =>
    rw [List.range_succ_eq_map, List.map_cons, List.map_map, stepFirstStates, next]
    refine List.cons_prefix_cons.mpr ⟨rfl, ?_⟩
    split
    · exact List.nil_prefix
    · exact ih fun k => next (k + 1)

/-- One step from each state to the next is all that there is to show. -/
theorem PassesThrough.of_step {start : σ} (first : state 0 = start)
    (next : ∀ k, step (state k) = state (k + 1)) : PassesThrough step start state := by
  subst first
  refine ⟨fun k => ?_, fun stop => testFirstStates_prefix_of_step next,
    fun stop => stepFirstStates_prefix_of_step next⟩
  induction k with
  | zero => rfl
  | succ k ih => rw [Function.iterate_succ_apply', ih, next]

end PassesThrough

/-! ## Sine, cosine, arcsine, arctangent -/

namespace Maclaurin

section Terms

variable (x : ℚ) (k : ℕ)

/-- The terms of the series of the sine. -/
def sine : ℚ := (-1) ^ k * x ^ (2 * k + 1) / (2 * k + 1).factorial

/-- The terms of the series of the cosine. -/
def cosine : ℚ := (-1) ^ k * x ^ (2 * k) / (2 * k).factorial

/-- The terms of the series of the arcsine. -/
def arcsine : ℚ := k.centralBinom * x ^ (2 * k + 1) / (4 ^ k * (2 * k + 1))

/-- The terms of the series of the arctangent. -/
def arctangent : ℚ := (-1) ^ k * x ^ (2 * k + 1) / (2 * k + 1)

theorem sine_zero : sine x 0 = x := by simp [sine]

theorem sine_succ : sine x (k + 1) = sine x k * Series.sineRatio x (k + 1) := by
  have factorial : (2 * (k + 1) + 1).factorial =
      2 * (k + 1) * (2 * (k + 1) + 1) * (2 * k + 1).factorial := by
    rw [Nat.factorial_succ, Nat.mul_succ, Nat.factorial_succ (2 * k + 1)]
    ring
  have nonzero : ((2 * k + 1).factorial : ℚ) ≠ 0 := Nat.cast_ne_zero.mpr (Nat.factorial_ne_zero _)
  unfold sine Series.sineRatio
  rw [factorial]
  push_cast
  field_simp
  ring

theorem cosine_zero : cosine x 0 = 1 := by simp [cosine]

theorem cosine_succ : cosine x (k + 1) = cosine x k * Series.cosineRatio x (k + 1) := by
  have factorial : (2 * (k + 1)).factorial = (2 * k + 1) * 2 * (k + 1) * (2 * k).factorial := by
    rw [Nat.mul_succ, Nat.factorial_succ (2 * k + 1), Nat.factorial_succ]
    ring
  have nonzero : ((2 * k).factorial : ℚ) ≠ 0 := Nat.cast_ne_zero.mpr (Nat.factorial_ne_zero _)
  have odd : 2 * (k + 1) - 1 = 2 * k + 1 := rfl
  unfold cosine Series.cosineRatio
  rw [factorial, odd]
  push_cast
  field_simp
  ring

theorem arcsine_zero : arcsine x 0 = x := by simp [arcsine]

theorem arcsine_succ : arcsine x (k + 1) = arcsine x k * Series.arcsineRatio x (k + 1) := by
  have binomial : ((k + 1).centralBinom : ℚ) =
      2 * (2 * k + 1) * k.centralBinom / (k + 1 : ℕ) := by
    rw [eq_div_iff (Nat.cast_ne_zero.mpr k.succ_ne_zero), mul_comm]
    exact_mod_cast k.succ_mul_centralBinom_succ
  have odd : 2 * (k + 1) - 1 = 2 * k + 1 := rfl
  unfold arcsine Series.arcsineRatio
  rw [binomial, odd]
  push_cast
  field_simp
  ring

theorem arctangent_zero : arctangent x 0 = x := by simp [arctangent]

theorem arctangent_succ :
    arctangent x (k + 1) =
      (-1) ^ k * x ^ (2 * k + 1) * -(x * x) / ((2 * (k + 1) + 1 : ℕ) : ℚ) := by
  unfold arctangent
  push_cast
  ring

end Terms

/-- A loop that makes each term from the one before. -/
theorem passesThrough_addTerm {ratio term : ℕ → ℚ} {first : ℚ} (start : term 0 = first)
    (next : ∀ k, term (k + 1) = term k * ratio (k + 1)) :
    PassesThrough (Series.addTerm ratio) ⟨0, first, 0⟩
      fun k => ⟨∑ j ∈ range k, term j, term k, k⟩ := by
  refine .of_step (by rw [Finset.sum_range_zero, start]) fun k => ?_
  rw [Finset.sum_range_succ, next]
  rfl

/-- The loop of the arctangent makes each power from the one before. -/
theorem passesThrough_addOddPower (x : ℚ) :
    PassesThrough (Series.addOddPower x) ⟨0, x, x, 0⟩ fun k =>
      ⟨∑ j ∈ range k, arctangent x j, arctangent x k, (-1) ^ k * x ^ (2 * k + 1), k⟩ := by
  refine .of_step ?_ fun k => ?_
  · rw [Finset.sum_range_zero, arctangent_zero, pow_zero, one_mul, Nat.mul_zero, zero_add, pow_one]
  · have power : (-1) ^ k * x ^ (2 * k + 1) * -(x * x) =
        (-1) ^ (k + 1) * x ^ (2 * (k + 1) + 1) := by ring
    rw [Finset.sum_range_succ, arctangent_succ, ← power]
    rfl

/-! ## Tangent -/

open PowerSeries

theorem sequence_zero : (TangentTable.sequence 0 : ℚ) = 1 := Nat.cast_one

/-- A coefficient is made of all pairs of earlier ones whose numbers add up to the one before. -/
theorem sequence_succ_mul (k : ℕ) :
    TangentTable.sequence (k + 1) * ((2 * (k + 1) + 1 : ℕ) : ℚ) =
      ∑ a ∈ range (k + 1), TangentTable.sequence a * TangentTable.sequence (k - a) := by
  have nonzero : ((2 * (k + 1) + 1 : ℕ) : ℚ) ≠ 0 := Nat.cast_ne_zero.mpr (Nat.succ_ne_zero _)
  rw [TangentTable.sequence_succ, Nat.cast_zero, ← List.sum_eq_foldl, div_mul_cancel₀ _ nonzero]
  rfl

/-- The formal power series of the tangent. Its coefficients stand at the odd powers. -/
noncomputable def tangentSeries : PowerSeries ℚ :=
  .mk fun n => if Even n then 0 else TangentTable.sequence (n / 2)

theorem coeff_tangentSeries_even (k : ℕ) : coeff (2 * k) tangentSeries = 0 := by
  rw [tangentSeries, coeff_mk, if_pos (even_two_mul k)]

theorem coeff_tangentSeries_odd (k : ℕ) :
    coeff (2 * k + 1) tangentSeries = TangentTable.sequence k := by
  rw [tangentSeries, coeff_mk, if_neg (Nat.not_even_two_mul_add_one k), Nat.mul_add_div two_pos,
    Nat.div_eq_of_lt one_lt_two, Nat.add_zero]

/-- The series is `X` times a series in the square of `X`. -/
theorem tangentSeries_eq :
    tangentSeries = X * expand 2 two_ne_zero (.mk TangentTable.sequence) := by
  ext n
  obtain ⟨k, rfl | rfl⟩ := Nat.even_or_odd' n
  · rw [coeff_tangentSeries_even]
    cases k with
    | zero => exact (coeff_zero_X_mul _).symm
    | succ k =>
      rw [Nat.mul_succ, coeff_succ_X_mul, coeff_expand_of_not_dvd]
      omega
  · rw [coeff_tangentSeries_odd, coeff_succ_X_mul, coeff_expand_mul, coeff_mk]

theorem tangentSeries_sq :
    tangentSeries ^ 2 = X ^ 2 * expand 2 two_ne_zero (.mk TangentTable.sequence ^ 2) := by
  rw [tangentSeries_eq, mul_pow, map_pow]

theorem coeff_tangentSeries_sq_zero : coeff 0 (tangentSeries ^ 2) = 0 := by
  rw [tangentSeries_sq, coeff_X_pow_mul', if_neg (Nat.not_succ_le_zero 1)]

theorem coeff_tangentSeries_sq_even (k : ℕ) :
    coeff (2 * (k + 1)) (tangentSeries ^ 2) =
      ∑ a ∈ range (k + 1), TangentTable.sequence a * TangentTable.sequence (k - a) := by
  rw [tangentSeries_sq, Nat.mul_succ, coeff_X_pow_mul, coeff_expand_mul, sq, coeff_mul,
    Finset.Nat.sum_antidiagonal_eq_sum_range_succ_mk]
  simp only [coeff_mk]

theorem coeff_tangentSeries_sq_odd (k : ℕ) : coeff (2 * k + 1) (tangentSeries ^ 2) = 0 := by
  rw [tangentSeries_sq, coeff_X_pow_mul']
  split
  · rw [coeff_expand_of_not_dvd]
    omega
  · rfl

theorem coeff_one_succ (n : ℕ) : coeff (n + 1) (1 : PowerSeries ℚ) = 0 := by
  rw [coeff_one, if_neg n.succ_ne_zero]

/-- The derivative of the tangent is one plus its square. At the even powers that is the recurrence of
the coefficients, and at the odd powers both sides are zero. -/
theorem derivative_tangentSeries : derivative ℚ tangentSeries = 1 + tangentSeries ^ 2 := by
  ext n
  rw [coeff_derivative, map_add]
  obtain ⟨k, rfl | rfl⟩ := Nat.even_or_odd' n
  · rw [coeff_tangentSeries_odd]
    cases k with
    | zero =>
      rw [Nat.mul_zero, sequence_zero, coeff_zero_one, coeff_tangentSeries_sq_zero, Nat.cast_zero,
        zero_add, mul_one, add_zero]
    | succ k =>
      have one : coeff (2 * (k + 1)) (1 : PowerSeries ℚ) = 0 := coeff_one_succ (2 * k + 1)
      rw [coeff_tangentSeries_sq_even, one, zero_add, ← sequence_succ_mul, Nat.cast_succ]
  · rw [coeff_tangentSeries_sq_odd, coeff_one_succ, Nat.add_assoc, ← Nat.mul_succ,
      coeff_tangentSeries_even, zero_mul, zero_add]

/-- The terms of the series of the tangent. -/
noncomputable def tangent (x : ℚ) (k : ℕ) : ℚ := coeff (2 * k + 1) tangentSeries * x ^ (2 * k + 1)

theorem tangent_zero (x : ℚ) : tangent x 0 = x := by
  rw [tangent, coeff_tangentSeries_odd, sequence_zero, one_mul, Nat.mul_zero, zero_add, pow_one]

/-- Whatever coefficients the table holds already, the one that is read is that of the series. -/
theorem coefficient_upTo_grow (n k : ℕ) :
    ((TangentTable.initial.grow n).upTo k).coefficient k = coeff (2 * k + 1) tangentSeries := by
  rw [coeff_tangentSeries_odd]
  exact TangentTable.IsInitial.coefficient_upTo ⟨n, rfl⟩ k

/-- The loop of the tangent makes each power from the one before. The first term is in the sum from the
start, and the table is grown where it is too short. -/
theorem passesThrough_tangent (x : ℚ) (n : ℕ) :
    PassesThrough (Tangent.addTerm x) (Tangent.start x (TangentTable.initial.grow n)) fun k =>
      ⟨∑ j ∈ range (k + 1), tangent x j, tangent x k, x ^ (2 * k + 1), k,
        TangentTable.initial.grow (max n k)⟩ := by
  refine .of_step ?_ fun k => ?_
  · rw [Finset.sum_range_one, tangent_zero, Nat.mul_zero, zero_add, pow_one, Nat.max_zero,
      Tangent.start]
  · have power : x ^ (2 * k + 1) * (x * x) = x ^ (2 * (k + 1) + 1) := by ring
    rw [Tangent.addTerm, coefficient_upTo_grow, power, TangentTable.upTo_grow_initial,
      Nat.max_assoc, Nat.max_eq_right (Nat.le_succ k), Finset.sum_range_succ (tangent x) (k + 1)]
    rfl

end Maclaurin

/-! ## All sums -/

section Sums

open Series PowerSeries

/-- With rational numbers, whatever test ends them, the loops of the sums hold after `k` iterations the
sum of the first `k` terms of a Maclaurin series and the next term: that of the sine, of the cosine, of
the arcsine and of the arctangent. The loop of the tangent holds one term more, with any table of
coefficients. What is read from a table are the coefficients at the odd powers of a formal series `T`;
those at the even powers are zero, the derivative of `T` is `1 + T ^ 2`, and `T` begins with `x`. -/
theorem exact_sums_are_maclaurin :
    (∀ x : ℚ,
      PassesThrough (addTerm (sineRatio x)) ⟨0, x, 0⟩
        (fun k => ⟨∑ j ∈ range k, Maclaurin.sine x j, Maclaurin.sine x k, k⟩) ∧
      PassesThrough (addTerm (cosineRatio x)) ⟨0, 1, 0⟩
        (fun k => ⟨∑ j ∈ range k, Maclaurin.cosine x j, Maclaurin.cosine x k, k⟩) ∧
      PassesThrough (addTerm (arcsineRatio x)) ⟨0, x, 0⟩
        (fun k => ⟨∑ j ∈ range k, Maclaurin.arcsine x j, Maclaurin.arcsine x k, k⟩) ∧
      PassesThrough (addOddPower x) ⟨0, x, x, 0⟩
        (fun k => ⟨∑ j ∈ range k, Maclaurin.arctangent x j, Maclaurin.arctangent x k,
          (-1) ^ k * x ^ (2 * k + 1), k⟩) ∧
      ∀ n, PassesThrough (Tangent.addTerm x) (Tangent.start x (TangentTable.initial.grow n))
        (fun k => ⟨∑ j ∈ range (k + 1), Maclaurin.tangent x j, Maclaurin.tangent x k,
          x ^ (2 * k + 1), k, TangentTable.initial.grow (max n k)⟩)) ∧
    (∀ n k, ((TangentTable.initial.grow n).upTo k).coefficient k =
        coeff (2 * k + 1) Maclaurin.tangentSeries ∧
      coeff (2 * k) Maclaurin.tangentSeries = 0) ∧
    derivative ℚ Maclaurin.tangentSeries = 1 + Maclaurin.tangentSeries ^ 2 ∧
    coeff 0 Maclaurin.tangentSeries = 0 ∧ coeff 1 Maclaurin.tangentSeries = 1 := by
  refine ⟨fun x => ⟨?_, ?_, ?_, ?_, Maclaurin.passesThrough_tangent x⟩, fun n k => ⟨?_, ?_⟩,
    Maclaurin.derivative_tangentSeries, Maclaurin.coeff_tangentSeries_even 0, ?_⟩
  · exact Maclaurin.passesThrough_addTerm (Maclaurin.sine_zero x) (Maclaurin.sine_succ x)
  · exact Maclaurin.passesThrough_addTerm (Maclaurin.cosine_zero x) (Maclaurin.cosine_succ x)
  · exact Maclaurin.passesThrough_addTerm (Maclaurin.arcsine_zero x) (Maclaurin.arcsine_succ x)
  · exact Maclaurin.passesThrough_addOddPower x
  · exact Maclaurin.coefficient_upTo_grow n k
  · exact Maclaurin.coeff_tangentSeries_even k
  · exact (Maclaurin.coeff_tangentSeries_odd 0).trans Maclaurin.sequence_zero

end Sums

end Calculator
