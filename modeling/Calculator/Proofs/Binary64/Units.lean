import Calculator.Proofs.Binary64.Arithmetic

/-!
# Units of the format

Around a number with a long mantissa the numbers of the format are a unit apart, so what is nearest is
known where the exact result is less than half a unit away. At half a unit the even mantissa decides.
Whole numbers and halves of them are numbers of the format, and so are their differences from such
numbers that are no greater.

Results:
1. `OnOpenGrid.le_sub_unit`: a number that is less is less by a unit.
2. `isNearest_iff_of_even`: what is rounded up to a number with an even mantissa.
3. `IsNearest.le_of_lt_half_unit`, `IsNearest.ge_of_half_unit_lt`: less than half a unit away.
4. `OnGrid.intCast_sub`: the difference of a whole number and a number of the format.
-/

namespace Calculator

open Float.Model

namespace Binary64

variable {M : Nat} {e : Int} {v w g : ℚ}

/-! ## Nearest numbers -/

/-- A number of the format that is less than a given one is less by a unit of it. -/
theorem OnOpenGrid.le_sub_unit (h : OnOpenGrid g) (long : 2 ^ 52 < M) (less : g < M * 2 ^ e) :
    g ≤ M * 2 ^ e - 2 ^ e := by
  obtain ⟨b, f, short, -, rfl⟩ := h
  have pos : (0 : ℚ) < 2 ^ e := zpow_pos two_pos e
  by_cases coarse : e ≤ f
  · obtain ⟨K, hK⟩ := exists_count (b := b) coarse
    rw [hK] at less ⊢
    rw [mul_lt_mul_iff_of_pos_right pos] at less
    have le : K + 1 ≤ (M : Int) := by exact_mod_cast less
    have le : ((K : ℚ) + 1) ≤ M := by exact_mod_cast le
    nlinarith
  · have long : (2 : ℚ) ^ 52 + 1 ≤ M := by exact_mod_cast long
    calc (b : ℚ) * 2 ^ f ≤ 2 ^ (53 + f) := ((le_abs_self _).trans_lt (abs_mul_two_zpow_lt short)).le
      _ ≤ 2 ^ ((52 : Nat) + e) := zpow_le_zpow_right₀ one_le_two (by push_cast; omega)
      _ = 2 ^ 52 * 2 ^ e := (two_pow_mul 52 e).symm
      _ ≤ (M - 1) * 2 ^ e := mul_le_mul_of_nonneg_right (by linarith) pos.le
      _ = M * 2 ^ e - 2 ^ e := by ring

/-- What is less than a number with an even mantissa is rounded up to it if it is less by half a unit
at most. -/
theorem isNearest_iff_of_even (canonical : Canonical M e) (long : 2 ^ 52 < M) (even : Even M)
    (le : v ≤ M * 2 ^ e) : IsNearest v (M * 2 ^ e) ↔ M * 2 ^ e - 2 ^ e / 2 ≤ v := by
  have pos : (0 : ℚ) < 2 ^ e := zpow_pos two_pos e
  have nonneg : (0 : ℚ) ≤ M * 2 ^ e := by positivity
  have distance : |v - M * 2 ^ e| = M * 2 ^ e - v := by
    rw [abs_sub_comm, abs_of_nonneg (sub_nonneg.mpr le)]
  constructor
  · intro h
    -- the number a unit below is not nearer
    have grid : OnOpenGrid (M * 2 ^ e - 2 ^ e) := by
      refine ⟨M - 1, e, ?_, canonical.least, by push_cast; ring⟩
      have := canonical.short
      rw [abs_of_nonneg (by omega)]
      omega
    have near := h.near _ grid
    rw [distance] at near
    rcases le_abs.mp near with above | below <;> linarith
  · intro h
    refine ⟨canonical.onOpenGrid, fun g hg => ?_, fun _ _ _ _ => ?_⟩
    · rw [distance]
      rcases lt_or_ge g (M * 2 ^ e) with less | ge
      · have := hg.le_sub_unit long less
        exact (by linarith : M * 2 ^ e - v ≤ v - g).trans (le_abs_self _)
      · exact (by linarith : M * 2 ^ e - v ≤ -(v - g)).trans (neg_le_abs _)
    · exact ⟨M, e, canonical, even, abs_of_nonneg nonneg⟩

/-- What is less than half a unit above a number, or below it, is not rounded up beyond it. -/
theorem IsNearest.le_of_lt_half_unit (h : IsNearest v w) (canonical : Canonical M e)
    (long : 2 ^ 52 ≤ M) (less : v < M * 2 ^ e + 2 ^ e / 2) : w ≤ M * 2 ^ e := by
  by_contra! more
  have next : M * 2 ^ e + 2 ^ e ≤ w := by
    by_contra! between
    have hcount : (M : ℚ) * 2 ^ e + 2 ^ e = (M + 1 : Nat) * 2 ^ e := by
      push_cast
      ring
    rw [hcount] at between
    have := h.grid.le_sub_unit (by omega) between
    rw [← hcount, add_sub_cancel_right] at this
    exact this.not_gt more
  have near := h.near _ canonical.onOpenGrid
  rw [abs_sub_comm, abs_of_pos (by linarith)] at near
  rcases abs_cases (v - M * 2 ^ e) with ⟨habs, -⟩ | ⟨habs, -⟩ <;> linarith

/-- What is less than half a unit below a number, or above it, is not rounded down beyond it. -/
theorem IsNearest.ge_of_half_unit_lt (h : IsNearest v w) (canonical : Canonical M e)
    (long : 2 ^ 52 < M) (more : M * 2 ^ e - 2 ^ e / 2 < v) : M * 2 ^ e ≤ w := by
  by_contra! less
  have previous := h.grid.le_sub_unit long less
  have near := h.near _ canonical.onOpenGrid
  rw [abs_of_pos (by linarith)] at near
  rcases abs_cases (v - M * 2 ^ e) with ⟨habs, -⟩ | ⟨habs, -⟩ <;> linarith

/-- With an even mantissa half a unit is enough, too. -/
theorem IsNearest.ge_of_even (h : IsNearest v w) (canonical : Canonical M e) (long : 2 ^ 52 < M)
    (even : Even M) (ge : M * 2 ^ e - 2 ^ e / 2 ≤ v) : M * 2 ^ e ≤ w := by
  rcases le_total v (M * 2 ^ e) with below | above
  · exact (((isNearest_iff_of_even canonical long even below).mpr ge).unique h).le
  · exact h.ge canonical.onOpenGrid above

/-! ## Whole numbers and their halves -/

theorem onGrid_half_intCast {b : Int} (short : |b| < 2 ^ 53) : OnGrid (b / 2) :=
  ⟨b, -1, short, by decide, by decide, by rw [zpow_neg_one, div_eq_mul_inv]⟩

theorem onGrid_natCast_le {n : Nat} (le : n ≤ 2 ^ 53) : OnGrid n := by
  rcases le.lt_or_eq with less | rfl
  · exact onGrid_natCast less
  · have grid : OnGrid (2 ^ (53 : Int)) := onGrid_two_zpow (by decide) (by decide)
    rwa [show ((2 ^ 53 : Nat) : ℚ) = 2 ^ (53 : Int) by norm_num]

/-- A whole number less a number of the format, where the difference is no greater than the latter. -/
theorem OnGrid.intCast_sub (h : OnGrid g) (less : g < 2 ^ 53) {b : Int} (le : |b - g| ≤ g) :
    OnGrid (b - g) := by
  obtain ⟨m, f, short, least, most, rfl⟩ := h
  rcases le_or_gt 0 f with whole | fraction
  · obtain ⟨K, hK⟩ := exists_count (b := m) whole
    rw [zpow_zero, mul_one] at hK
    rw [hK] at le less ⊢
    rw [← Int.cast_sub]
    refine onGrid_intCast ?_
    have le : |b - K| ≤ K := by exact_mod_cast le
    exact le.trans_lt (by exact_mod_cast less)
  · obtain ⟨K, hK⟩ := exists_count (b := b) fraction.le
    rw [zpow_zero, mul_one] at hK
    rw [hK, ← sub_mul] at le ⊢
    refine ⟨K - m, f, ?_, least, most, by push_cast; rfl⟩
    have pos : (0 : ℚ) < 2 ^ f := zpow_pos two_pos f
    rw [abs_mul, abs_of_pos pos, mul_le_mul_iff_of_pos_right pos] at le
    have le : |K - m| ≤ m := by exact_mod_cast le
    exact le.trans_lt ((le_abs_self m).trans_lt short)

end Binary64

end Calculator
