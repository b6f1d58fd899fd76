import Calculator.Library.Root
import Calculator.Proofs.Binary64.Order
import Calculator.Proofs.Iteration

/-!
# Newton's iteration for the root

The guesses for the root of a positive number stay between powers of two that the number determines,
so none of them is zero and none is infinite. Only the least number of the format is out of reach: half
of it is rounded to zero.

Results:
1. `Root.Scale.run`: the guesses stay between powers of two.
2. `Root.exists_scale`: every positive number but the least one of the format has such powers.
-/

namespace Calculator

open Binary64

/-! ## Halves -/

section Bounds

variable {x : Float}

theorem within_half {lo hi : ℚ} (hx : Within lo hi x) (hlo : OnGrid (lo / 2))
    (hhi : OnGrid (hi / 2)) : Within (lo / 2) (hi / 2) (x / 2.0) := by
  obtain ⟨v, hv, above, below⟩ := hx
  refine (near_div hv valueOf?_two two_ne_zero).within hlo hhi ?_ ?_
  · exact div_le_div_of_nonneg_right above zero_le_two
  · exact div_le_div_of_nonneg_right below zero_le_two

theorem two_zpow_div_two (n : Int) : (2 : ℚ) ^ n / 2 = 2 ^ (n - 1) := by
  rw [zpow_sub_one₀ two_ne_zero]
  rfl

/-- Half of what lies between powers of two lies between the halves of them. -/
theorem within_half_two_zpow {l u : Int} (hx : Within (2 ^ (l + 1)) (2 ^ (u + 1)) x)
    (least : -1074 ≤ l) (le : l ≤ u) (most : u ≤ 1023) : Within (2 ^ l) (2 ^ u) (x / 2.0) := by
  have halved (n : Int) : (2 : ℚ) ^ (n + 1) / 2 = 2 ^ n := by
    rw [two_zpow_div_two, add_sub_cancel_right]
  have half := within_half hx (halved l ▸ onGrid_two_zpow least (by omega))
    (halved u ▸ onGrid_two_zpow (by omega) most)
  rwa [halved, halved] at half

/-- Three times a power of two. -/
theorem onGrid_three_mul {n : Int} (least : -1000 ≤ n) (most : n ≤ 1022) : OnGrid (3 * 2 ^ n) := by
  refine ⟨3 * 2 ^ 51, n - 51, by decide, by omega, by unfold greatest; omega, ?_⟩
  rw [Int.cast_mul, Int.cast_pow, mul_assoc, Int.cast_ofNat, Int.cast_ofNat, two_pow_mul,
    Nat.cast_ofNat, add_sub_cancel]

end Bounds

namespace Root

/-! ## The test -/

section Test

variable {x guess : Float} {tolerance : Float} {d c r : ℚ}

theorem close_iff (hd : valueOf? (guess * guess - x) = some d)
    (htolerance : valueOf? tolerance = some c) :
    close x (.real tolerance) guess = true ↔ |d| ≤ c := by
  have habs : (Number.real (guess * guess - x).abs).value? = some |d| := valueOf?_abs hd
  have htolerance : (Number.real tolerance).value? = some c := htolerance
  unfold close within
  rw [Number.atMost_iff habs htolerance]

/-- A guess other than zero has a next one. -/
theorem stuck_eq_false {tolerance : Number} {g : Guess} (hg : valueOf? g.value = some r)
    (pos : 0 < r) : stuck x tolerance g = false := by
  have nonzero : (g.value == 0.0) = false := by
    rw [← Bool.not_eq_true, beq_iff hg valueOf?_zero]
    exact pos.ne'
  unfold stuck
  rw [nonzero]
  rfl

/-- A guess that is not close and has a lesser one behind it does not end the iteration. -/
theorem not_settled_of_lt {tolerance : Number} {g : Guess} {f : ℚ}
    (hg : valueOf? g.value = some r) (hf : valueOf? (following x g.value) = some f) (pos : 0 < r)
    (far : close x tolerance g.value = false) (less : f < r) : settled x tolerance g = false := by
  have changed : (following x g.value == g.value) = false := by
    rw [← Bool.not_eq_true, beq_iff hf hg]
    exact less.ne
  have falling : decide (g.value < following x g.value) = false := by
    rw [decide_eq_false_iff_not, lt_iff hg hf]
    exact less.not_gt
  unfold settled stalled
  rw [far, stuck_eq_false hg pos, changed, falling, Bool.and_false]
  rfl

/-- Past the first step the guesses fall as long as the iteration goes on. -/
theorem following_lt_of_not_settled {tolerance : Number} {g : Guess} {f : ℚ}
    (hg : valueOf? g.value = some r) (hf : valueOf? (following x g.value) = some f) (more : 0 < g.count)
    (h : settled x tolerance g = false) : f < r := by
  unfold settled stalled at h
  rw [Bool.or_eq_false_iff, Bool.or_eq_false_iff, Bool.or_eq_false_iff, Bool.and_eq_false_imp,
    ← Bool.not_eq_true (following x g.value == g.value), beq_iff hf hg, decide_eq_true_eq,
    decide_eq_false_iff_not, lt_iff hg hf] at h
  exact lt_of_le_of_ne (not_lt.mp (h.2.2 more)) h.2.1

end Test

/-! ## Guesses -/

/-- The number lies between the squares of `2 ^ a` and `2 ^ (a + 1)`, and the powers with exponents
`l` and `u` are far enough apart for all guesses. -/
structure Scale (a l u : Int) (x : Float) : Prop where
  between : Within (2 ^ (2 * a)) (2 ^ (2 * a + 2)) x
  low : l ≤ a - 1
  room : 2 * a + 3 ≤ l + u
  least : -1074 ≤ l
  high : 0 ≤ u
  most : u ≤ 1023

namespace Scale

variable {a l u : Int} {x guess : Float}

variable {v w : ℚ}

/-- A quotient by a guess is at most half the upper bound. -/
theorem div_le (h : Scale a l u x) (v_le : v ≤ 2 ^ (2 * a + 2)) (w_ge : 2 ^ l ≤ w) :
    v / w ≤ 2 ^ (u - 1) := by
  have := h.room
  have pos : 0 < w := lt_of_lt_of_le (zpow_pos two_pos l) w_ge
  rw [div_le_iff₀ pos]
  calc v ≤ 2 ^ (2 * a + 2) := v_le
    _ ≤ 2 ^ (u - 1 + l) := zpow_le_zpow_right₀ one_le_two (by omega)
    _ = 2 ^ (u - 1) * 2 ^ l := zpow_add₀ two_ne_zero _ _
    _ ≤ 2 ^ (u - 1) * w := mul_le_mul_of_nonneg_left w_ge (by positivity)

/-- A guess or the quotient by it may be below `2 ^ a`, but not both are. -/
theorem le_or_le_div {a : Int} (v_ge : 2 ^ (2 * a) ≤ v) (pos : 0 < w) :
    2 ^ a ≤ w ∨ 2 ^ a ≤ v / w := by
  rcases le_or_gt (2 ^ a) w with ge | less
  · exact .inl ge
  · refine .inr ((le_div_iff₀ pos).mpr ?_)
    calc (2 : ℚ) ^ a * w ≤ 2 ^ a * 2 ^ a := by gcongr
      _ = 2 ^ (2 * a) := by rw [← zpow_add₀ two_ne_zero, two_mul]
      _ ≤ v := v_ge

theorem three_mul_eq (n : Int) : (3 : ℚ) * 2 ^ (n - 1) = 2 ^ n + 2 ^ (n - 1) := by
  rw [zpow_sub_one₀ two_ne_zero]
  ring

/-- The sum of a guess and the quotient by it. -/
theorem sum (h : Scale a l u x) (hguess : Within (2 ^ l) (2 ^ u) guess) :
    Within (2 ^ a) (3 * 2 ^ (u - 1)) (guess + x / guess) := by
  have := h.low
  have := h.room
  have := h.high
  have := h.least
  have := h.most
  obtain ⟨v, hv, v_ge, v_le⟩ := h.between
  obtain ⟨w, hw, w_ge, w_le⟩ := hguess
  have pos : 0 < w := lt_of_lt_of_le (zpow_pos two_pos l) w_ge
  have near : Near (x / guess) (v / w) := near_div hv hw pos.ne'
  have quotient_ge : 0 ≤ v / w := div_nonneg ((zpow_pos two_pos _).le.trans v_ge) pos.le
  have quotient_le : v / w ≤ 2 ^ (u - 1) := h.div_le v_le w_ge
  have gridLow : OnGrid (2 ^ a) := onGrid_two_zpow (by omega) (by omega)
  have gridQuotient : OnGrid (2 ^ (u - 1)) := onGrid_two_zpow (by omega) (by omega)
  have gridHigh : OnGrid (3 * 2 ^ (u - 1)) := onGrid_three_mul (by omega) (by omega)
  rw [three_mul_eq] at gridHigh ⊢
  rcases le_or_le_div v_ge pos with ge | ge
  · obtain ⟨q, hq, q_ge, q_le⟩ := near.within onGrid_zero gridQuotient quotient_ge quotient_le
    exact (near_add hw hq).within gridLow gridHigh (by linarith) (by linarith)
  · obtain ⟨q, hq, q_ge, q_le⟩ := near.within gridLow gridQuotient ge quotient_le
    exact (near_add hw hq).within gridLow gridHigh (by linarith) (by linarith)

theorem following (h : Scale a l u x) (hguess : Within (2 ^ l) (2 ^ u) guess) :
    Within (2 ^ l) (2 ^ u) (following x guess) := by
  have := h.low
  have := h.room
  have := h.high
  have := h.least
  have := h.most
  have hthree : (3 : ℚ) * 2 ^ (u - 1) / 2 = 3 * 2 ^ (u - 1 - 1) := by
    rw [mul_div_assoc, two_zpow_div_two]
  have half := within_half (h.sum hguess) (two_zpow_div_two a ▸ onGrid_two_zpow (by omega) (by omega))
    (hthree ▸ onGrid_three_mul (by omega) (by omega))
  refine half.mono ?_ ?_
  · rw [two_zpow_div_two]
    exact zpow_le_zpow_right₀ one_le_two (by omega)
  · rw [hthree, zpow_sub_one₀ two_ne_zero, zpow_sub_one₀ two_ne_zero]
    have : (0 : ℚ) < 2 ^ u := zpow_pos two_pos u
    linarith

/-- The guesses stay between the powers of two. -/
theorem run (h : Scale a l u x) (hguess : Within (2 ^ l) (2 ^ u) guess) (cap : Nat)
    (tolerance : Number) : Within (2 ^ l) (2 ^ u) (run cap x tolerance guess).1.value := by
  let P (g : Guess) : Prop := Within (2 ^ l) (2 ^ u) g.value
  have preserved (g : Guess) (hg : P g) : P (step x g) := h.following hg
  unfold Root.run
  exact testFirst_induction preserved cap hguess

end Scale

/-- Every positive number but the least one of the format has a scale, and the first guess for its
root, which is half the number, lies on it. -/
theorem exists_scale {x : Float} {v : ℚ} (hx : valueOf? x = some v)
    (large : 2 ^ (-1073 : Int) ≤ v) :
    ∃ a l, Scale a l 1023 x ∧ Within (2 ^ l) (2 ^ (1023 : Int)) (x / 2.0) := by
  have pos : 0 < v := lt_of_lt_of_le (zpow_pos two_pos _) large
  obtain ⟨a, above, below⟩ := exists_mem_Ico_zpow pos (show (1 : ℚ) < 4 by norm_num)
  have four (n : Int) : (4 : ℚ) ^ n = 2 ^ (2 * n) := by
    rw [zpow_mul]
    norm_num
  rw [four] at above below
  have range : v < 2 ^ (1024 : Int) := by
    have less := (onGrid_of_valueOf? hx).abs_lt
    rw [abs_of_pos pos, ← zpow_natCast] at less
    exact less
  have high : 2 * a < 1024 := (zpow_lt_zpow_iff_right₀ one_lt_two).mp (above.trans_lt range)
  have low : -1073 < 2 * (a + 1) :=
    (zpow_lt_zpow_iff_right₀ one_lt_two).mp (large.trans_lt below)
  rw [mul_add, mul_one] at below
  -- the least guess is half the number, or less than half the root
  obtain ⟨l, least, low_root, room, start⟩ : ∃ l : Int, -1074 ≤ l ∧ l ≤ a - 1 ∧
      2 * a + 3 ≤ l + 1023 ∧ (2 : ℚ) ^ (l + 1) ≤ v := by
    by_cases tiny : 2 * a ≤ -1074
    · exact ⟨-1074, le_rfl, by omega, by omega, large⟩
    · refine ⟨min (a - 1) (2 * a - 1), by omega, by omega, by omega, le_trans ?_ above⟩
      exact zpow_le_zpow_right₀ one_le_two (by omega)
  refine ⟨a, l, ⟨⟨v, hx, above, below.le⟩, low_root, room, least, by decide, le_rfl⟩, ?_⟩
  exact within_half_two_zpow ⟨v, hx, start, range.le⟩ least (by omega) le_rfl

end Root

end Calculator
