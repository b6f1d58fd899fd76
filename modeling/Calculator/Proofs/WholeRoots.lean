import Calculator.Proofs.RootSafety
import Calculator.Proofs.RootSteps

/-!
# Roots of whole numbers

The square root of a whole number from two to `2 ^ 53`, with the default tolerance, is the whole number
`r` nearest to the root, unless the root is so little below `r + 1/2` that the format does not tell
them apart: then it is `r + 1`. The first guess is up to `2 ^ 52` too great, and that is halved in each
step, so after 55 steps the guesses are below `r + 1/2`, or at it if the root is rounded up. The
iteration does not end before: the square of a guess that is not below is at least a quarter too great,
which is more than the tolerance, and the next guess is less. Below, the guesses fall as long as the
iteration goes on, but never below `r - 1/2`.

Results:
1. `Root.run_ends`: what the steps preserve of the values, the iteration preserves.
2. `Root.run_regular`, `Root.run_up`: where the iteration ends.
3. `squareRoot_nearest_or_up`: the square root of a whole number.
-/

namespace Calculator

open Binary64 Logging

namespace Root

/-! ## Definitions -/

/-- How much the double of the guess may be above `2 * r + 1` after `k` steps. -/
def excess (k : Nat) : Nat := 2 ^ 53 / 2 ^ k

variable {n r k : Nat} {x guess : Float} {v w f : ℚ}

theorem excess_le (k : Nat) : excess k ≤ 2 ^ 53 := Nat.div_le_self _ _

theorem excess_eq_zero (h : 54 ≤ k) : excess k = 0 :=
  Nat.div_eq_of_lt (Nat.pow_lt_pow_right (by decide) (by omega))

theorem excess_eq (h : k ≤ 53) : excess k = 2 ^ (53 - k) := Nat.pow_div h two_pos

/-- The excess is halved until it is one, and then there is none. -/
theorem excess_cases (k : Nat) :
    excess k = 2 * excess (k + 1) ∨ excess k ≤ 1 ∧ excess (k + 1) = 0 := by
  rcases lt_or_ge k 53 with less | ge
  · left
    rw [excess_eq less.le, excess_eq less, ← pow_succ']
    congr 1
    omega
  · right
    refine ⟨?_, excess_eq_zero (by omega)⟩
    rcases ge.eq_or_lt with rfl | more
    · exact (excess_eq le_rfl).le
    · exact (excess_eq_zero more).le.trans zero_le_one

/-! ## One step -/

/-- The step between guesses is the one between their values. -/
theorem exists_isFollowing (hn : IsNearestRoot n r) (hx : valueOf? x = some (n : ℚ))
    (hguess : valueOf? guess = some v) (low : 1 / 2 ≤ v) (less : v < 2 ^ 53) :
    ∃ f, valueOf? (following x guess) = some f ∧ IsFollowing n v f := by
  have pos : 0 < v := by linarith
  have most : (n : ℚ) ≤ 2 ^ 53 := by exact_mod_cast hn.most
  have grid {e : Int} (least : 0 ≤ e) (most : e ≤ 60) : OnGrid (2 ^ e) :=
    onGrid_two_zpow (by omega) (by omega)
  obtain ⟨q, hq, q_ge, q_le⟩ := (near_div hx hguess pos.ne').within onGrid_zero
    (grid (e := 54) (by decide) (by decide)) (by positivity) (by
      rw [div_le_iff₀ pos]
      norm_num
      linarith)
  obtain ⟨s, hs, s_ge, -⟩ := (near_add hguess hq).within onGrid_half
    (grid (e := 55) (by decide) (by decide)) (by linarith) (by norm_num at q_le ⊢; linarith)
  have large : (2 : ℚ) ^ (-1021 : Int) ≤ |s| :=
    calc (2 : ℚ) ^ (-1021 : Int) ≤ 2 ^ (-1 : Int) := zpow_le_zpow_right₀ one_le_two (by decide)
      _ = 1 / 2 := by norm_num
      _ ≤ |s| := s_ge.trans (le_abs_self s)
  have half : OnGrid (s / 2) := (onGrid_of_valueOf? hs).div_two large
  have hf := (near_div hs valueOf?_two two_ne_zero).valueOf?_eq half
  refine ⟨s / 2, hf, q, (rounded_div hx hguess pos.ne').isNearest hq, ?_⟩
  rw [mul_div_cancel₀ s two_ne_zero]
  exact (rounded_add hguess hq).isNearest hs

/-- From `r + 1/2` on a guess is followed by one with less excess. -/
theorem IsFollowing.le_excess (hn : IsNearestRoot n r) (h : IsFollowing n v f) (grid : OnGrid v)
    (above : (r : ℚ) + 1 / 2 ≤ v) (le : 2 * v ≤ 2 * r + 1 + excess k) :
    2 * f ≤ 2 * r + 1 + excess (k + 1) := by
  rcases excess_cases k with half | ⟨one, zero⟩
  · have few : excess (k + 1) ≤ 2 ^ 52 := by have := excess_le k; omega
    rw [half] at le
    push_cast at le
    exact h.halves hn above few le
  · have one : (excess k : ℚ) ≤ 1 := by exact_mod_cast one
    rw [zero, Nat.cast_zero]
    linarith [h.le_half hn grid above (by linarith)]

theorem lt_of_le_excess (hn : IsNearestRoot n r) (le : 2 * v ≤ 2 * r + 1 + excess k) : v < 2 ^ 53 := by
  have few : (r : ℚ) ≤ 94906266 := by exact_mod_cast hn.le
  have most : (excess k : ℚ) ≤ 2 ^ 53 := by exact_mod_cast excess_le k
  linarith

/-! ## The test -/

/-- Above the number the format has another one, and not far. -/
theorem IsNearestRoot.exists_onGrid (hn : IsNearestRoot n r) (gap : (n : ℚ) + 1 / 4 ≤ w)
    (gap' : 2 ^ 51 ≤ n → (n : ℚ) + 1 ≤ w) (gap'' : n = 2 ^ 53 → (n : ℚ) + 2 ≤ w) :
    ∃ t, OnGrid t ∧ (n : ℚ) + 1 / 4 ≤ t ∧ t ≤ w := by
  rcases lt_or_ge n (2 ^ 51) with small | large
  · have grid : OnGrid ((4 * n + 1 : Int) * 2 ^ (-2 : Int)) :=
      ⟨4 * n + 1, -2, by rw [abs_of_nonneg (by omega)]; omega, by decide, by decide, rfl⟩
    have heq : ((4 * n + 1 : Int) : ℚ) * 2 ^ (-2 : Int) = n + 1 / 4 := by
      push_cast
      norm_num
      ring
    rw [heq] at grid
    exact ⟨_, grid, le_rfl, gap⟩
  rcases hn.most.lt_or_eq with small | rfl
  · have grid : OnGrid ((n + 1 : Nat) : ℚ) := onGrid_natCast_le (by omega)
    push_cast at grid
    exact ⟨_, grid, by linarith, gap' large⟩
  · have heq : ((2 ^ 53 : Nat) : ℚ) + 2 = (2 ^ 52 + 1 : Int) * 2 ^ (1 : Int) := by norm_num
    have grid : OnGrid ((2 ^ 52 + 1 : Int) * 2 ^ (1 : Int)) :=
      ⟨2 ^ 52 + 1, 1, by decide, by decide, by decide, rfl⟩
    exact ⟨_, heq ▸ grid, by linarith, gap'' rfl⟩

/-- A square that is greater by so much is not within the tolerance. -/
theorem close_eq_false (hn : IsNearestRoot n r) (hx : valueOf? x = some (n : ℚ))
    (hguess : valueOf? guess = some v) (less : |v| < 2 ^ 53) (gap : (n : ℚ) + 1 / 4 ≤ v * v)
    (gap' : 2 ^ 51 ≤ n → (n : ℚ) + 1 ≤ v * v) (gap'' : n = 2 ^ 53 → (n : ℚ) + 2 ≤ v * v) :
    close x (.real coarseTolerance) guess = false := by
  obtain ⟨t, grid, above, below⟩ := hn.exists_onGrid gap gap' gap''
  have square : v * v ≤ 2 ^ (106 : Int) := by
    have := mul_self_le_mul_self (abs_nonneg v) less.le
    rw [abs_mul_abs_self] at this
    norm_num at this ⊢
    linarith
  have huge : OnGrid (2 ^ (106 : Int)) := onGrid_two_zpow (by decide) (by decide)
  obtain ⟨p, hp, p_ge, p_le⟩ := (near_mul hguess hguess).within grid huge below square
  have quarter : OnGrid (2 ^ (-2 : Int)) := onGrid_two_zpow (by decide) (by decide)
  obtain ⟨d, hd, d_ge, -⟩ := (near_sub hp hx).within quarter huge (by norm_num; linarith)
    (by have : (0 : ℚ) ≤ n := Nat.cast_nonneg n; linarith)
  rw [← Bool.not_eq_true, close_iff hd valueOf?_coarseTolerance, not_le]
  refine lt_of_lt_of_le ?_ (d_ge.trans (le_abs_self d))
  norm_num

/-- The square of a guess from `r + 1` on is too great. -/
theorem close_eq_false_beyond (hn : IsNearestRoot n r) (hx : valueOf? x = some (n : ℚ))
    (hguess : valueOf? guess = some v) (less : v < 2 ^ 53) (beyond : (r : ℚ) + 1 ≤ v) :
    close x (.real coarseTolerance) guess = false := by
  have above : (n : ℚ) ≤ r * r + r := by exact_mod_cast hn.above
  have one_le : (1 : ℚ) ≤ r := by exact_mod_cast hn.one_le
  have square : (n : ℚ) + 2 ≤ v * v := by nlinarith
  refine close_eq_false hn hx hguess ?_ (by linarith) (fun _ => by linarith) fun _ => square
  rwa [abs_of_pos (by linarith)]

/-- If the root is not rounded up, the square of a guess from `r + 1/2` on is too great. -/
theorem close_eq_false_above (hn : IsNearestRoot n r) (regular : ¬RoundsUp n r)
    (hx : valueOf? x = some (n : ℚ)) (hguess : valueOf? guess = some v) (less : v < 2 ^ 53)
    (above : (r : ℚ) + 1 / 2 ≤ v) : close x (.real coarseTolerance) guess = false := by
  have square : n + shortfall n r ≤ v * v := by
    unfold shortfall
    nlinarith [mul_self_le_mul_self (by positivity) above]
  have short := hn.above
  have far {d : Nat} (h : n + d ≤ r * r + r) : (n : ℚ) + d + 1 / 4 ≤ v * v := by
    linarith [le_shortfall h]
  unfold RoundsUp at regular
  refine close_eq_false hn hx hguess ?_ ?_ (fun large => ?_) fun huge => ?_
  · rwa [abs_of_pos (lt_of_lt_of_le (by positivity) above)]
  · simpa using far (d := 0) short
  · have : 2 ^ 25 ≤ r := by
      by_contra! small
      nlinarith
    have := far (d := 1) (by omega)
    push_cast at this
    linarith
  · have : 2 ^ 26 ≤ r := by
      by_contra! small
      nlinarith
    have := far (d := 2) (by omega)
    push_cast at this
    linarith

/-! ## The whole iteration -/

/-- The first guess is half the number. -/
theorem valueOf?_first (hn : IsNearestRoot n r) (hx : valueOf? x = some (n : ℚ)) :
    valueOf? (x / 2.0) = some ((n : ℚ) / 2) := by
  have least : (2 : ℚ) ≤ n := by exact_mod_cast hn.least
  refine (near_div hx valueOf?_two two_ne_zero).valueOf?_eq ((onGrid_of_valueOf? hx).div_two ?_)
  calc (2 : ℚ) ^ (-1021 : Int) ≤ 1 := zpow_le_one_of_nonpos₀ one_le_two (by decide)
    _ ≤ |(n : ℚ)| := (by linarith : (1 : ℚ) ≤ n).trans (le_abs_self _)

/-- The first guess is within the excess that no step has halved. -/
theorem first_le_excess (hn : IsNearestRoot n r) : 2 * ((n : ℚ) / 2) ≤ 2 * r + 1 + excess 0 := by
  have most : (n : ℚ) ≤ 2 ^ 53 := by exact_mod_cast hn.most
  have nonneg : (0 : ℚ) ≤ r := Nat.cast_nonneg r
  rw [excess_eq (by decide)]
  push_cast
  linarith

/-- What the steps preserve of the values, the iteration preserves. It ends after all its steps, or in a
guess that is close, or in one that the next is not below. -/
theorem run_ends (hn : IsNearestRoot n r) (hx : valueOf? x = some (n : ℚ)) {P : Nat → ℚ → Prop}
    (first : P 0 ((n : ℚ) / 2)) (inside : ∀ {k v}, P k v → 1 / 2 ≤ v ∧ v < 2 ^ 53)
    (next : ∀ {k v f}, P k v → OnGrid v → IsFollowing n v f → (0 < k → f < v) → P (k + 1) f) :
    ∃ k g v, (run defaultCap.toNat x (.real coarseTolerance) (x / 2.0)).1.value = g ∧
      valueOf? g = some v ∧ P k v ∧ (k = defaultCap.toNat ∨
        close x (.real coarseTolerance) g = true ∨ ∃ f, IsFollowing n v f ∧ v ≤ f) := by
  have preserved (k : Nat) (g : Guess) (hg : g.count = k ∧ ∃ v, valueOf? g.value = some v ∧ P k v)
      (goes : settled x (.real coarseTolerance) g = false) :
      (step x g).count = k + 1 ∧ ∃ v, valueOf? (step x g).value = some v ∧ P (k + 1) v := by
    obtain ⟨rfl, v, hv, h⟩ := hg
    obtain ⟨low, less⟩ := inside h
    obtain ⟨f, hf, follows⟩ := exists_isFollowing hn hx hv low less
    exact ⟨rfl, f, hf, next h (onGrid_of_valueOf? hv) follows fun more =>
      following_lt_of_not_settled hv hf more goes⟩
  obtain ⟨k, ⟨-, v, hv, h⟩, ends⟩ := testFirst_ends _ preserved defaultCap.toNat (k := 0)
    (s := ⟨x / 2.0, 0⟩) ⟨rfl, _, valueOf?_first hn hx, first⟩
  refine ⟨k, _, v, rfl, hv, h, ?_⟩
  rcases ends with ⟨hsettled, -⟩ | ⟨rfl, -⟩
  · right
    obtain ⟨low, less⟩ := inside h
    obtain ⟨f, hf, follows⟩ := exists_isFollowing hn hx hv low less
    by_contra! neither
    have goes := not_settled_of_lt hv hf (by linarith) (Bool.eq_false_iff.mpr neither.1)
      (neither.2 f follows)
    exact Bool.eq_false_iff.mp goes hsettled
  · exact .inl (Nat.zero_add _)

/-! ## Roots that are not rounded up -/

/-- What is known of the value after `k` steps if the root is not rounded up. -/
structure Falling (r k : Nat) (v : ℚ) : Prop where
  low : 2 * (r : ℚ) - 1 ≤ 2 * v
  le : 2 * v ≤ 2 * r + 1 + excess k
  late : 55 ≤ k → v < r + 1 / 2

namespace Falling

theorem first (hn : IsNearestRoot n r) : Falling r 0 ((n : ℚ) / 2) where
  low := by
    have below : (r * r + 1 : ℚ) ≤ n + r := by exact_mod_cast hn.below
    have whole : (r : ℚ) = 1 ∨ (2 : ℚ) ≤ r := by
      have := hn.one_le
      exact_mod_cast (by omega : r = 1 ∨ 2 ≤ r)
    rcases whole with one | two <;> nlinarith
  le := first_le_excess hn
  late := nofun

theorem inside (hn : IsNearestRoot n r) (h : Falling r k v) : 1 / 2 ≤ v ∧ v < 2 ^ 53 := by
  have one_le : (1 : ℚ) ≤ r := by exact_mod_cast hn.one_le
  exact ⟨by linarith [h.low], lt_of_le_excess hn h.le⟩

/-- Below `r + 1/2` only the step from the first guess may lead up. -/
theorem next_of_lt (hn : IsNearestRoot n r) (h : Falling r k v) (grid : OnGrid v)
    (follows : IsFollowing n v f) (falls : 0 < k → f < v) (below : v < r + 1 / 2) :
    Falling r (k + 1) f := by
  have low := follows.not_below hn grid (h.inside hn).2 h.low
  match k with
  | 0 =>
    refine ⟨low, ?_, nofun⟩
    have one_le : (1 : ℚ) ≤ r := by exact_mod_cast hn.one_le
    have := follows.bounded hn h.low below.le
    rw [excess_eq (by decide)]
    push_cast
    linarith
  | k + 1 =>
    have less := (falls k.succ_pos).trans below
    have nonneg : (0 : ℚ) ≤ excess (k + 1 + 1) := Nat.cast_nonneg _
    exact ⟨low, by linarith, fun _ => less⟩

/-- From `r + 1/2` on the excess is halved, and when there is none the guess falls below. -/
theorem next_of_ge (hn : IsNearestRoot n r) (regular : ¬RoundsUp n r) (h : Falling r k v)
    (grid : OnGrid v) (follows : IsFollowing n v f) (above : (r : ℚ) + 1 / 2 ≤ v) :
    Falling r (k + 1) f where
  low := follows.not_below hn grid (h.inside hn).2 h.low
  le := follows.le_excess hn grid above h.le
  late enough := by
    have le := h.le
    rw [excess_eq_zero (by omega), Nat.cast_zero] at le
    exact (follows.falls hn grid regular above).trans_le (by linarith)

end Falling

/-- If the root is not rounded up the iteration ends between `r - 1/2` and `r + 1/2`. -/
theorem run_regular (hn : IsNearestRoot n r) (regular : ¬RoundsUp n r)
    (hx : valueOf? x = some (n : ℚ)) :
    ∃ v, valueOf? (run defaultCap.toNat x (.real coarseTolerance) (x / 2.0)).1.value = some v ∧
      2 * (r : ℚ) - 1 ≤ 2 * v ∧ v < r + 1 / 2 := by
  obtain ⟨k, g, v, rfl, hv, h, ends⟩ := run_ends hn hx (Falling.first hn) (Falling.inside hn)
    fun h grid follows falls => (lt_or_ge _ _).elim (h.next_of_lt hn grid follows falls)
      (h.next_of_ge hn regular grid follows)
  refine ⟨v, hv, h.low, ?_⟩
  by_contra! above
  rcases ends with rfl | hclose | ⟨f, follows, le⟩
  · exact (h.late (by decide)).not_ge above
  · have far := close_eq_false_above hn regular hx hv (h.inside hn).2 above
    exact Bool.eq_false_iff.mp far hclose
  · exact (follows.falls hn (onGrid_of_valueOf? hv) regular above).not_ge le

/-! ## Roots that are rounded up -/

/-- What is known of the value after `k` steps if the root is rounded up. -/
structure Staying (r k : Nat) (v : ℚ) : Prop where
  above : (r : ℚ) + 1 / 2 ≤ v
  le : 2 * v ≤ 2 * r + 1 + excess k

namespace Staying

theorem first (hn : IsNearestRoot n r) (up : RoundsUp n r) : Staying r 0 ((n : ℚ) / 2) where
  above := by
    have below : (r * r + 1 : ℚ) ≤ n + r := by exact_mod_cast hn.below
    have large : 2 ^ 25 ≤ r := by
      rcases up with ⟨-, le⟩ | ⟨-, le⟩ <;> omega
    have large : (2 : ℚ) ^ 25 ≤ r := by exact_mod_cast large
    nlinarith
  le := first_le_excess hn

theorem inside (hn : IsNearestRoot n r) (h : Staying r k v) : 1 / 2 ≤ v ∧ v < 2 ^ 53 := by
  have nonneg : (0 : ℚ) ≤ r := Nat.cast_nonneg r
  exact ⟨by linarith [h.above], lt_of_le_excess hn h.le⟩

theorem next (hn : IsNearestRoot n r) (up : RoundsUp n r) (h : Staying r k v) (grid : OnGrid v)
    (follows : IsFollowing n v f) : Staying r (k + 1) f where
  above := follows.stays hn grid up (h.inside hn).2 h.above
  le := follows.le_excess hn grid h.above h.le

end Staying

/-- If the root is rounded up the iteration ends between `r + 1/2` and `r + 1`. -/
theorem run_up (hn : IsNearestRoot n r) (up : RoundsUp n r) (hx : valueOf? x = some (n : ℚ)) :
    ∃ v, valueOf? (run defaultCap.toNat x (.real coarseTolerance) (x / 2.0)).1.value = some v ∧
      (r : ℚ) + 1 / 2 ≤ v ∧ v ≤ r + 1 := by
  obtain ⟨k, g, v, rfl, hv, h, ends⟩ := run_ends hn hx (Staying.first hn up) (Staying.inside hn)
    fun h grid follows _ => h.next hn up grid follows
  refine ⟨v, hv, h.above, ?_⟩
  by_contra! beyond
  rcases ends with rfl | hclose | ⟨f, follows, le⟩
  · have le := h.le
    rw [excess_eq_zero (by decide), Nat.cast_zero] at le
    linarith
  · have far := close_eq_false_beyond hn hx hv (h.inside hn).2 beyond.le
    exact Bool.eq_false_iff.mp far hclose
  · exact (follows.falls_beyond hn (onGrid_of_valueOf? hv) beyond.le).not_ge le

/-! ## Rounding to a whole number -/

/-- The number a unit below `r + 1`. -/
theorem Binade.onOpenGrid_pred {K : Nat} (h : Binade r K) : OnOpenGrid ((r : ℚ) + 1 - unit K) := by
  obtain ⟨d, hd⟩ : ∃ d, 52 = K + d := ⟨52 - K, by have := h.most; omega⟩
  have most := Nat.mul_le_mul_right (2 ^ d) h.high
  rw [pow_succ, mul_right_comm, ← pow_add, ← hd] at most
  have pos : 1 ≤ (r + 1) * 2 ^ d := Nat.mul_pos (Nat.succ_pos r) (Nat.pow_pos two_pos)
  refine ⟨((r + 1) * 2 ^ d : Nat) - 1, K - 52, ?_, by omega, ?_⟩
  · rw [abs_of_nonneg (by omega)]
    omega
  · unfold unit
    push_cast
    rw [sub_mul, one_mul, mul_assoc, two_pow_mul, show (d : Int) + (K - 52) = 0 by omega, zpow_zero,
      mul_one]

theorem floor_eq_of_regular (hn : IsNearestRoot n r) (grid : OnGrid v)
    (low : 2 * (r : ℚ) - 1 ≤ 2 * v) (below : v < r + 1 / 2) (hw : IsNearest (v + 1 / 2) w) :
    ⌊w⌋₊ = r := by
  have few := hn.le
  have whole : OnGrid (r : ℚ) := onGrid_natCast (by omega)
  have ge : (r : ℚ) ≤ w := hw.ge whole.onOpenGrid (by linarith)
  rw [Nat.floor_eq_iff ((Nat.cast_nonneg r).trans ge)]
  refine ⟨ge, ?_⟩
  rcases le_or_gt v r with le | more
  · have := hw.le (hn.onGrid_half (d := 1) (by decide)).onOpenGrid (by push_cast; linarith)
    push_cast at this
    linarith
  · obtain ⟨K, hK⟩ := hn.exists_binade
    obtain ⟨M, hM, long, -, -⟩ := hK.exists_mantissa
    have pos := unit_pos K
    rw [hM] at below
    have unit_le := grid.onOpenGrid.le_sub_unit (e := K - 52) (by omega) below
    change v ≤ M * unit K - unit K at unit_le
    have := hw.le hK.onOpenGrid_pred (by linarith)
    linarith

theorem floor_eq_of_up (hn : IsNearestRoot n r) (above : (r : ℚ) + 1 / 2 ≤ v) (le : v ≤ r + 1)
    (hw : IsNearest (v + 1 / 2) w) : ⌊w⌋₊ = r + 1 := by
  have ge := hw.ge (hn.onGrid_half (d := 2) (by decide)).onOpenGrid (by push_cast; linarith)
  have most := hw.le (hn.onGrid_half (d := 3) (by decide)).onOpenGrid (by push_cast; linarith)
  push_cast at ge most
  rw [Nat.floor_eq_iff (by linarith [(Nat.cast_nonneg r : (0 : ℚ) ≤ r)])]
  push_cast
  constructor <;> linarith

end Root

/-- The square root of a whole number from two on is where the iteration ends, rounded. -/
theorem squareRoot_of_run {n m : Nat} {x : Float} {v : ℚ} (hx : valueOf? x = some (n : ℚ))
    (least : 2 ≤ n)
    (hrun : valueOf? (Root.run defaultCap.toNat x (.real coarseTolerance) (x / 2.0)).1.value = some v)
    (pos : 0 < v) (le : v ≤ 2 ^ 53) (hm : ∀ w, IsNearest (v + 1 / 2) w → ⌊w⌋₊ = m)
    (short : m < 2 ^ 53) (nonzero : m ≠ 0) :
    (squareRoot defaultCap (.real x) (some (.real coarseTolerance))).Gives
      (· = .real (Float.ofNat m)) := by
  have least : (2 : ℚ) ≤ n := by exact_mod_cast least
  have hvalue : (Number.real x).value? = some (n : ℚ) := hx
  unfold squareRoot
  refine ensures_ite (fun test => ?_) fun _ => ?_
  · rw [Bool.or_eq_true, Number.equals_iff hvalue (Number.value?_int Int.cast_zero),
      Number.equals_iff hvalue (Number.value?_int Int.cast_one)] at test
    rcases test with zero | one <;> linarith
  refine ensures_ite (fun test => ?_) fun _ => ?_
  · rw [Number.isNaN, isNaN_eq_false hx, Bool.false_or,
      Number.less_iff hvalue (Number.value?_int Int.cast_zero)] at test
    linarith
  refine ensures_ite (fun test => ?_) fun _ => ?_
  · rw [eq_infinity_of_equals test] at hx
    cases hx
  refine (Root.newton_gives (Q := fun y => valueOf? y = some v) rfl rfl
    (Root.stuck_eq_false hrun pos) hrun).bind fun root hroot => ?_
  have within : Within 0 (2 ^ (1023 : Int)) root := by
    rw [← zpow_natCast] at le
    exact ⟨v, hroot, pos.le, le.trans (zpow_le_zpow_right₀ one_le_two (by decide))⟩
  refine (Root.rounded_ensures within).mono ?_ fun _ => id
  rintro _ ⟨y, w, rfl, hw, hy⟩
  rw [hm w ((rounded_add hroot valueOf?_half).isNearest hw)] at hy
  have nonzero : (m : ℚ) ≠ 0 := by exact_mod_cast nonzero
  exact congrArg _ (eq_of_valueOf?_ne_zero hy (valueOf?_ofNat short) nonzero)

/-- With the default tolerance the square root of a whole number `n` from two to `2 ^ 53` is the whole
number nearest to the root, or the next one if the root is too little below the half between them. The
latter does not happen to squares. -/
theorem squareRoot_nearest_or_up {n r : Nat} (least : 2 ≤ n) (most : n ≤ 2 ^ 53)
    (below : (2 * (r : Int) - 1) ^ 2 ≤ 4 * n) (above : 4 * (n : Int) < (2 * r + 1) ^ 2) {x : Float}
    (hx : valueOf? x = some (n : ℚ)) :
    (Builtin.sqrt.apply defaultCap [some (.real x)] none).Gives
        (· = .real (Float.ofNat (if Root.RoundsUp n r then r + 1 else r))) ∧
      (n = r * r → ¬Root.RoundsUp n r) := by
  have hn : Root.IsNearestRoot n r := by
    have expand : (2 * (r : Int) - 1) ^ 2 = 4 * (r * r : Nat) - 4 * r + 1 := by push_cast; ring
    have expand' : (2 * (r : Int) + 1) ^ 2 = 4 * (r * r : Nat) + 4 * r + 1 := by push_cast; ring
    rw [expand] at below
    rw [expand'] at above
    exact ⟨least, most, by omega, by omega⟩
  have few := hn.le
  have one_le := hn.one_le
  have few' : (r : ℚ) ≤ 94906266 := by exact_mod_cast few
  have one_le' : (1 : ℚ) ≤ r := by exact_mod_cast one_le
  constructor
  · refine ensures_lift_bind rfl ?_
    by_cases up : Root.RoundsUp n r
    · obtain ⟨v, hv, low, high⟩ := Root.run_up hn up hx
      rw [if_pos up]
      exact squareRoot_of_run hx least hv (by linarith) (by linarith)
        (fun w hw => Root.floor_eq_of_up hn low high hw) (by omega) (by omega)
    · obtain ⟨v, hv, low, high⟩ := Root.run_regular hn up hx
      rw [if_neg up]
      exact squareRoot_of_run hx least hv (by linarith) (by linarith)
        (fun w hw => Root.floor_eq_of_regular hn (onGrid_of_valueOf? hv) low high hw) (by omega)
        (by omega)
  · rintro rfl (⟨h, le⟩ | ⟨h, le⟩) <;> omega

/-- The root of ten. -/
theorem squareRoot_nearest_or_up_ten :
    (2 ≤ 10 ∧ 10 ≤ 2 ^ 53 ∧ (2 * ((3 : Nat) : Int) - 1) ^ 2 ≤ 4 * (10 : Nat) ∧
      4 * ((10 : Nat) : Int) < (2 * (3 : Nat) + 1) ^ 2 ∧
      valueOf? (Float.ofNat 10) = some ((10 : Nat) : ℚ)) ∧
    (Builtin.sqrt.apply defaultCap [some (.real (Float.ofNat 10))] none).Gives
        (· = .real (Float.ofNat (if Root.RoundsUp 10 3 then 3 + 1 else 3))) ∧
      (10 = 3 * 3 → ¬Root.RoundsUp 10 3) :=
  have hx := valueOf?_ofNat (n := 10) (by decide)
  ⟨⟨by decide, by decide, by decide, by decide, hx⟩,
    squareRoot_nearest_or_up (by decide) (by decide) (by decide) (by decide) hx⟩

/-- The root of the product of `2 ^ 25` and the next number is nearer to the former. -/
theorem squareRoot_misses_nearest :
    ((2 * (2 : Int) ^ 25 - 1) ^ 2 ≤ 4 * (2 ^ 25 * (2 ^ 25 + 1)) ∧
      4 * (2 ^ 25 * (2 ^ 25 + 1)) < (2 * (2 : Int) ^ 25 + 1) ^ 2) ∧
    ((Builtin.sqrt.apply defaultCap [some (.real (Float.ofNat (2 ^ 25 * (2 ^ 25 + 1))))] none).outcome
      []).1 = .ok (.real (Float.ofNat (2 ^ 25 + 1))) ∧
    Float.ofNat (2 ^ 25 + 1) ≠ Float.ofNat (2 ^ 25) := by
  decide +kernel

end Calculator
