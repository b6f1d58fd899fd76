import Calculator.Proofs.Binary64.Units

/-!
# Steps towards the root of a whole number

Newton's iteration for the root of `n`, with the quotient and the sum rounded, as steps between exact
values. Let `r` be the whole number nearest to the root. The steps are bounded by numbers of the format
that rounding does not cross: from above a guess comes at least half as near to `r + 1/2` in each step,
and no guess falls below `r - 1/2`. Whether the guesses fall below `r + 1/2` too depends on how far the
root is below it. The root of `n` is about `d / (2 * r + 1)` below, where `d` is what `n` is short of
the square of `r + 1/2`, and if that is less than three quarters of a unit of the format then
`r + 1/2` is a fixed point.

Results:
1. `IsFollowing.halves`, `IsFollowing.le_half`: the guesses come down to `r + 1/2`.
2. `IsFollowing.not_below`: they do not fall below `r - 1/2`.
3. `IsFollowing.falls`: they fall below `r + 1/2`, unless the root is too near to it.
4. `IsFollowing.stays`: if it is they do not.
-/

namespace Calculator

open Binary64 Float.Model

namespace Root

/-! ## Definitions -/

/-- The guess that follows `v` in the iteration for the root of `a`. -/
def IsFollowing (a v f : ℚ) : Prop := ∃ q, IsNearest (a / v) q ∧ IsNearest (v + q) (2 * f)

/-- The whole number `r` is the nearest to the root of `n`, a number from two on that the format has. -/
structure IsNearestRoot (n r : Nat) : Prop where
  least : 2 ≤ n
  most : n ≤ 2 ^ 53
  below : r * r + 1 ≤ n + r
  above : n ≤ r * r + r

/-- The root of `n` is so little below `r + 1/2` that the format does not tell them apart. -/
def RoundsUp (n r : Nat) : Prop :=
  n = r * r + r ∧ 2 ^ 25 ≤ r ∨ n + 1 = r * r + r ∧ 2 ^ 26 ≤ r

instance (n r : Nat) : Decidable (RoundsUp n r) :=
  inferInstanceAs (Decidable (_ ∨ _))

/-- What `n` is short of the square of `r + 1/2`. -/
def shortfall (n r : Nat) : ℚ := (r + 1 / 2) * (r + 1 / 2) - n

/-- The distance of the numbers of the format from `2 ^ K` to `2 ^ (K + 1)`. -/
def unit (K : Nat) : ℚ := 2 ^ ((K : Int) - 52)

/-- The root lies between powers of two. -/
structure Binade (r K : Nat) : Prop where
  low : 2 ^ K ≤ r
  high : r + 1 ≤ 2 ^ (K + 1)
  most : K ≤ 26

variable {n r K : Nat} {a v f q : ℚ}

theorem unit_pos (K : Nat) : 0 < unit K := zpow_pos two_pos _

/-- From `2 ^ K` on the mantissas are full. -/
theorem two_pow_eq_units (K : Nat) : (2 : ℚ) ^ K = 2 ^ 52 * unit K := by
  unfold unit
  rw [two_pow_mul, Nat.cast_ofNat, add_sub_cancel, zpow_natCast]

/-! ## The number and its root -/

namespace IsNearestRoot

theorem one_le (h : IsNearestRoot n r) : 1 ≤ r := by
  have := h.least
  have := h.above
  rcases Nat.eq_zero_or_pos r with rfl | pos
  · omega
  · exact pos

theorem le (h : IsNearestRoot n r) : r ≤ 94906266 := by
  have := h.most
  have := h.below
  by_contra! more
  nlinarith

theorem exists_binade (h : IsNearestRoot n r) : ∃ K, Binade r K := by
  have nonzero : r ≠ 0 := by have := h.one_le; omega
  have low := Nat.log2_self_le nonzero
  refine ⟨r.log2, low, Nat.lt_log2_self, ?_⟩
  have less : 2 ^ r.log2 < 2 ^ 27 := low.trans_lt (h.le.trans_lt (by decide))
  have := (Nat.pow_lt_pow_iff_right one_lt_two).mp less
  omega

end IsNearestRoot

namespace Binade

/-- In units of the format `r + 1/2` is written with a long and even mantissa. -/
theorem exists_mantissa (h : Binade r K) :
    ∃ M : Nat, (r : ℚ) + 1 / 2 = M * unit K ∧ 2 ^ 52 + 2 < M ∧ M < 2 ^ 53 ∧ Even M := by
  obtain ⟨d, hd⟩ : ∃ d, 51 = K + d := ⟨51 - K, by have := h.most; omega⟩
  have more : 2 ^ 25 ≤ 2 ^ d := Nat.pow_le_pow_right two_pos (by have := h.most; omega)
  have full : 2 ^ K * 2 ^ d = 2 ^ 51 := by rw [← pow_add, ← hd]
  refine ⟨(2 * r + 1) * 2 ^ d, ?_, ?_, ?_, ?_⟩
  · unfold unit
    push_cast
    rw [mul_assoc, two_pow_mul, show (d : Int) + (K - 52) = -1 by omega, zpow_neg_one]
    ring
  · have := Nat.mul_le_mul_right (2 ^ d) h.low
    rw [full] at this
    rw [add_mul, one_mul, mul_assoc]
    omega
  · have := Nat.mul_le_mul_right (2 ^ d) h.high
    rw [pow_succ, mul_right_comm, full] at this
    have double : (2 * r + 1) * 2 ^ d + 2 ^ d = 2 * ((r + 1) * 2 ^ d) := by ring
    omega
  · exact (Nat.even_pow.mpr ⟨even_two, by have := h.most; omega⟩).mul_left _

end Binade

/-! ## How near the root is -/

theorem le_shortfall {d : Nat} (h : n + d ≤ r * r + r) : (d : ℚ) + 1 / 4 ≤ shortfall n r := by
  have h : ((n + d : Nat) : ℚ) ≤ (r * r + r : Nat) := by exact_mod_cast h
  push_cast at h
  unfold shortfall
  linarith

theorem shortfall_eq {d : Nat} (h : n + d = r * r + r) : shortfall n r = d + 1 / 4 := by
  have h : ((n + d : Nat) : ℚ) = (r * r + r : Nat) := by exact_mod_cast h
  push_cast at h
  unfold shortfall
  linarith

/-- If the root is not rounded up, then three halves of a unit make a difference to the quotient. -/
theorem IsNearestRoot.far (h : IsNearestRoot n r) (hK : Binade r K) (regular : ¬RoundsUp n r) :
    3 * ((r + 1 / 2) * unit K) < 2 * shortfall n r := by
  obtain ⟨low, high, most⟩ := hK
  have above := h.above
  unfold RoundsUp at regular
  have product {b : ℚ} (hb : (r : ℚ) + 1 / 2 ≤ b) : (r + 1 / 2) * unit K ≤ b * unit K :=
    mul_le_mul_of_nonneg_right hb (unit_pos K).le
  obtain tiny | rfl | rfl : K ≤ 24 ∨ K = 25 ∨ K = 26 := by omega
  · have few : r + 1 ≤ 2 ^ 25 := high.trans (Nat.pow_le_pow_right two_pos (by omega))
    have few : (r : ℚ) + 1 ≤ 2 ^ 25 := by exact_mod_cast few
    have small : unit K ≤ 2 ^ (-28 : Int) := zpow_le_zpow_right₀ one_le_two (by omega)
    have := product (show (r : ℚ) + 1 / 2 ≤ 2 ^ 25 by linarith)
    have := le_shortfall (d := 0) above
    norm_num at small this ⊢
    linarith
  · have few : (r : ℚ) + 1 ≤ 2 ^ 26 := by exact_mod_cast high
    have := product (show (r : ℚ) + 1 / 2 ≤ 2 ^ 26 by linarith)
    have := le_shortfall (n := n) (r := r) (d := 1) (by omega)
    norm_num [unit] at *
    linarith
  · have few : (r : ℚ) ≤ 94906266 := by exact_mod_cast h.le
    have := product (show (r : ℚ) + 1 / 2 ≤ 94906266 + 1 / 2 by linarith)
    have := le_shortfall (n := n) (r := r) (d := 2) (by omega)
    norm_num [unit] at *
    linarith

/-- A root that is rounded up is less than three quarters of a unit below. -/
theorem RoundsUp.near (h : RoundsUp n r) (hK : Binade r K) :
    2 * shortfall n r < 3 * ((r + 1 / 2) * unit K) ∧ shortfall n r ≤ 1 / 4 + r * unit K := by
  have product {e : Nat} (le : 2 ^ e ≤ r) : (2 : ℚ) ^ (2 * (e : Int) - 52) ≤ r * unit K := by
    have less : 2 ^ e < 2 ^ (K + 1) := le.trans_lt hK.high
    have more : e < K + 1 := (Nat.pow_lt_pow_iff_right one_lt_two).mp less
    have le : (2 : ℚ) ^ (e : Int) ≤ r := by
      rw [zpow_natCast]
      exact_mod_cast le
    calc (2 : ℚ) ^ (2 * (e : Int) - 52) = 2 ^ (e : Int) * 2 ^ ((e : Int) - 52) := by
          rw [← zpow_add₀ two_ne_zero]
          congr 1
          ring
      _ ≤ r * unit K := mul_le_mul le (zpow_le_zpow_right₀ one_le_two (by omega))
          (zpow_pos two_pos _).le (Nat.cast_nonneg r)
  have pos := unit_pos K
  rw [add_mul]
  rcases h with ⟨h, le⟩ | ⟨h, le⟩
  · have := product le
    rw [shortfall_eq (d := 0) h]
    norm_num at this ⊢
    constructor <;> linarith
  · have := product le
    rw [shortfall_eq (d := 1) h]
    norm_num at this ⊢
    constructor <;> linarith

/-! ## Steps within bounds -/

theorem IsNearestRoot.onGrid_half (h : IsNearestRoot n r) {d : Nat} (few : d ≤ 100) :
    OnGrid ((r : ℚ) + d / 2) := by
  have := h.le
  have grid := onGrid_half_intCast (b := 2 * r + d) (by rw [abs_of_nonneg (by omega)]; omega)
  rwa [show ((2 * r + d : Int) : ℚ) / 2 = r + d / 2 by push_cast; ring] at grid

namespace IsFollowing

theorem le {B N : ℚ} (h : IsFollowing a v f) (grid : OnGrid B) (grid' : OnGrid N)
    (quotient : a / v ≤ B) (sum : v + B ≤ N) : 2 * f ≤ N := by
  obtain ⟨q, hq, hf⟩ := h
  have := hq.le grid.onOpenGrid quotient
  exact hf.le grid'.onOpenGrid (by linarith)

theorem ge {B N : ℚ} (h : IsFollowing a v f) (grid : OnGrid B) (grid' : OnGrid N)
    (quotient : B ≤ a / v) (sum : N ≤ v + B) : N ≤ 2 * f := by
  obtain ⟨q, hq, hf⟩ := h
  have := hq.ge grid.onOpenGrid quotient
  exact hf.ge grid'.onOpenGrid (by linarith)

end IsFollowing

section Steps

/-- From `r + 1/2` on the quotient is no greater than that. -/
theorem IsNearestRoot.quotient_le (hn : IsNearestRoot n r) (above : (r : ℚ) + 1 / 2 ≤ v) :
    n / v ≤ (r : ℚ) + 1 / 2 := by
  have pos : (0 : ℚ) < r + 1 / 2 := by positivity
  have := le_shortfall (d := 0) hn.above
  unfold shortfall at this
  rw [div_le_iff₀ (pos.trans_le above)]
  push_cast at this
  nlinarith

variable (hn : IsNearestRoot n r) (h : IsFollowing n v f)
include hn h

namespace IsFollowing

/-- A guess above `r + 1/2` is followed by one at least half as near to it, to the next half. -/
theorem halves (above : (r : ℚ) + 1 / 2 ≤ v) {E : Nat} (few : E ≤ 2 ^ 52)
    (le : 2 * v ≤ 2 * r + 1 + 2 * E) : 2 * f ≤ 2 * r + 1 + E := by
  have := hn.le
  have grid : OnGrid ((2 * r + 1 + E : Nat) : ℚ) := onGrid_natCast (by omega)
  push_cast at grid
  exact h.le (hn.onGrid_half (d := 1) (by decide)) grid (hn.quotient_le above) (by push_cast; linarith)

/-- A guess no further than one half is followed by one that is not above. -/
theorem le_half (grid : OnGrid v) (above : (r : ℚ) + 1 / 2 ≤ v) (le : v ≤ r + 1) :
    f ≤ r + 1 / 2 := by
  have := hn.le
  have few : (r : ℚ) ≤ 94906266 := by exact_mod_cast this
  have gap := le_shortfall (d := 0) hn.above
  unfold shortfall at gap
  have difference : OnGrid ((2 * r + 1 : Int) - v) := by
    refine grid.intCast_sub (by linarith) (abs_le.mpr ?_)
    push_cast
    constructor <;> linarith
  have whole : OnGrid ((2 * r + 1 : Nat) : ℚ) := onGrid_natCast (by omega)
  push_cast at difference whole gap
  have := h.le difference whole ?_ (by linarith)
  · linarith
  · rw [div_le_iff₀ (by linarith)]
    nlinarith

/-- A guess below `r + 1/2` is followed by one not far above it. -/
theorem bounded (low : 2 * (r : ℚ) - 1 ≤ 2 * v) (below : v ≤ r + 1 / 2) : 2 * f ≤ 2 * r + 4 := by
  have := hn.le
  have one_le : (1 : ℚ) ≤ r := by exact_mod_cast hn.one_le
  have above : (n : ℚ) ≤ r * r + r := by exact_mod_cast hn.above
  have whole : OnGrid ((2 * r + 4 : Nat) : ℚ) := onGrid_natCast (by omega)
  push_cast at whole
  refine h.le (hn.onGrid_half (d := 7) (by decide)) whole ?_ (by push_cast; linarith)
  rw [div_le_iff₀ (by linarith)]
  push_cast
  nlinarith

/-- No guess falls below `r - 1/2`. -/
theorem not_below (grid : OnGrid v) (less : v < 2 ^ 53) (low : 2 * (r : ℚ) - 1 ≤ 2 * v) :
    2 * (r : ℚ) - 1 ≤ 2 * f := by
  have := hn.le
  have one_le : (1 : ℚ) ≤ r := by exact_mod_cast hn.one_le
  have below : (r * r + 1 : ℚ) ≤ n + r := by exact_mod_cast hn.below
  have difference : OnGrid ((2 * r - 1 : Int) - v) := by
    refine grid.intCast_sub less (abs_le.mpr ?_)
    push_cast
    constructor <;> linarith
  have whole : OnGrid ((2 * r - 1 : Int) : ℚ) :=
    onGrid_intCast (by rw [abs_lt]; constructor <;> omega)
  push_cast at difference whole
  refine h.ge difference whole ?_ (by linarith)
  rw [le_div_iff₀ (by linarith)]
  nlinarith [sq_nonneg (2 * v - (2 * r - 1))]

end IsFollowing

end Steps

/-! ## Steps that fall -/

/-- A guess from which the quotient is two units away is followed by one that is less. -/
theorem lt_of_quotient_le (hf : IsNearest (v + q) (2 * f)) (grid : OnGrid v) {k : Nat}
    (low : 2 ^ k ≤ v) (high : v < 2 ^ (k + 1)) (le : q ≤ v - 2 * unit k) : f < v := by
  have pos := unit_pos k
  have large : (2 : ℚ) ^ (k : Int) ≤ |v| := by
    rw [zpow_natCast]
    exact low.trans (le_abs_self v)
  obtain ⟨V, hV⟩ := grid.exists_units large
  change v = V * unit k at hV
  have full := two_pow_eq_units k
  have long : (2 : Int) ^ 52 ≤ V := by
    rw [full, hV, mul_le_mul_iff_of_pos_right pos] at low
    exact_mod_cast low
  have short : V < (2 : Int) ^ 53 := by
    rw [pow_succ, full, hV, mul_right_comm, mul_lt_mul_iff_of_pos_right pos] at high
    exact_mod_cast high
  have previous : OnOpenGrid (2 * (v - unit k)) := by
    refine ⟨V - 1, k - 51, ?_, by omega, ?_⟩
    · rw [abs_of_nonneg (by omega)]
      omega
    · rw [hV, show (k : Int) - 51 = k - 52 + 1 by ring, zpow_add_one₀ two_ne_zero]
      unfold unit
      push_cast
      ring
  have := hf.le previous (by linarith)
  linarith

namespace IsFollowing

section Falls

variable (hn : IsNearestRoot n r) (h : IsFollowing n v f) (grid : OnGrid v)
include hn h grid

/-- From `r + 1` on the guesses fall. -/
theorem falls_beyond (beyond : (r : ℚ) + 1 ≤ v) : f < v := by
  have few : (r : ℚ) ≤ 94906266 := by exact_mod_cast hn.le
  have one_le : (1 : ℚ) ≤ r := by exact_mod_cast hn.one_le
  obtain ⟨k, low, high⟩ := exists_nat_pow_near (show 1 ≤ v by linarith) (one_lt_two : (1 : ℚ) < 2)
  obtain ⟨q, hq, hf⟩ := h
  refine lt_of_quotient_le hf grid low high ?_
  have quotient := hq.le (hn.onGrid_half (d := 1) (by decide)).onOpenGrid
    (by push_cast; exact hn.quotient_le (by linarith))
  have full := two_pow_eq_units k
  push_cast at quotient
  linarith

/-- If the root is not rounded up then the guesses fall from `r + 1/2` on, too. -/
theorem falls (regular : ¬RoundsUp n r) (above : (r : ℚ) + 1 / 2 ≤ v) : f < v := by
  rcases le_or_gt ((r : ℚ) + 1) v with beyond | near
  · exact h.falls_beyond hn grid beyond
  obtain ⟨K, hK⟩ := hn.exists_binade
  obtain ⟨M, hM, long, short, -⟩ := hK.exists_mantissa
  obtain ⟨q, hq, hf⟩ := h
  have pos : (0 : ℚ) < r + 1 / 2 := by positivity
  have low : (2 : ℚ) ^ K ≤ r := by exact_mod_cast hK.low
  have high : (r : ℚ) + 1 ≤ 2 ^ (K + 1) := by exact_mod_cast hK.high
  refine lt_of_quotient_le (k := K) hf grid (by linarith) (by linarith) ?_
  -- the quotient is nearest to two units below `r + 1/2`, or to less
  have hcount : ((M - 2 : Nat) : ℚ) * unit K = r + 1 / 2 - 2 * unit K := by
    rw [hM, Nat.cast_sub (by omega)]
    push_cast
    ring
  have canonical : Canonical (M - 2) (K - 52) :=
    ⟨by omega, by omega, .inl (by omega)⟩
  have far := hn.far hK regular
  have less : n / v < ((M - 2 : Nat) : ℚ) * unit K + unit K / 2 := by
    have decreasing : n / v ≤ (n : ℚ) / (r + 1 / 2) := by gcongr
    refine decreasing.trans_lt ?_
    unfold shortfall at far
    rw [hcount, div_lt_iff₀ pos]
    nlinarith
  have quotient : q ≤ ((M - 2 : Nat) : ℚ) * unit K :=
    hq.le_of_lt_half_unit canonical (by omega) less
  linarith

end Falls

end IsFollowing

/-- Near `r + 1/2`, if the root is rounded up, a guess is as far above as the quotient is below, but for
one unit at most. -/
theorem RoundsUp.le_quotient (up : RoundsUp n r) (hK : Binade r K) (hq : IsNearest (n / v) q)
    (above : (r : ℚ) + 1 / 2 ≤ v) {m : Nat} (hm : m * unit K = 2 * (r + 1 / 2) - v - unit K)
    (short : m < 2 ^ 53) : m * unit K ≤ q := by
  obtain ⟨close, few⟩ := up.near hK
  have pos := unit_pos K
  have v_pos : 0 < v := lt_of_lt_of_le (by positivity) above
  have distance : m * unit K * v =
      n + shortfall n r - (v - (r + 1 / 2)) * (v - (r + 1 / 2)) - unit K * v := by
    rw [hm]
    unfold shortfall
    ring
  by_cases enough : m * unit K * v ≤ n
  · have grid : OnOpenGrid (m * unit K) := by
      refine ⟨m, K - 52, ?_, by omega, by rw [Int.cast_natCast, unit]⟩
      rw [Nat.abs_cast]
      exact_mod_cast short
    exact hq.ge grid ((le_div_iff₀ v_pos).mpr enough)
  · -- the guess is less than half above, so the bound has a long mantissa
    have inside : v - (r + 1 / 2) < 1 / 2 - unit K := by
      rw [distance, not_le] at enough
      by_contra! more
      nlinarith
    have low : (2 : ℚ) ^ K ≤ r := by exact_mod_cast hK.low
    have full := two_pow_eq_units K
    have long : 2 ^ 52 < m := by
      have : (2 : ℚ) ^ 52 * unit K < m * unit K := by linarith
      exact_mod_cast (mul_lt_mul_iff_of_pos_right pos).mp this
    refine hq.ge_of_half_unit_lt ⟨short, by omega, .inl long.le⟩ long ?_
    change m * unit K - unit K / 2 < n / v
    rw [lt_div_iff₀ v_pos, sub_mul, distance]
    nlinarith [mul_self_nonneg (v - (r + 1 / 2))]

/-- A guess that is far enough above `r + 1/2` has a quotient that is no further below. -/
theorem IsFollowing.ge_of_far (hn : IsNearestRoot n r) (h : IsFollowing n v f) (grid : OnGrid v)
    (less : v < 2 ^ 53) (above : (r : ℚ) + 1 / 2 ≤ v)
    (far : shortfall n r ≤ (v - (r + 1 / 2)) * (v - (r + 1 / 2))) : r + 1 / 2 ≤ f := by
  have few := hn.le
  have difference : OnGrid ((2 * r + 1 : Int) - v) := by
    refine grid.intCast_sub less (abs_le.mpr ?_)
    push_cast
    constructor <;> linarith
  have whole : OnGrid ((2 * r + 1 : Nat) : ℚ) := onGrid_natCast (by omega)
  push_cast at difference whole
  have := h.ge difference whole ?_ (by linarith)
  · linarith
  · rw [le_div_iff₀ (lt_of_lt_of_le (by positivity) above)]
    unfold shortfall at far
    linarith

/-- If the root is rounded up, the number that is one unit further below `r + 1/2` than a near guess is
above is a whole number of units. -/
theorem RoundsUp.exists_reflected (up : RoundsUp n r) (hn : IsNearestRoot n r) (hK : Binade r K)
    {M : Nat} (hM : (r : ℚ) + 1 / 2 = M * unit K) (grid : OnGrid v) (above : (r : ℚ) + 1 / 2 ≤ v)
    (near : (v - (r + 1 / 2)) * (v - (r + 1 / 2)) < shortfall n r) :
    ∃ m : Nat, m * unit K = 2 * (r + 1 / 2) - v - unit K ∧ m < M := by
  have pos := unit_pos K
  have large : (2 : ℚ) ^ (K : Int) ≤ |v| := by
    have low : (2 : ℚ) ^ K ≤ r := by exact_mod_cast hK.low
    rw [zpow_natCast]
    exact (by linarith : _ ≤ v).trans (le_abs_self v)
  obtain ⟨V, hV⟩ := grid.exists_units large
  change v = V * unit K at hV
  have hcount : ((2 * M - V - 1 : Int) : ℚ) * unit K = 2 * (r + 1 / 2) - v - unit K := by
    rw [hM, hV]
    push_cast
    ring
  have mantissas : (M : Int) ≤ V := by
    rw [hM, hV, mul_le_mul_iff_of_pos_right pos] at above
    exact_mod_cast above
  have nonneg : 0 ≤ 2 * (M : Int) - V - 1 := by
    have small : unit K ≤ 2 ^ (-26 : Int) :=
      zpow_le_zpow_right₀ one_le_two (by have := hK.most; omega)
    norm_num at small
    have one_le : (1 : ℚ) ≤ r := by exact_mod_cast hn.one_le
    have few := (up.near hK).2
    -- otherwise the guess is above by more than the number is short of the square
    by_contra! negative
    have negative : ((2 * M - V - 1 : Int) : ℚ) < 0 := Int.cast_lt_zero.mpr negative
    have beyond := hcount ▸ mul_neg_of_neg_of_pos negative pos
    have more : (r : ℚ) + 1 / 4 < v - (r + 1 / 2) := by linarith
    have square := mul_self_lt_mul_self (by positivity) more
    have product := mul_le_mul_of_nonneg_left small (Nat.cast_nonneg r)
    nlinarith
  obtain ⟨m, hm⟩ := Int.eq_ofNat_of_zero_le nonneg
  rw [hm, Int.cast_natCast] at hcount
  exact ⟨m, hcount, by omega⟩

/-- If the root is rounded up then no guess falls below `r + 1/2`. -/
theorem IsFollowing.stays (hn : IsNearestRoot n r) (h : IsFollowing n v f) (grid : OnGrid v)
    (up : RoundsUp n r) (less : v < 2 ^ 53) (above : (r : ℚ) + 1 / 2 ≤ v) : r + 1 / 2 ≤ f := by
  rcases le_or_gt (shortfall n r) ((v - (r + 1 / 2)) * (v - (r + 1 / 2))) with far | near
  · exact h.ge_of_far hn grid less above far
  obtain ⟨K, hK⟩ := hn.exists_binade
  obtain ⟨M, hM, long, short, even⟩ := hK.exists_mantissa
  obtain ⟨m, hm, fewer⟩ := up.exists_reflected hn hK hM grid above near
  obtain ⟨q, hq, hf⟩ := h
  have quotient := up.le_quotient hK hq above hm (by omega)
  -- the sum is half a unit of its own below twice `r + 1/2` at most, and that has an even mantissa
  have double : (2 : ℚ) ^ ((K : Int) - 51) = 2 * unit K := by
    rw [show (K : Int) - 51 = K - 52 + 1 by ring, zpow_add_one₀ two_ne_zero, mul_comm]
    rfl
  have sum := hf.ge_of_even (e := K - 51) ⟨short, by omega, .inl (by omega)⟩ (by omega) even (by
    rw [double]
    linarith)
  rw [double] at sum
  linarith

end Root

end Calculator
