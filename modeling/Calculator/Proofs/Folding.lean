import Calculator.Library.Inverse
import Calculator.Proofs.Roots

/-!
# The fold of the arcsine

An argument beyond the root of one half is folded: its arcsine is taken from that of the other leg of
the right triangle with hypotenuse one. This module shows that the leg is not beyond the root of one
half, so no argument is folded twice.

The square of the leg is at most two units of the format below one half, because the argument is at
least one unit beyond the root of one half. As long as a guess for the leg is beyond that root, its
square is too great and the next guess is less, so the iteration goes on; six steps from the first
guess, which is at most one quarter, are always enough.

Results:
1. `legSquare_spec`: what is left of one by the square of an argument that is folded.
2. `following_lt`: beyond the root of one half the guesses fall.
3. `run_leg`: the iteration ends at or below the root of one half.
-/

namespace Calculator

open Binary64

namespace Root

/-! ## Definitions -/

/-- The value of the root of one half in the format. -/
def half : ℚ := 6369051672525773 / 2 ^ 53

/-- No square of a leg is greater. -/
def mostSquare : ℚ := 1 / 2 - 1 / 2 ^ 52

/-- The square of a leg that is not zero, and its value. -/
structure IsLegSquare (x : Float) (t : ℚ) : Prop where
  value : valueOf? x = some t
  least : 1 / 2 ^ 53 ≤ t
  most : t ≤ mostSquare

/-- No guess for a leg is greater after so many steps. -/
def legBound : Nat → ℚ
  | 0 => 1 / 4
  | 1 => 9 / 8
  | 2 => 101 / 128
  | 3 => 729 / 1024
  | 4 => 46343 / 65536
  | 5 => 3037000506 / 2 ^ 32
  | _ => half

/-- The last bound. -/
theorem legBound_late (k : Nat) : legBound (k + 6) = half := rfl

theorem legBound_le (k : Nat) : legBound k ≤ 9 / 8 := by
  match k with
  | 0 | 1 | 2 | 3 | 4 | 5 => norm_num [legBound]
  | n + 6 => norm_num [legBound_late n, half]

theorem half_le_legBound (k : Nat) : half ≤ legBound (k + 1) := by
  match k with
  | 0 | 1 | 2 | 3 | 4 => norm_num [legBound, half]
  | n + 5 => exact (legBound_late n).ge

/-- The bounds of the guesses are numbers of the format, and so are their doubles. -/
theorem onGrid_legBound (k : Nat) : OnGrid (legBound k) ∧ OnGrid (2 * legBound k) := by
  obtain ⟨m, n, short, most, h⟩ : ∃ m n : Nat, m < 2 ^ 53 ∧ n ≤ 52 ∧ legBound k = m / 2 ^ (n + 1) := by
    match k with
    | 0 => exact ⟨1, 1, by decide, by decide, by norm_num [legBound]⟩
    | 1 => exact ⟨9, 2, by decide, by decide, by norm_num [legBound]⟩
    | 2 => exact ⟨101, 6, by decide, by decide, by norm_num [legBound]⟩
    | 3 => exact ⟨729, 9, by decide, by decide, by norm_num [legBound]⟩
    | 4 => exact ⟨46343, 15, by decide, by decide, by norm_num [legBound]⟩
    | 5 => exact ⟨3037000506, 31, by decide, by decide, by norm_num [legBound]⟩
    | n + 6 =>
      exact ⟨6369051672525773, 52, by decide, by decide, by norm_num [legBound_late n, half]⟩
  have fewer (d : Nat) (few : d ≤ 53) : OnGrid ((m : ℚ) / 2 ^ d) := by
    refine ⟨m, -d, by rw [Nat.abs_cast]; exact_mod_cast short, by omega, ?_, ?_⟩
    · unfold greatest
      omega
    · rw [Int.cast_natCast, zpow_neg, zpow_natCast, div_eq_mul_inv]
  rw [h]
  refine ⟨fewer (n + 1) (by omega), ?_⟩
  rw [pow_succ, mul_comm, div_mul_eq_mul_div, mul_div_mul_right _ _ two_ne_zero]
  exact fewer n (by omega)

/-- The next bound holds of the mean of a bound and the quotient by it, however it is rounded. -/
theorem legBound_room {k : Nat} (few : k < 5) :
    legBound (k + 1) + mostSquare / legBound (k + 1) + 1 / 2 ^ 52 ≤ 2 * legBound (k + 2) := by
  interval_cases k <;> norm_num [legBound, mostSquare, half]

theorem valueOf?_rootHalf : valueOf? rootHalf = some half :=
  valueOf?_eq_some (a := ⟨false, 6369051672525773, -53⟩) rfl
    (by norm_num [value, signed, half])

/-! ## Beyond the root of one half -/

variable {x guess : Float} {r t : ℚ}

/-- The numbers from one half to one are whole multiples of one unit. -/
theorem exists_halfUnits (grid : OnGrid r) (large : 1 / 2 ≤ r) : ∃ K : Int, r = K / 2 ^ 53 := by
  have least : (2 : ℚ) ^ (-1 : Int) ≤ |r| := by
    refine le_trans ?_ (le_abs_self r)
    norm_num
    linarith
  obtain ⟨K, hK⟩ := grid.exists_units least
  exact ⟨K, by rw [hK]; norm_num; ring⟩

theorem half_ge : 1 / 2 ≤ half := by norm_num [half]

/-- The next number of the format is a unit further. -/
theorem half_add_le (grid : OnGrid r) (beyond : half < r) : half + 1 / 2 ^ 53 ≤ r := by
  obtain ⟨K, rfl⟩ := exists_halfUnits grid (half_ge.trans beyond.le)
  unfold half at beyond ⊢
  rw [div_lt_div_iff_of_pos_right (by positivity)] at beyond
  rw [← add_div, div_le_div_iff_of_pos_right (by positivity)]
  exact_mod_cast beyond

/-- The square of the next number is two units above one half. -/
theorem square_ge (h : half + 1 / 2 ^ 53 ≤ r) : 1 / 2 + 1 / 2 ^ 52 ≤ r * r :=
  calc 1 / 2 + 1 / 2 ^ 52 ≤ (half + 1 / 2 ^ 53) * (half + 1 / 2 ^ 53) := by norm_num [half]
    _ ≤ r * r := mul_self_le_mul_self (by norm_num [half]) h

theorem within_square {B : ℚ} (hguess : valueOf? guess = some r) (beyond : half < |r|)
    (grid : OnGrid B) (le : r * r ≤ B) : Within (1 / 2 + 1 / 2 ^ 52) B (guess * guess) := by
  have hgrid : OnGrid (1 / 2 + 1 / 2 ^ 52) :=
    ⟨2 ^ 52 + 2, -53, by decide, by decide, by decide, by norm_num⟩
  have habs : half + 1 / 2 ^ 53 ≤ |r| :=
    half_add_le (onGrid_of_valueOf? (valueOf?_abs hguess)) beyond
  refine (near_mul hguess hguess).within hgrid grid ?_ le
  rw [← abs_mul_abs_self]
  exact square_ge habs

/-- What is left of one by the square of an argument that is folded. -/
theorem legSquare_spec {v : ℚ} (hx : valueOf? x = some v) (beyond : half < |v|) (le : |v| ≤ 1) :
    valueOf? (1.0 - x * x) = some 0 ∨ ∃ t, IsLegSquare (1.0 - x * x) t := by
  have hsquare : v * v ≤ 1 := by
    rw [← abs_mul_abs_self]
    exact mul_le_one₀ le (abs_nonneg v) le
  obtain ⟨p, hp, above, below⟩ := within_square hx beyond onGrid_one hsquare
  have near := near_sub valueOf?_one hp
  rcases below.eq_or_lt with rfl | less
  · rw [sub_self] at near
    exact .inl (near.valueOf?_eq onGrid_zero)
  · obtain ⟨K, rfl⟩ := exists_halfUnits (onGrid_of_valueOf? hp) (by linarith)
    have least : 1 / 2 ^ 53 ≤ 1 - (K : ℚ) / 2 ^ 53 := by
      rw [div_lt_one (by positivity)] at less
      have : (K : ℚ) + 1 ≤ 2 ^ 53 := by exact_mod_cast less
      rw [le_sub_iff_add_le, ← add_div, div_le_one (by positivity)]
      linarith
    have grid : OnGrid (1 / 2 ^ 53) := ⟨1, -53, by decide, by decide, by decide, by norm_num⟩
    have grid' : OnGrid mostSquare :=
      ⟨2 ^ 52 - 2, -53, by decide, by decide, by decide, by norm_num [mostSquare]⟩
    have most : 1 - (K : ℚ) / 2 ^ 53 ≤ mostSquare := by
      unfold mostSquare
      linarith
    obtain ⟨t, ht, t_ge, t_le⟩ := near.within grid grid' least most
    exact .inr ⟨t, ht, t_ge, t_le⟩

namespace IsLegSquare

variable {g : Guess}

theorem pos (h : IsLegSquare x t) : 0 < t := lt_of_lt_of_le (by norm_num) h.least

/-! ## Falling guesses -/

/-- A bound of the quotient, and one of the mean of the guess and that, bound the next guess if the
format has them. -/
theorem following_within (h : IsLegSquare x t) {B C : ℚ} (hguess : valueOf? guess = some r)
    (pos : 0 < r) (gridB : OnGrid B) (quotient : t / r ≤ B) (gridC : OnGrid C ∧ OnGrid (2 * C))
    (mean : r + B ≤ 2 * C) : Within 0 C (following x guess) := by
  obtain ⟨q, hq, q_ge, q_le⟩ := (near_div h.value hguess pos.ne').within onGrid_zero gridB
    (div_nonneg h.pos.le pos.le) quotient
  have hsum := (near_add hguess hq).within onGrid_zero gridC.2 (by linarith) (by linarith)
  have hhalf := within_half hsum (by rw [zero_div]; exact onGrid_zero)
    (by rw [mul_div_cancel_left₀ C two_ne_zero]; exact gridC.1)
  rwa [zero_div, mul_div_cancel_left₀ C two_ne_zero] at hhalf

/-- Below one the guess counts units of the format, and the quotient is three units below it. -/
theorem following_lt_of_lt_one (h : IsLegSquare x t) (hguess : valueOf? guess = some r)
    (beyond : half < r) (less : r < 1) : ∃ f, valueOf? (following x guess) = some f ∧ f < r := by
  have unit := half_add_le (onGrid_of_valueOf? hguess) beyond
  have pos : 0 < r := lt_of_lt_of_le (by norm_num [half]) unit
  have quotient : t / r ≤ half - 3 / 2 ^ 53 := by
    rw [div_le_iff₀ pos]
    calc t ≤ mostSquare := h.most
      _ ≤ (half - 3 / 2 ^ 53) * (half + 1 / 2 ^ 53) := by norm_num [mostSquare, half]
      _ ≤ (half - 3 / 2 ^ 53) * r := mul_le_mul_of_nonneg_left unit (by norm_num [half])
  have grid : OnGrid (half - 3 / 2 ^ 53) :=
    ⟨6369051672525770, -53, by decide, by decide, by decide, by norm_num [half]⟩
  obtain ⟨K, hK⟩ := exists_halfUnits (onGrid_of_valueOf? hguess) (half_ge.trans beyond.le)
  have short : |K - 2| < 2 ^ 53 := by
    rw [hK] at less unit
    rw [div_lt_one (by positivity)] at less
    unfold half at unit
    rw [← add_div, div_le_div_iff_of_pos_right (by positivity)] at unit
    have high : K < 2 ^ 53 := by exact_mod_cast less
    have low : 6369051672525773 + 1 ≤ K := by exact_mod_cast unit
    rw [abs_of_pos (by omega)]
    omega
  have gridMean : OnGrid (r - 2 / 2 ^ 53) :=
    ⟨K - 2, -53, short, by decide, by decide, by rw [hK]; push_cast; norm_num; ring⟩
  have gridSum : OnGrid (2 * (r - 2 / 2 ^ 53)) :=
    ⟨K - 2, -52, short, by decide, by decide, by rw [hK]; push_cast; norm_num; ring⟩
  obtain ⟨f, hf, -, f_le⟩ :=
    h.following_within hguess pos grid quotient ⟨gridMean, gridSum⟩ (by linarith)
  exact ⟨f, hf, by linarith⟩

/-- From one on the quotient is at most one half. -/
theorem following_lt_of_one_le (h : IsLegSquare x t) (hguess : valueOf? guess = some r)
    (ge : 1 ≤ r) (le : r ≤ 9 / 8) : ∃ f, valueOf? (following x guess) = some f ∧ f < r := by
  have pos : 0 < r := one_pos.trans_le ge
  have quotient : t / r ≤ 1 / 2 := by
    have most := h.most
    unfold mostSquare at most
    rw [div_le_iff₀ pos]
    linarith
  have grid : OnGrid (13 / 16) := ⟨13, -4, by decide, by decide, by decide, by norm_num⟩
  have grid' : OnGrid (2 * (13 / 16)) := ⟨13, -3, by decide, by decide, by decide, by norm_num⟩
  obtain ⟨f, hf, -, f_le⟩ :=
    h.following_within hguess pos onGrid_half quotient ⟨grid, grid'⟩ (by linarith)
  exact ⟨f, hf, by linarith⟩

/-- Beyond the root of one half the next guess is less. -/
theorem following_lt (h : IsLegSquare x t) (hguess : valueOf? guess = some r) (beyond : half < r)
    (le : r ≤ 9 / 8) : ∃ f, valueOf? (following x guess) = some f ∧ f < r :=
  (lt_or_ge r 1).elim (h.following_lt_of_lt_one hguess beyond)
    fun ge => h.following_lt_of_one_le hguess ge le

/-- Beyond the root of `s` the mean of a number and the quotient of `s` by it grows with the number. -/
theorem add_div_le_add_div {s v w : ℚ} (pos : 0 < v) (square : s ≤ v * v) (le : v ≤ w) :
    v + s / v ≤ w + s / w := by
  have pos' : 0 < w := pos.trans_le le
  have product : s ≤ v * w := square.trans (mul_le_mul_of_nonneg_left le pos.le)
  have gap : w + s / w - (v + s / v) = (w - v) * (v * w - s) / (v * w) := by
    field_simp
    ring
  rw [← sub_nonneg, gap]
  exact div_nonneg (mul_nonneg (sub_nonneg.mpr le) (sub_nonneg.mpr product)) (mul_pos pos pos').le

/-- The format has numbers that are less than a unit above one that is no more than one. -/
theorem exists_onGrid_ge {q : ℚ} (nonneg : 0 ≤ q) (le : q ≤ 1) :
    ∃ B, OnGrid B ∧ q ≤ B ∧ B ≤ q + 1 / 2 ^ 52 := by
  refine ⟨(⌈q * 2 ^ 52⌉ : Int) * 2 ^ (-52 : Int), ⟨_, -52, ?_, by decide, by decide, rfl⟩, ?_, ?_⟩
  · have few : ⌈q * 2 ^ 52⌉ ≤ 2 ^ 52 := by
      rw [Int.ceil_le]
      push_cast
      nlinarith
    rw [abs_of_nonneg (Int.ceil_nonneg (by positivity))]
    omega
  · have := Int.le_ceil (q * 2 ^ 52)
    norm_num at this ⊢
    linarith
  · have := (Int.ceil_lt_add_one (q * 2 ^ 52)).le
    norm_num at this ⊢
    linarith

/-- Beyond the root of one half a guess within its bound is followed by one within the next. -/
theorem following_le (h : IsLegSquare x t) {k : Nat} (few : k < 5) (hguess : valueOf? guess = some r)
    (beyond : half < r) (le : r ≤ legBound (k + 1)) :
    Within 0 (legBound (k + 2)) (following x guess) := by
  have hhalf : (0 : ℚ) < half := by norm_num [half]
  have pos : 0 < r := hhalf.trans beyond
  have square : mostSquare ≤ r * r :=
    calc mostSquare ≤ half * half := by norm_num [mostSquare, half]
      _ ≤ r * r := mul_self_le_mul_self hhalf.le beyond.le
  have quotient_le : t / r ≤ mostSquare / r := div_le_div_of_nonneg_right h.most pos.le
  have quotient_le_one : t / r ≤ 1 := by
    rw [div_le_one pos]
    calc t ≤ mostSquare := h.most
      _ ≤ half := by norm_num [mostSquare, half]
      _ ≤ r := beyond.le
  -- rounding adds less than a unit to the quotient
  obtain ⟨B, grid, B_ge, B_le⟩ := exists_onGrid_ge (div_nonneg h.pos.le pos.le) quotient_le_one
  refine h.following_within hguess pos grid B_ge (onGrid_legBound (k + 2)) ?_
  calc r + B ≤ r + mostSquare / r + 1 / 2 ^ 52 := by linarith
    _ ≤ legBound (k + 1) + mostSquare / legBound (k + 1) + 1 / 2 ^ 52 := by
      gcongr ?_ + _
      exact add_div_le_add_div pos square le
    _ ≤ 2 * legBound (k + 2) := legBound_room few

/-! ## The test -/

/-- The square of a guess beyond the root of one half is not close. -/
theorem close_eq_false (h : IsLegSquare x t) (hguess : valueOf? guess = some r) (beyond : half < r)
    (le : r ≤ 9 / 8) : close x (.real 0.0) guess = false := by
  have nonneg : 0 ≤ r := (half_ge.trans beyond.le).trans' (by norm_num)
  obtain ⟨p, hp, p_ge, p_le⟩ :=
    within_square hguess (by rwa [abs_of_nonneg nonneg]) onGrid_two (by nlinarith)
  have most := h.most
  unfold mostSquare at most
  obtain ⟨d, hd, d_ge, -⟩ := (near_sub hp h.value).within
    (onGrid_two_zpow (n := -52) (by decide) (by decide)) onGrid_two (by norm_num; linarith)
    (by linarith [h.pos])
  rw [← Bool.not_eq_true, close_iff hd valueOf?_zero]
  have pos : 0 < d := lt_of_lt_of_le (zpow_pos two_pos _) d_ge
  exact (abs_pos.mpr pos.ne').not_ge

/-- The test does not hold beyond the root of one half. -/
theorem settled_eq_false (h : IsLegSquare x t) (hg : valueOf? g.value = some r) (beyond : half < r)
    (le : r ≤ 9 / 8) : settled x (.real 0.0) g = false := by
  have pos : 0 < r := (half_ge.trans_lt' (by norm_num)).trans beyond
  obtain ⟨f, hf, less⟩ := h.following_lt hg beyond le
  exact not_settled_of_lt hg hf pos (h.close_eq_false hg beyond le) less

/-- The first guess is half the number, and the quotient by it is two. -/
theorem valueOf?_start (h : IsLegSquare x t) : valueOf? (x / 2.0) = some (t / 2) := by
  refine (near_div h.value valueOf?_two two_ne_zero).valueOf?_eq ?_
  refine (onGrid_of_valueOf? h.value).div_two ?_
  rw [abs_of_pos h.pos]
  calc (2 : ℚ) ^ (-1021 : Int) ≤ 2 ^ (-53 : Int) := zpow_le_zpow_right₀ one_le_two (by decide)
    _ = 1 / 2 ^ 53 := by norm_num
    _ ≤ t := h.least

theorem following_first (h : IsLegSquare x t) (hguess : valueOf? guess = some (t / 2)) :
    Within 0 (legBound 1) (following x guess) := by
  have most := h.most
  unfold mostSquare at most
  refine h.following_within hguess (half_pos h.pos) onGrid_two (div_div_cancel₀ h.pos.ne').le
    (onGrid_legBound 1) ?_
  norm_num [legBound]
  linarith

theorem exists_scale (h : IsLegSquare x t) :
    ∃ a l, Scale a l 1023 x ∧ Within (2 ^ l) (2 ^ (1023 : Int)) (x / 2.0) := by
  refine Root.exists_scale h.value (le_trans ?_ h.least)
  rw [one_div, ← zpow_natCast, ← zpow_neg]
  exact zpow_le_zpow_right₀ one_le_two (by decide)

/-- The iteration for the square of a leg does not end in zero, wherever it is cut off. -/
theorem run_pos (h : IsLegSquare x t) (cap : Nat) :
    ∃ r, valueOf? (run cap x (.real 0.0) (x / 2.0)).1.value = some r ∧ 0 < r := by
  obtain ⟨a, l, scale, hscale⟩ := h.exists_scale
  obtain ⟨r, hr, r_ge, -⟩ := scale.run hscale cap (.real 0.0)
  exact ⟨r, hr, lt_of_lt_of_le (zpow_pos two_pos l) r_ge⟩

/-- What is known of the guess after `k` steps. -/
structure Reached (l : Int) (t : ℚ) (k : Nat) (g : Guess) : Prop where
  count : g.count = k
  scaled : Within (2 ^ l) (2 ^ (1023 : Int)) g.value
  bounded : Within 0 (legBound k) g.value
  first : k = 0 → valueOf? g.value = some (t / 2)

variable {a l : Int} {k : Nat}

theorem reached_start (h : IsLegSquare x t) (hscale : Within (2 ^ l) (2 ^ (1023 : Int)) (x / 2.0)) :
    Reached l t 0 ⟨x / 2.0, 0⟩ where
  count := rfl
  scaled := hscale
  bounded := by
    refine ⟨t / 2, h.valueOf?_start, (half_pos h.pos).le, ?_⟩
    have most := h.most
    unfold mostSquare at most
    norm_num [legBound]
    linarith
  first _ := h.valueOf?_start

/-- A guess at or below the root of one half is followed by one below it, and others come nearer. -/
theorem reached_step (h : IsLegSquare x t) (scale : Scale a l 1023 x) (hg : Reached l t k g)
    (goes : settled x (.real 0.0) g = false) : Reached l t (k + 1) (step x g) where
  count := congrArg (· + 1) hg.count
  scaled := scale.following hg.scaled
  bounded := by
    obtain ⟨r, hr, -, le⟩ := hg.bounded
    match k with
    | 0 => exact h.following_first (hg.first rfl)
    | k + 1 =>
      rcases le_or_gt r half with small | beyond
      · obtain ⟨f, hf, f_ge, -⟩ := scale.following hg.scaled
        have less := following_lt_of_not_settled hr hf (by rw [hg.count]; exact k.succ_pos) goes
        exact ⟨f, hf, (zpow_pos two_pos l).le.trans f_ge,
          less.le.trans (small.trans (half_le_legBound _))⟩
      · have few : k < 5 := by
          by_contra! late
          obtain ⟨j, rfl⟩ := Nat.exists_eq_add_of_le' late
          exact absurd (le.trans (legBound_late j).le) beyond.not_ge
        exact h.following_le few hr beyond le
  first := nofun

/-- The iteration for the square of a leg ends at or below the root of one half, if it may go on for
six steps. -/
theorem run_leg (h : IsLegSquare x t) {cap : Nat} (enough : 6 ≤ cap) :
    Within 0 half (run cap x (.real 0.0) (x / 2.0)).1.value := by
  obtain ⟨a, l, scale, hscale⟩ := h.exists_scale
  obtain ⟨n, hroot, ends⟩ := testFirst_ends (Reached l t)
    (fun k g hg goes => h.reached_step scale hg goes) cap (h.reached_start hscale)
  obtain ⟨r, hr, nonneg, le⟩ := hroot.bounded
  refine ⟨r, hr, nonneg, ?_⟩
  rcases ends with ⟨hsettled, -⟩ | ⟨rfl, -⟩
  · by_contra! beyond
    rw [h.settled_eq_false hr beyond (le.trans (legBound_le n))] at hsettled
    cases hsettled
  · obtain ⟨j, rfl⟩ := Nat.exists_eq_add_of_le' enough
    rw [zero_add, legBound_late] at le
    exact le

end IsLegSquare

end Root

end Calculator
