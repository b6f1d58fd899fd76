import Calculator.Library.Builtin
import Calculator.Proofs.Binary64.Rank
import Calculator.Proofs.Binary64.Remainder
import Calculator.Proofs.Roots

/-!
# Sums without a cap end

The sums of the sine, the cosine and the arctangent have no cap: they go on until a term is within
the tolerance. This module shows that a term is, long before the budget is used up, with every
tolerance that is not negative: there comes a term that is rounded to zero. The terms are bounded by
powers of two, which rounding does not cross.

* The reduced angle is below 16, so up to term 11 a term may be up to 256 times the one before; from
  then on each is at most half of it.
* The argument of the arctangent is halved in angle until it is at most a quarter. All that is used
  is that its square is then at most one half, so each power is at most half of the one before. For
  that the roots taken on the way need to be no more exact than from one half to sixteen.

Results:
1. `Series.run_stops`: sums whose terms fade end.
2. `Series.sine_fades`, `Series.cosine_fades`: those of sine and cosine do.
3. `within_root`: the root of a number from one to two.
4. `runOddPowers_stops`: the sum of the arctangent ends.
-/

namespace Calculator

open Binary64

/-! ## Bounds by powers of two -/

/-- The number is finite and its magnitude at most `2 ^ n`. -/
def Small (n : Int) (x : Float) : Prop := Within (-2 ^ n) (2 ^ n) x

section Small

variable {x y : Float} {m n : Int} {v w : ℚ}

theorem Small.exists_abs_le (h : Small n x) : ∃ v, valueOf? x = some v ∧ |v| ≤ 2 ^ n := by
  obtain ⟨v, hv, above, below⟩ := h
  exact ⟨v, hv, abs_le.mpr ⟨above, below⟩⟩

theorem small_of_abs_le (hx : valueOf? x = some v) (h : |v| ≤ 2 ^ n) : Small n x :=
  ⟨v, hx, neg_le_of_abs_le h, le_of_abs_le h⟩

theorem Small.mono (h : Small m x) (le : m ≤ n) : Small n x := by
  have hpow : (2 : ℚ) ^ m ≤ 2 ^ n := zpow_le_zpow_right₀ one_le_two le
  exact Within.mono h (neg_le_neg hpow) hpow

/-- A bound that is a power of two in the range of the format holds after rounding. -/
theorem small_of_near (h : Near x v) (le : |v| ≤ 2 ^ n) (least : -1074 ≤ n) (most : n ≤ 1023) :
    Small n x :=
  have grid := onGrid_two_zpow least most
  h.within grid.neg grid (neg_le_of_abs_le le) (le_of_abs_le le)

theorem Small.mul (hx : Small m x) (hy : Small n y) (least : -1074 ≤ m + n) (most : m + n ≤ 1023) :
    Small (m + n) (x * y) := by
  obtain ⟨v, hv, hvle⟩ := hx.exists_abs_le
  obtain ⟨w, hw, hwle⟩ := hy.exists_abs_le
  refine small_of_near (near_mul hv hw) ?_ least most
  rw [abs_mul, zpow_add₀ two_ne_zero]
  exact mul_le_mul hvle hwle (abs_nonneg w) (zpow_pos two_pos m).le

theorem Small.div (hx : Small m x) (hy : valueOf? y = some w) (le : 2 ^ n ≤ w)
    (least : -1074 ≤ m - n) (most : m - n ≤ 1023) : Small (m - n) (x / y) := by
  obtain ⟨v, hv, hvle⟩ := hx.exists_abs_le
  have pos : (0 : ℚ) < 2 ^ n := zpow_pos two_pos n
  have hw : 0 < w := pos.trans_le le
  refine small_of_near (near_div hv hy hw.ne') ?_ least most
  rw [abs_div, abs_of_pos hw, zpow_sub₀ two_ne_zero]
  exact div_le_div₀ (zpow_pos two_pos m).le hvle pos le

theorem Small.neg (hx : Small n x) : Small n (-x) := by
  obtain ⟨v, hv, hvle⟩ := hx.exists_abs_le
  exact small_of_abs_le (valueOf?_neg hv) (by rwa [abs_neg])

/-- What is less than half the least number of the format is rounded to zero. -/
theorem valueOf?_eq_zero_of_rounded (h : Rounded x v) (tiny : |v| < 2 ^ (-1075 : Int)) :
    valueOf? x = some 0 := by
  obtain ⟨u, nearest, hx⟩ := h
  have distance := nearest.near 0 onOpenGrid_zero
  rw [sub_zero, abs_sub_comm] at distance
  have double : (2 : ℚ) ^ (-1074 : Int) = 2 ^ (-1075 : Int) * 2 := zpow_add_one₀ two_ne_zero (-1075)
  have small : |u| < 2 ^ (-1074 : Int) := by
    have triangle := abs_sub_abs_le_abs_sub u v
    rw [double]
    linarith only [triangle, distance, tiny]
  obtain ⟨b, e, -, least, rfl⟩ := nearest.grid
  -- every other number of the format is at least a unit
  have zero : b = 0 := by
    by_contra nonzero
    have one_le : (1 : ℚ) ≤ |(b : ℚ)| := by exact_mod_cast Int.one_le_abs nonzero
    have unit : (2 : ℚ) ^ (-1074 : Int) ≤ 2 ^ e := zpow_le_zpow_right₀ one_le_two least
    have pos : (0 : ℚ) < 2 ^ e := zpow_pos two_pos e
    rw [abs_mul, abs_of_pos pos] at small
    exact (unit.trans (le_mul_of_one_le_left pos.le one_le)).not_gt small
  rw [hx, zero, Int.cast_zero, zero_mul, abs_zero, if_pos (by positivity)]

theorem Small.mul_eq_zero (hx : Small m x) (hy : Small n y) (tiny : m + n < -1075) :
    valueOf? (x * y) = some 0 := by
  obtain ⟨v, hv, hvle⟩ := hx.exists_abs_le
  obtain ⟨w, hw, hwle⟩ := hy.exists_abs_le
  refine valueOf?_eq_zero_of_rounded (rounded_mul hv hw) ?_
  calc |v * w| = |v| * |w| := abs_mul v w
    _ ≤ 2 ^ m * 2 ^ n := mul_le_mul hvle hwle (abs_nonneg w) (zpow_pos two_pos m).le
    _ = 2 ^ (m + n) := (zpow_add₀ two_ne_zero m n).symm
    _ < 2 ^ (-1075 : Int) := zpow_lt_zpow_right₀ one_lt_two tiny

theorem Small.div_eq_zero (hx : Small m x) (hy : valueOf? y = some w) (le : 2 ^ n ≤ w)
    (tiny : m - n < -1075) : valueOf? (x / y) = some 0 := by
  obtain ⟨v, hv, hvle⟩ := hx.exists_abs_le
  have pos : (0 : ℚ) < 2 ^ n := zpow_pos two_pos n
  have hw : 0 < w := pos.trans_le le
  refine valueOf?_eq_zero_of_rounded (rounded_div hv hy hw.ne') ?_
  calc |v / w| = |v| / w := by rw [abs_div, abs_of_pos hw]
    _ ≤ 2 ^ m / 2 ^ n := div_le_div₀ (zpow_pos two_pos m).le hvle pos le
    _ = 2 ^ (m - n) := (zpow_sub₀ two_ne_zero m n).symm
    _ < 2 ^ (-1075 : Int) := zpow_lt_zpow_right₀ one_lt_two tiny

/-- A term that is zero is within every tolerance that is not negative. -/
theorem beyond_eq_false {tolerance : Number} (nonneg : (Number.int 0).atMost tolerance = true)
    (hx : valueOf? x = some 0) : beyond tolerance x = false := by
  rw [← Bool.not_eq_true]
  intro h
  have less := Number.less_of_atMost_of_less nonneg h
  have hzero : (Number.int 0).value? = some 0 := Number.value?_int (by norm_num)
  have habs : (Number.real x.abs).value? = some |0| := valueOf?_abs hx
  rw [Number.less_iff hzero habs, abs_zero] at less
  exact less.false

end Small

/-! ## The reduced angle -/

theorem valueOf?_twoPi : valueOf? twoPi = some (7074237752028440 * 2 ^ (-50 : Int)) :=
  valueOf?_eq_some (a := ⟨false, 7074237752028440, -50⟩) rfl
    (by norm_num [value, signed])

theorem small_withinTurn {x : Float} (finite : x.isFinite = true) : Small 4 (withinTurn x) := by
  obtain ⟨v, hv⟩ := exists_valueOf? finite
  have hturn : Within 0 (7074237752028440 * 2 ^ (-50 : Int)) (withinTurn x) :=
    within_flooredRemainder hv valueOf?_twoPi (by norm_num)
  exact hturn.mono (by norm_num) (by norm_num)

/-! ## Sine and cosine -/

namespace Series

variable {tolerance : Number}

/-- The exponent that bounds term `k`. -/
def termExponent (k : Nat) : Int := if k ≤ 11 then 4 + 8 * k else 103 - k

theorem termExponent_of_le {k : Nat} (h : k ≤ 11) : termExponent k = 4 + 8 * k := if_pos h

theorem termExponent_of_lt {k : Nat} (h : 11 < k) : termExponent k = 103 - k := if_neg h.not_ge

/-- The highest bound falls under both rules. -/
theorem termExponent_of_ge {k : Nat} (h : 11 ≤ k) : termExponent k ≤ 103 - k := by
  rcases h.eq_or_lt with rfl | more
  · exact (termExponent_of_le le_rfl).le
  · exact (termExponent_of_lt more).le

/-- Ratios of terms that grow little up to number 11 and are halved at least from there on. -/
structure Fades (ratio : Nat → Float) : Prop where
  early {k : Nat} (least : 1 ≤ k) (most : k ≤ 11) : Small 8 (ratio k)
  late {k : Nat} (least : 12 ≤ k) (most : k ≤ 1177) : Small (-1) (ratio k)
  last : Small (-2) (ratio 1178)

/-- What is known of the term after `k` steps: it is bounded, and in the end it is zero. -/
structure Fading (k : Nat) (p : PartialSum Float) : Prop where
  count : p.count = k
  small : k ≤ 1177 → Small (termExponent k) p.term
  zero : k = 1178 → valueOf? p.term = some 0

variable {ratio : Nat → Float} {first : Float} {p : PartialSum Float} {k : Nat}

theorem fading_start (h : Small 4 first) : Fading 0 ⟨0.0, first, 0⟩ where
  count := rfl
  small _ := h
  zero h := absurd h (by decide)

/-- The exponent rises by 8 up to term 11 and falls by 1 from there, to the least one at term 1177. -/
theorem Fading.addTerm (h : Fading k p) (fades : Fades ratio) (less : k < 1178) :
    Fading (k + 1) (addTerm ratio p) := by
  obtain ⟨rfl, small, -⟩ := h
  have hterm := small (by omega)
  refine ⟨rfl, fun most => ?_, fun final => ?_⟩
  · show Small _ (p.term * ratio (p.count + 1))
    by_cases rises : p.count + 1 ≤ 11
    · rw [termExponent_of_le (by omega)] at hterm
      rw [termExponent_of_le rises]
      exact (hterm.mul (fades.early (by omega) rises) (by omega) (by omega)).mono
        (by push_cast; omega)
    · have hterm := hterm.mono (termExponent_of_ge (by omega))
      rw [termExponent_of_lt (by omega)]
      exact (hterm.mul (fades.late (by omega) most) (by omega) (by omega)).mono (by push_cast; omega)
  · show valueOf? (p.term * ratio (p.count + 1)) = some 0
    have hterm := hterm.mono (termExponent_of_ge (by omega))
    rw [final]
    exact hterm.mul_eq_zero fades.last (by omega)

/-- A sum whose terms fade goes on until a term is zero, if none was within the tolerance before. -/
theorem run_stops (fades : Fades ratio) (hfirst : Small 4 first)
    (nonneg : (Number.int 0).atMost tolerance = true) :
    (run ratio tolerance longestSum first).2 = true := by
  refine testFirst_stops Fading (fun k less p h => h.addTerm fades less) (fun p h => ?_) longestSum
    (fading_start hfirst) (by decide) (by decide)
  rw [beyond_eq_false nonneg (h.zero rfl)]
  rfl

/-! ### Their ratios -/

/-- The ratio of two terms, where the denominator is at least a power of two. -/
theorem small_ratio {x : Float} {b : Nat} {d : Nat} (hx : Small 4 x) (le : 2 ^ b ≤ d)
    (short : d < 2 ^ 53) : Small (8 - b) (-(x * x) / (d : Float)) := by
  have hsquare : Small 8 (-(x * x)) := (hx.mul hx (by decide) (by decide)).neg
  have few : b < 53 := (Nat.pow_lt_pow_iff_right one_lt_two).mp (lt_of_le_of_lt le short)
  refine hsquare.div (valueOf?_ofNat short) ?_ (by omega) (by omega)
  exact_mod_cast le

/-- The terms of a reduced angle fade if the denominators grow fast enough. -/
theorem fades_of_monotone {x : Float} (hx : Small 4 x) {d : Nat → Nat} (grow : Monotone d)
    (first : 2 ^ 0 ≤ d 1) (twelfth : 2 ^ 9 ≤ d 12) (last : 2 ^ 10 ≤ d 1178)
    (short : d 1178 < 2 ^ 53) : Fades fun k => -(x * x) / (d k : Float) where
  early least most := small_ratio (b := 0) hx (first.trans (grow least))
    ((grow (by omega)).trans_lt short)
  late least most := small_ratio (b := 9) hx (twelfth.trans (grow least))
    ((grow (by omega)).trans_lt short)
  last := small_ratio (b := 10) hx last short

variable {x : Float}

theorem sine_fades (hx : Small 4 x) : Fades (sineRatio x) :=
  fades_of_monotone hx (d := fun k => 2 * k * (2 * k + 1)) (fun j k le => by dsimp only; gcongr)
    (by decide) (by decide) (by decide) (by decide)

theorem cosine_fades (hx : Small 4 x) : Fades (cosineRatio x) :=
  fades_of_monotone hx (d := fun k => (2 * k - 1) * 2 * k) (fun j k le => by dsimp only; gcongr)
    (by decide) (by decide) (by decide) (by decide)

theorem sine_stops (hx : Small 4 x) (nonneg : (Number.int 0).atMost tolerance = true) :
    (run (sineRatio x) tolerance longestSum x).2 = true :=
  run_stops (sine_fades hx) hx nonneg

theorem cosine_stops (hx : Small 4 x) {first : Float} (hfirst : valueOf? first = some 1)
    (nonneg : (Number.int 0).atMost tolerance = true) :
    (run (cosineRatio x) tolerance longestSum first).2 = true :=
  run_stops (cosine_fades hx) (small_of_abs_le hfirst (by norm_num)) nonneg

end Series

/-! ## Arctangent -/

section Arctangent

variable {x : Float}

theorem within_hypotenuse (hx : Within (-1) 1 x) : Within 1 2 (1.0 + x * x) := by
  obtain ⟨v, hv, above, below⟩ := hx
  have hsquare : Within 0 1 (x * x) :=
    (near_mul hv hv).within onGrid_zero onGrid_one (mul_self_nonneg v) (by nlinarith)
  have grid : OnGrid (1 + 1) := ⟨2, 0, by decide, by decide, by decide, by norm_num⟩
  have h := (within_of_valueOf? valueOf?_one).add hsquare (by rw [add_zero]; exact onGrid_one) grid
  exact h.mono (by norm_num) (by norm_num)

/-- The guesses for the root of a number from one to two, all the way from the first one. -/
theorem within_root (hx : Within 1 2 x) (cap : Nat) (tolerance : Number) :
    Within (1 / 2) 16 (x / 2.0) ∧
      Within (1 / 2) 16 (Root.run cap x tolerance (x / 2.0)).1.value := by
  have between : Within (2 ^ (2 * 0 : Int)) (2 ^ (2 * 0 + 2 : Int)) x :=
    hx.mono (by norm_num) (by norm_num)
  have scale : Root.Scale 0 (-1) 4 x :=
    ⟨between, le_rfl, le_rfl, by decide, by decide, by decide⟩
  have start : Within (2 ^ (-1 : Int)) (2 ^ (4 : Int)) (x / 2.0) :=
    within_half_two_zpow (hx.mono (by norm_num) (by norm_num)) (by decide) (by decide) (by decide)
  have narrow {y : Float} (hy : Within (2 ^ (-1 : Int)) (2 ^ (4 : Int)) y) : Within (1 / 2) 16 y :=
    hy.mono (by norm_num) (by norm_num)
  exact ⟨narrow start, narrow (scale.run start cap tolerance)⟩

theorem within_one_add_root {root : Float} (hroot : Within (1 / 2) 16 root) :
    Within (1 + 1 / 2) (1 + 16) (1.0 + root) := by
  have low : OnGrid (1 + 1 / 2) := ⟨3, -1, by decide, by decide, by decide, by norm_num⟩
  have high : OnGrid (1 + 16) := ⟨17, 0, by decide, by decide, by decide, by norm_num⟩
  exact (within_of_valueOf? valueOf?_one).add hroot low high

/-- Halving the angle leaves a tangent whose square is at most one half. -/
theorem within_halfTangent {root : Float} (hx : Within (-1) 1 x) (hroot : Within (1 / 2) 16 root) :
    Within (-(11 / 16)) (11 / 16) (x / (1.0 + root)) := by
  obtain ⟨w, hw, w_ge, w_le⟩ := within_one_add_root hroot
  obtain ⟨v, hv, above, below⟩ := hx
  have pos : 0 < w := by linarith
  have grid : OnGrid (11 / 16) := ⟨11, -4, by decide, by decide, by decide, by norm_num⟩
  refine (near_div hv hw pos.ne').within grid.neg grid ?_ ?_
  · rw [le_div_iff₀ pos]
    linarith
  · rw [div_le_iff₀ pos]
    linarith

namespace Series

/-- What is known of power and term after `k` steps: the powers are halved at least, and in the end the
term is zero. -/
structure Halving (k : Nat) (p : PowerSum Float) : Prop where
  count : p.count = k
  power : Small (-k) p.power
  zero : k = 1070 → valueOf? p.term = some 0

variable {p : PowerSum Float} {k : Nat}

theorem halving_start (h : Small 0 x) : Halving 0 ⟨0.0, x, x, 0⟩ where
  count := rfl
  power := h
  zero h := absurd h (by decide)

/-- In the last step the divisor is great enough, too. -/
theorem Halving.addOddPower (h : Halving k p) (hsquare : Small (-1) (-(x * x))) (less : k < 1070) :
    Halving (k + 1) (addOddPower x p) := by
  obtain ⟨rfl, hpower, -⟩ := h
  have hnext : Small (-(p.count + 1 : Nat)) (p.power * -(x * x)) :=
    (hpower.mul hsquare (by omega) (by omega)).mono (by push_cast; omega)
  refine ⟨rfl, hnext, fun final => ?_⟩
  have hdivisor := valueOf?_ofNat (n := 2 * (p.count + 1) + 1) (by omega)
  have large : (2 : ℚ) ^ (11 : Int) ≤ (2 * (p.count + 1) + 1 : Nat) := by
    rw [final]
    norm_num
  exact hnext.div_eq_zero hdivisor large (by omega)

end Series

/-- The sum of the arctangent of a halved angle goes on until a term is zero, if none was within the
tolerance before. -/
theorem runOddPowers_stops (hx : Within (-(11 / 16)) (11 / 16) x) {tolerance : Number}
    (nonneg : (Number.int 0).atMost tolerance = true) :
    (Series.runOddPowers x tolerance longestSum).2 = true := by
  have hsquare : Small (-1) (-(x * x)) := by
    obtain ⟨v, hv, above, below⟩ := hx
    refine (small_of_near (near_mul hv hv) ?_ (by decide) (by decide)).neg
    rw [abs_of_nonneg (mul_self_nonneg v)]
    norm_num
    nlinarith
  have hfirst : Small 0 x := Within.mono hx (by norm_num) (by norm_num)
  refine testFirst_stops Series.Halving (fun k less p h => h.addOddPower hsquare less)
    (fun p h => ?_) longestSum (Series.halving_start hfirst) (by decide) (by decide)
  rw [beyond_eq_false nonneg (h.zero rfl)]
  rfl

end Arctangent

end Calculator
