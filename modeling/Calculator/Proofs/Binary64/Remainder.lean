import Calculator.Proofs.Binary64.Order
import Calculator.Proofs.Binary64.Signs

/-!
# Remainders of floating-point numbers

The remainder of a division that stops at a whole quotient is taken from the two numbers counted in the
smaller of their units. However far apart their exponents are, what is left has no more digits than one
of them has, so it is a number of the format and nothing is rounded. Only the remainder of a division
that rounds the quotient down may be rounded, as it adds the divisor to a remainder of the other sign.

Results:
1. `exists_quotient`: the remainder is what a whole multiple of the divisor leaves.
2. `onGrid_remainder`: it is a number of the format.
3. `truncatedRemainder_exact`: the remainder of finite numbers, with its sign.
4. `within_flooredRemainder`: the remainder by a positive divisor.
-/

namespace Calculator

open Binary64 Float.Model UnpackedFloat

variable {x y : Float} {a b : Scaled} {v w : ℚ}

/-! ## Numbers as whole multiples of a unit -/

theorem near_toFloat (a : Scaled) : Near a.toFloat (value a) :=
  rounds_round (if a.negative then .negative else .positive) a.mantissa a.exponent

theorem abs_value (a : Scaled) : |value a| = a.mantissa * 2 ^ a.exponent := by
  rw [value, abs_signed, abs_of_nonneg (by positivity)]

/-- Counting in a smaller unit changes nothing. -/
theorem countOf_mul (a : Scaled) {unit : Int} (fine : unit ≤ a.exponent) :
    (a.countOf unit : ℚ) * 2 ^ unit = a.mantissa * 2 ^ a.exponent := by
  unfold Scaled.countOf
  rw [Nat.pow_eq]
  push_cast
  rw [mul_assoc, two_pow_mul, Int.toNat_of_nonneg (by omega), sub_add_cancel]

theorem countOf_self (a : Scaled) : a.countOf a.exponent = a.mantissa := by
  unfold Scaled.countOf
  rw [sub_self, Int.toNat_zero, Nat.pow_eq, pow_zero, mul_one]

theorem countOf_pos (b : Scaled) (nonzero : b.mantissa ≠ 0) (unit : Int) : 0 < b.countOf unit :=
  Nat.mul_pos (Nat.pos_of_ne_zero nonzero) (Nat.pow_pos two_pos)

theorem exists_ofFloat? (h : x.isFinite = true) : ∃ a, Scaled.ofFloat? x = some a := by
  obtain ⟨v, hv⟩ := exists_valueOf? h
  rw [valueOf?_eq] at hv
  obtain ⟨a, ha, -⟩ := Option.map_eq_some_iff.mp hv
  exact ⟨a, ha⟩

theorem ofFloat?_eq_none (h : x.isInf = true ∨ x.isNaN = true) : Scaled.ofFloat? x = none := by
  unfold Scaled.ofFloat?
  rcases h with inf | nan
  · obtain ⟨s, hs⟩ := eq_infinity inf
    rw [hs]
  · rw [eq_notANumber nan]

/-- A number that was read has the digits and the exponents of the format. -/
theorem bounds_of_ofFloat? (h : Scaled.ofFloat? x = some a) :
    a.mantissa < 2 ^ 53 ∧ -1074 ≤ a.exponent ∧ a.exponent ≤ greatest := by
  have hstored := isStored_unpack x.toModel
  unfold Scaled.ofFloat? at h
  generalize x.toModel.unpack = u at h hstored
  cases u with
  | notANumber | infinity => cases h
  | zero =>
    cases h
    show 0 < 2 ^ 53 ∧ (-1074 : Int) ≤ 0 ∧ (0 : Int) ≤ greatest
    decide
  | finite s m e pos =>
    cases h
    exact ⟨hstored.1.short, hstored.1.least, hstored.2⟩

/-! ## The remainder is exact -/

/-- A whole multiple of the divisor and the remainder make up the dividend. -/
theorem exists_quotient (a b : Scaled) :
    ∃ k : Int, value a = k * value b + value (a.remainder b) := by
  set unit := min a.exponent b.exponent with hunit
  have hsplit : (a.countOf unit : ℚ) =
      b.countOf unit * (a.countOf unit / b.countOf unit : Nat) +
        (a.countOf unit % b.countOf unit : Nat) := by
    exact_mod_cast (Nat.div_add_mod _ _).symm
  have hrest : value (a.remainder b) = signed (if a.negative then .negative else .positive)
      ((a.countOf unit % b.countOf unit : Nat) * 2 ^ unit) := rfl
  rw [hrest, value, value, ← countOf_mul a (min_le_left _ _), ← countOf_mul b (min_le_right _ _),
    ← hunit, hsplit]
  -- the quotient of the counts, negated if the signs differ
  generalize a.countOf unit / b.countOf unit = k
  by_cases same : a.negative = b.negative
  · refine ⟨k, ?_⟩
    rw [same]
    cases b.negative <;> simp only [Bool.false_eq_true, if_false, if_true, signed] <;> push_cast <;>
      ring
  · refine ⟨-k, ?_⟩
    rw [Bool.eq_not_of_ne same]
    cases b.negative <;>
      simp only [Bool.not_true, Bool.not_false, Bool.false_eq_true, if_false, if_true, signed] <;>
      push_cast <;> ring

/-- A whole quotient leaves less than the divisor. -/
theorem abs_value_remainder_lt (a b : Scaled) (nonzero : b.mantissa ≠ 0) :
    |value (a.remainder b)| < |value b| := by
  rw [abs_value, abs_value, ← countOf_mul b (min_le_right a.exponent _)]
  unfold Scaled.remainder
  dsimp only
  -- both are counted in the smaller of their units
  set unit := min a.exponent b.exponent
  have less : ((a.countOf unit % b.countOf unit : Nat) : ℚ) < b.countOf unit := by
    exact_mod_cast Nat.mod_lt _ (countOf_pos b nonzero unit)
  exact mul_lt_mul_of_pos_right less (zpow_pos two_pos unit)

/-- The remainder is less than the divisor and at most the dividend, and one of the two is counted in
its own unit. -/
theorem remainder_short (shortA : a.mantissa < 2 ^ 53) (shortB : b.mantissa < 2 ^ 53)
    (nonzero : b.mantissa ≠ 0) : (a.remainder b).mantissa < 2 ^ 53 := by
  show a.countOf (min a.exponent b.exponent) % b.countOf (min a.exponent b.exponent) < 2 ^ 53
  rcases le_total a.exponent b.exponent with le | ge
  · rw [min_eq_left le, countOf_self]
    exact (Nat.mod_le _ _).trans_lt shortA
  · rw [min_eq_right ge, countOf_self]
    exact (Nat.mod_lt _ (Nat.pos_of_ne_zero nonzero)).trans shortB

theorem onGrid_remainder (ha : Scaled.ofFloat? x = some a) (hb : Scaled.ofFloat? y = some b)
    (nonzero : b.mantissa ≠ 0) : OnGrid (value (a.remainder b)) := by
  obtain ⟨shortA, leastA, mostA⟩ := bounds_of_ofFloat? ha
  obtain ⟨shortB, leastB, mostB⟩ := bounds_of_ofFloat? hb
  have short := remainder_short shortA shortB nonzero
  have grid : OnGrid ((a.remainder b).mantissa * 2 ^ (a.remainder b).exponent) := by
    refine ⟨(a.remainder b).mantissa, min a.exponent b.exponent, ?_, le_min leastA leastB,
      (min_le_left _ _).trans mostA, by rw [Int.cast_natCast]; rfl⟩
    rw [abs_of_nonneg (Int.natCast_nonneg _)]
    exact_mod_cast short
  unfold value
  cases (a.remainder b).negative with
  | false => exact grid
  | true => exact grid.neg

/-! ## Signs -/

theorem sign?_roundWithAccuracy (s : Sign) (m : Nat) (e : Int) (acc : Accuracy) :
    sign? (roundWithAccuracy Format.binary64 s m e acc) = some s := by
  unfold roundWithAccuracy
  dsimp only
  split <;> rfl

/-- A number written with a sign keeps it, also where it is rounded to zero. -/
theorem sign?_toFloat (a : Scaled) :
    sign? a.toFloat.toModel.unpack = some (if a.negative then .negative else .positive) :=
  (sign?_stored _).trans (sign?_roundWithAccuracy _ _ _ _)

theorem sign?_of_ofFloat? (h : Scaled.ofFloat? x = some a) :
    sign? x.toModel.unpack = some (if a.negative then .negative else .positive) := by
  unfold Scaled.ofFloat? at h
  generalize x.toModel.unpack = u at h
  cases u with
  | notANumber | infinity => cases h
  | zero s | finite s =>
    cases h
    cases s <;> rfl

/-! ## Remainders of floating-point numbers -/

theorem mantissa_ne_zero (nonzero : value b ≠ 0) : b.mantissa ≠ 0 := by
  intro h
  apply nonzero
  rw [← abs_eq_zero, abs_value, h, Nat.cast_zero, zero_mul]

/-- The remainder that stops at a whole quotient is exact, with the sign of the dividend. -/
theorem truncatedRemainder_exact (hx : valueOf? x = some v) (hy : valueOf? y = some w)
    (nonzero : w ≠ 0) :
    ∃ (k : Int) (r : ℚ), valueOf? (truncatedRemainder x y) = some r ∧ v = k * w + r ∧ |r| < |w| ∧
      sign? (truncatedRemainder x y).toModel.unpack = sign? x.toModel.unpack := by
  rw [valueOf?_eq] at hx hy
  obtain ⟨a, ha, rfl⟩ := Option.map_eq_some_iff.mp hx
  obtain ⟨b, hb, rfl⟩ := Option.map_eq_some_iff.mp hy
  have hmantissa := mantissa_ne_zero nonzero
  have hremainder : truncatedRemainder x y = (a.remainder b).toFloat := by
    unfold truncatedRemainder
    rw [ha, hb]
    exact if_neg hmantissa
  obtain ⟨k, hk⟩ := exists_quotient a b
  refine ⟨k, value (a.remainder b), ?_, hk, abs_value_remainder_lt a b hmantissa, ?_⟩
  · rw [hremainder]
    exact (near_toFloat _).valueOf?_eq (onGrid_remainder ha hb hmantissa)
  · rw [hremainder, sign?_toFloat, sign?_of_ofFloat? ha]
    rfl

/-- The remainder that stops at a whole quotient is not beyond the divisor on either side. -/
theorem within_truncatedRemainder (hx : valueOf? x = some v) (hy : valueOf? y = some w)
    (nonzero : w ≠ 0) : Within (-|w|) |w| (truncatedRemainder x y) := by
  obtain ⟨-, r, hr, -, less, -⟩ := truncatedRemainder_exact hx hy nonzero
  exact ⟨r, hr, (abs_lt.mp less).1.le, (abs_lt.mp less).2.le⟩

theorem valueOf?_copySign_zero (y : Float) : valueOf? (copySign 0.0 y) = some 0 := by
  have habs : valueOf? (0.0 : Float).abs = some 0 := by
    rw [valueOf?_abs valueOf?_zero, abs_zero]
  unfold copySign
  split
  · rw [valueOf?_neg habs, neg_zero]
  · exact habs

/-- The divisor is added to a negative remainder. -/
theorem flooredRemainder_eq {r : ℚ} (hr : valueOf? (truncatedRemainder x y) = some r)
    (hy : valueOf? y = some w) (pos : 0 < w) :
    flooredRemainder x y =
      if r = 0 then copySign 0.0 y
      else if r < 0 then truncatedRemainder x y + y
      else truncatedRemainder x y := by
  have positive : decide (y < 0.0) = false :=
    decide_eq_false (mt (lt_iff hy valueOf?_zero).mp pos.not_gt)
  unfold flooredRemainder
  dsimp only
  rw [positive, Bool.false_bne]
  simp only [beq_iff hr valueOf?_zero, decide_eq_true_eq, lt_iff hr valueOf?_zero]

/-- The remainder by a positive divisor lies between zero and the divisor. -/
theorem within_flooredRemainder (hx : valueOf? x = some v) (hy : valueOf? y = some w)
    (pos : 0 < w) : Within 0 w (flooredRemainder x y) := by
  have grid : OnGrid w := onGrid_of_valueOf? hy
  have hrest := within_truncatedRemainder hx hy pos.ne'
  rw [abs_of_pos pos] at hrest
  obtain ⟨r, hr, above, below⟩ := hrest
  rw [flooredRemainder_eq hr hy pos]
  split
  · exact ⟨0, valueOf?_copySign_zero y, le_rfl, pos.le⟩
  · split
    · next negative => exact (near_add hr hy).within onGrid_zero grid (by linarith) (by linarith)
    · next positive => exact ⟨r, hr, not_lt.mp positive, below⟩

end Calculator
