import Calculator.Library.Builtin
import Calculator.Proofs.Binary64.Order

/-!
# Powers by repeated squaring

A power has a whole number of factors: as many as the magnitude of the exponent, rounded up. Repeated
squaring multiplies them all together, so a power of an integer with a positive exponent is the exact
one. Of the exponent only the sign and the number of factors matter, so an exponent that is not whole
may be replaced by the next whole number away from zero.

Results:
1. `timesPower_eq`: repeated squaring computes a power.
2. `factorCount_eq`: the number of factors.
3. `power_of_zero`, `power_eq`: a power with its factors counted.
4. `power_counts_factors`: the exponent is rounded away from zero.
-/

namespace Calculator

open Binary64
open Float.Model.UnpackedFloat (Sign)

/-- In every round of squaring the product of `result` and of the factors still to come is the
same. -/
theorem timesPower_eq {α : Type} [Monoid α] (result base : α) (steps : Nat) :
    timesPower result base steps = result * base ^ steps := by
  induction steps using Nat.strong_induction_on generalizing result base with
  | _ steps ih =>
    rw [timesPower]
    by_cases done : steps = 0
    · rw [if_pos done, done, pow_zero, mul_one]
    rw [if_neg done, ih _ (Nat.div_lt_self (Nat.pos_of_ne_zero done) one_lt_two), ← pow_two,
      ← pow_mul]
    by_cases odd : steps % 2 = 1
    · have hsteps : 2 * (steps / 2) + 1 = steps := by omega
      rw [if_pos odd, mul_assoc, ← pow_succ', hsteps]
    · have hsteps : 2 * (steps / 2) = steps := by omega
      rw [if_neg odd, hsteps]

theorem Number.powerOf_int (n : Int) (steps : Nat) :
    (Number.int n).powerOf steps = .int (n ^ steps) := by
  rw [Number.powerOf, timesPower_eq, one_mul]

/-! ## The number of factors -/

variable {e : Number} {v : ℚ}

theorem Binary64.signed_inj {s : Sign} {a b : ℚ} : signed s a = signed s b ↔ a = b := by
  cases s with
  | positive => exact Iff.rfl
  | negative => exact neg_inj

/-- A number is its magnitude with a sign, and the integer part is the magnitude rounded down with the
same sign. -/
theorem Number.exists_truncate (he : e.value? = some v) :
    ∃ (s : Sign) (w : Int), e.truncate = .ok w ∧ v = signed s |v| ∧ (w : ℚ) = signed s ⌊|v|⌋₊ := by
  cases e with
  | int n =>
    cases he
    have whole : ((⌊|(n : ℚ)|⌋₊ : Nat) : ℚ) = |(n : ℚ)| := by
      rw [← Int.cast_abs, ← Nat.cast_natAbs, Nat.floor_natCast]
    rw [whole]
    rcases le_total 0 (n : ℚ) with nonneg | nonpos
    · exact ⟨.positive, n, rfl, (abs_of_nonneg nonneg).symm, (abs_of_nonneg nonneg).symm⟩
    · have hn : (n : ℚ) = -|(n : ℚ)| := by rw [abs_of_nonpos nonpos, neg_neg]
      exact ⟨.negative, n, rfl, hn, hn⟩
  | real x =>
    change valueOf? x = some v at he
    rw [valueOf?_eq] at he
    obtain ⟨a, ha, rfl⟩ := Option.map_eq_some_iff.mp he
    refine ⟨if a.negative then .negative else .positive, a.truncate, ?_, ?_, ?_⟩
    · unfold Number.truncate
      dsimp only
      rw [ha]
      rfl
    · rw [value, abs_signed, abs_of_nonneg (by positivity)]
    · rw [Scaled.truncate, Scaled.cast_signed, Scaled.abs_value, Nat.floor_div_eq_div]

theorem Number.isFinite_of_value? (he : e.value? = some v) : e.isFinite = true := by
  cases e with
  | int n => rfl
  | real x =>
    show x.toModel.unpack.isFinite = true
    change Binary64.value? x.toModel.unpack = some v at he
    generalize x.toModel.unpack = u at he ⊢
    cases u with
    | notANumber | infinity => cases he
    | zero | finite => rfl

/-- Rounded up, a number that is not whole is one more than rounded down. -/
theorem factorCount_eq (he : e.value? = some v) : factorCount e = .ok ⌈|v|⌉₊ := by
  obtain ⟨s, w, htruncate, hv, hw⟩ := Number.exists_truncate he
  have hcount : w.natAbs = ⌊|v|⌋₊ := by
    have := congrArg abs hw
    rw [abs_signed, Nat.abs_cast, ← Int.cast_abs, ← Nat.cast_natAbs] at this
    exact_mod_cast this
  have whole : (Number.int w).equals e = true ↔ (⌊|v|⌋₊ : ℚ) = |v| := by
    rw [Number.equals_iff (Number.value?_int rfl) he, hw, ← signed_inj (s := s) (b := |v|), ← hv]
  unfold factorCount
  rw [htruncate]
  show Except.ok (if (Number.int w).equals e then w.natAbs else w.natAbs + 1) = _
  rw [hcount]
  by_cases h : (⌊|v|⌋₊ : ℚ) = |v|
  · rw [if_pos (whole.mpr h), ← h, Nat.ceil_natCast, Nat.floor_natCast]
  · have above : (⌊|v|⌋₊ : ℚ) < |v| := (Nat.floor_le (abs_nonneg v)).lt_of_ne h
    have hceil : ⌈|v|⌉₊ = ⌊|v|⌋₊ + 1 := by
      rw [Nat.ceil_eq_iff (Nat.succ_ne_zero _)]
      exact ⟨above, by exact_mod_cast (Nat.lt_floor_add_one |v|).le⟩
    rw [if_neg (mt whole.mp h), hceil]

/-! ## Powers -/

/-- A power with its factors counted: of the number, or of its inverse. Zero has an infinite
inverse. -/
def powerOfCount (b : Number) (inverted : Prop) [Decidable inverted] (count : Nat) :
    Except Fault Number :=
  if inverted then
    if b.equals (.int 0) then pure (.real infinity)
    else return (Number.real (← (Number.int 1).div b)).powerOf count
  else pure (b.powerOf count)

theorem power_eq_ite (b e : Number) :
    power (some b) (some e) =
      if e.equals (.int 0) then .ok (.int 1)
      else if e.isFinite then do
        let steps ← factorCount e
        if e.less (.int 0) then
          if b.equals (.int 0) then pure (.real infinity)
          else return (Number.real (← (Number.int 1).div b)).powerOf steps
        else pure (b.powerOf steps)
      else .ok (.real nan) := rfl

theorem power_of_zero (he : e.value? = some 0) (b : Number) :
    power (some b) (some e) = .ok (.int 1) := by
  have hzero : (Number.int 0).value? = some 0 := Number.value?_int Int.cast_zero
  rw [power_eq_ite, if_pos ((Number.equals_iff he hzero).mpr rfl)]

/-- A power with a finite exponent that is not zero. -/
theorem power_eq (he : e.value? = some v) (nonzero : v ≠ 0) (b : Number) :
    power (some b) (some e) = powerOfCount b (v < 0) ⌈|v|⌉₊ := by
  have hzero : (Number.int 0).value? = some 0 := Number.value?_int Int.cast_zero
  have hless : e.less (.int 0) = true ↔ v < 0 := Number.less_iff he hzero
  rw [power_eq_ite, if_neg (mt (Number.equals_iff he hzero).mp nonzero),
    if_pos (Number.isFinite_of_value? he), factorCount_eq he]
  show (if e.less (.int 0) then _ else _) = _
  unfold powerOfCount
  by_cases neg : v < 0
  · rw [if_pos neg, if_pos (hless.mpr neg)]
  · rw [if_neg neg, if_neg (mt hless.mp neg)]

/-- The next whole number away from zero has the same sign, and is its own number of factors. -/
theorem sign_mul_ceil (nonzero : v ≠ 0) :
    ((SignType.sign v * ⌈|v|⌉₊ : Int) < 0 ↔ v < 0) ∧
      |((SignType.sign v * ⌈|v|⌉₊ : Int) : ℚ)| = ⌈|v|⌉₊ := by
  have pos : 0 < ⌈|v|⌉₊ := Nat.ceil_pos.mpr (abs_pos.mpr nonzero)
  rcases lt_or_gt_of_ne nonzero with neg | more
  · rw [sign_neg neg]
    exact ⟨iff_of_true (by simpa using pos) neg, by simp⟩
  · rw [sign_pos more]
    exact ⟨iff_of_false (by simp) more.not_gt, by simp⟩

/-- A power of an integer with a positive exponent is the exact power with the exponent rounded up.
Whatever the base, an exponent that is not zero may be rounded to the next whole number away from
zero. -/
theorem power_counts_factors (e : Number) (v : ℚ) (he : e.value? = some v) (nonzero : v ≠ 0) :
    (0 < v → ∀ n : Int, power (some (.int n)) (some e) = .ok (.int (n ^ ⌈v⌉₊))) ∧
      ∀ b : Number,
        power (some b) (some e) = power (some b) (some (.int (SignType.sign v * ⌈|v|⌉₊))) := by
  refine ⟨fun pos n => ?_, fun b => ?_⟩
  · rw [power_eq he nonzero, powerOfCount, if_neg pos.not_gt, Number.powerOf_int, abs_of_pos pos]
    rfl
  · obtain ⟨sign, count⟩ := sign_mul_ceil nonzero
    set n : Int := SignType.sign v * ⌈|v|⌉₊
    have hnonzero : (n : ℚ) ≠ 0 := by
      rw [← abs_pos, count]
      exact_mod_cast Nat.ceil_pos.mpr (abs_pos.mpr nonzero)
    have hsign : (n : ℚ) < 0 ↔ v < 0 := by exact_mod_cast sign
    rw [power_eq he nonzero, power_eq (Number.value?_int rfl) hnonzero, count, Nat.ceil_natCast]
    simp only [hsign]

theorem power_counts_factors_two_and_a_half :
    power (some (.int 3)) (some (.real 2.5)) = .ok (.int 27) ∧
      power (some (.real 0.1)) (some (.real (-2.5))) =
        power (some (.real 0.1)) (some (.int (-3))) := by
  have hvalue : valueOf? 2.5 = some (5 / 2) :=
    valueOf?_eq_some (a := ⟨false, 5 * 2 ^ 50, -51⟩) (by decide +kernel) (by norm_num [value, signed])
  have hexact := (power_counts_factors (.real 2.5) (5 / 2) hvalue (by norm_num)).1 (by norm_num) 3
  have hrounded :=
    (power_counts_factors (.real (-2.5)) (-(5 / 2)) (valueOf?_neg hvalue) (by norm_num)).2 (.real 0.1)
  have hceil : ⌈(5 / 2 : ℚ)⌉₊ = 3 := by norm_num
  rw [hceil] at hexact
  rw [abs_neg, abs_of_pos (by norm_num), hceil, sign_neg (by norm_num)] at hrounded
  exact ⟨hexact, hrounded⟩

end Calculator
