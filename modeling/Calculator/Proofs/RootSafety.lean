import Calculator.Library.Builtin
import Calculator.Proofs.Binary64.Decimals
import Calculator.Proofs.Binary64.Rank
import Calculator.Proofs.Logging
import Calculator.Proofs.Powers
import Calculator.Proofs.Roots

/-!
# The square root has a value

With every positive cap and every tolerance that is not negative the square root of a number is a
number again, with one exception. No guess is zero when something is divided by it, unless half of the
number is rounded to zero; that happens only for the least positive number, and zero is close enough to
its root unless the tolerance is zero too. What is converted to an integer is finite, and its integer
part is converted back without rounding.

Results:
1. `Root.newton_ensures`: the unrounded root.
2. `Root.rounded_ensures`: the root is rounded to a whole number.
3. `squareRoot_value_or_underflow`: the result, or the one fault.
-/

namespace Calculator

open Binary64 Logging

/-! ## Definitions -/

/-- Half of the number is rounded to zero, and zero is not good enough. -/
def Underflows (x : Float) (tolerance : Number) : Prop :=
  valueOf? x = some (2 ^ (-1074 : Int)) ∧ tolerance.value? = some 0

/-- The square root of a number, a whole one wherever the number is positive and not one. -/
inductive IsSquareRoot (x : Float) : Float → Prop
  | unchanged (h : valueOf? x = some 0 ∨ valueOf? x = some 1) : IsSquareRoot x x
  | undefined {y : Float} (h : x.isNaN = true ∨ x < 0.0) (hy : y.isNaN = true) : IsSquareRoot x y
  | infinite (h : x = infinity) : IsSquareRoot x infinity
  | whole {y : Float} {v : ℚ} (n : Nat) (h : valueOf? x = some v) (pos : 0 < v) (other : v ≠ 1)
      (hy : valueOf? y = some n) : IsSquareRoot x y

/-! ## Conversions -/

namespace Number

theorem toFloat_int {n : Int} {B : ℚ} (grid : OnGrid B) (le : |(n : ℚ)| ≤ B) :
    (int n).toFloat = .ok (Float.ofInt n) := by
  obtain ⟨v, hv, -⟩ := (near_ofInt n).within grid.neg grid (neg_le_of_abs_le le) (le_of_abs_le le)
  unfold toFloat
  dsimp only
  rw [isInf_eq_false hv]
  rfl

/-- The integer part of a finite number that is not negative. -/
theorem truncate_real {x : Float} {v : ℚ} (hx : valueOf? x = some v) (nonneg : 0 ≤ v) :
    (real x).truncate = .ok ⌊v⌋₊ := by
  obtain ⟨s, n, htruncate, hv, hn⟩ := exists_truncate (e := real x) hx
  rw [abs_of_nonneg nonneg] at hv hn
  have hfloor : n = ⌊v⌋₊ := by
    cases s with
    | positive =>
      have hn : (n : ℚ) = ⌊v⌋₊ := hn
      exact_mod_cast hn
    | negative =>
      have zero : v = 0 := le_antisymm (hv.trans_le (neg_nonpos.mpr nonneg)) nonneg
      rw [zero, Nat.floor_zero, Nat.cast_zero, signed_zero] at hn
      rw [zero, Nat.floor_zero, Nat.cast_zero]
      exact_mod_cast hn
  rw [htruncate, hfloor]

/-- The least number of the format is within every tolerance but zero and what is below. -/
theorem atMost_of_value?_ne_zero {tolerance : Number} {x : Float}
    (hx : valueOf? x = some (2 ^ (-1074 : Int))) (nonneg : (int 0).atMost tolerance = true)
    (nonzero : tolerance.value? ≠ some 0) : (real x).atMost tolerance = true := by
  have hzero : (int 0).value? = some 0 := value?_int Int.cast_zero
  have hx : (real x).value? = some (2 ^ (-1074 : Int)) := hx
  cases ht : tolerance.value? with
  | some w =>
    rw [ht, ne_eq, Option.some_inj] at nonzero
    rw [atMost_iff hzero ht] at nonneg
    have pos : 0 < w := lt_of_le_of_ne nonneg (Ne.symm nonzero)
    rw [atMost_iff hx ht]
    cases tolerance with
    | int n =>
      cases ht
      have one_le : (1 : ℚ) ≤ n := by exact_mod_cast Int.cast_pos.mp pos
      exact (zpow_le_one_of_nonpos₀ one_le_two (by decide)).trans one_le
    | real t =>
      rcases (onGrid_of_valueOf? ht).eq_least_or_ge pos with rfl | more
      · exact le_rfl
      · exact (zpow_le_zpow_right₀ one_le_two (by decide)).trans more
  | none =>
    obtain ⟨r, s, hr, hs, le⟩ := atMost_iff_rank.mp nonneg
    cases hr
    match s with
    | none => exact absurd le (WithBot.bot_lt_coe _).not_ge
    | some none => exact atMost_iff_rank.mpr ⟨_, ⊤, rank?_of_value? hx, hs, le_top⟩
    | some (some w) =>
      cases tolerance with
      | int n => cases ht
      | real t => cases ht.symm.trans (rank?_eq_coe_iff.mp hs)

end Number

/-! ## Roots -/

theorem valueOf?_coarseTolerance :
    valueOf? coarseTolerance = some (7378697629483821 * 2 ^ (-66 : Int)) :=
  valueOf?_eq_some (a := ⟨false, 7378697629483821, -66⟩) rfl
    (by norm_num [value, signed])

namespace Root

variable {cap : Int} {x : Number} {start target : Float} {tolerance : Number} {Q : Float → Prop}

/-- A root has a value if the guess in which the iteration ends is not stuck. -/
theorem newton_gives (hstart : x.div (.int 2) = .ok start)
    (htarget : x.toFloat = .ok target)
    (moving : stuck target tolerance (run cap.toNat target tolerance start).1 = false)
    (hQ : Q (run cap.toNat target tolerance start).1.value) :
    (newton cap x (some tolerance)).Gives Q := by
  unfold newton
  refine ensures_lift_bind hstart (ensures_ite (fun stepless => ?_) fun _ => ?_)
  · rw [Int.toNat_of_nonpos stepless] at hQ
    exact (ensures_warn _).bind fun _ _ => ensures_pure hQ
  refine ensures_lift_bind htarget (ensures_lift_bind rfl (ensures_ite (fun h => ?_) fun _ => ?_))
  · change ((run cap.toNat target tolerance start).2 &&
      stuck target tolerance (run cap.toNat target tolerance start).1) = true at h
    rw [moving, Bool.and_false] at h
    cases h
  · exact ensures_converged hQ

/-- The iteration goes nowhere from a guess for which the test holds. -/
theorem run_of_settled (cap : Nat) (h : settled target tolerance ⟨start, 0⟩ = true) :
    run cap target tolerance start = (⟨start, 0⟩, decide (0 < cap)) := by
  unfold run
  cases cap with
  | zero => rfl
  | succ cap =>
    rw [testFirst, h, decide_eq_true cap.succ_pos]
    rfl

/-- A first guess that is close is the root. -/
theorem newton_of_close (hstart : x.div (.int 2) = .ok start)
    (htarget : x.toFloat = .ok target) (hclose : close target tolerance start = true)
    (hQ : Q start) : (newton cap x (some tolerance)).Gives Q := by
  have hsettled : settled target tolerance ⟨start, 0⟩ = true := by
    unfold settled
    rw [hclose]
    rfl
  refine newton_gives hstart htarget ?_ (by rwa [run_of_settled cap.toNat hsettled])
  unfold stuck
  rw [run_of_settled cap.toNat hsettled, hclose, Bool.not_true, Bool.and_false]

/-- A first guess that is stuck is a fault. -/
theorem newton_of_stuck {E : Fault → Prop} (pos : 0 < cap) (hstart : x.div (.int 2) = .ok start)
    (htarget : x.toFloat = .ok target) (hstuck : stuck target tolerance ⟨start, 0⟩ = true)
    (hE : E .zeroDivision) : (newton cap x (some tolerance)).Ensures Q E := by
  have hsettled : settled target tolerance ⟨start, 0⟩ = true := by
    unfold settled
    rw [hstuck, Bool.or_true, Bool.true_or]
  unfold newton
  refine ensures_lift_bind hstart (ensures_ite (fun none => absurd none pos.not_ge) fun _ => ?_)
  refine ensures_lift_bind htarget (ensures_lift_bind rfl (ensures_ite (fun _ => ?_) fun h => ?_))
  · exact ensures_throw hE
  · refine absurd ?_ h
    show ((run cap.toNat target tolerance start).2 &&
      stuck target tolerance (run cap.toNat target tolerance start).1) = true
    rw [run_of_settled cap.toNat hsettled, hstuck, decide_eq_true (by omega)]
    rfl

/-- Half of the least number of the format is rounded to zero. -/
theorem valueOf?_half_least {x : Float} (hx : valueOf? x = some (2 ^ (-1074 : Int))) :
    valueOf? (x / 2.0) = some 0 := by
  have hleast : valueOf? (.ofBits 1) = some (2 ^ (-1074 : Int)) :=
    valueOf?_eq_some (a := ⟨false, 1, -1074⟩) rfl (by norm_num [value, signed])
  have eq : x = .ofBits 1 := eq_of_valueOf?_ne_zero hx hleast (zpow_pos two_pos _).ne'
  rw [eq]
  exact valueOf?_eq_some (a := ⟨false, 0, 0⟩) rfl (by norm_num [value, signed])

/-- The square of a guess that is zero lacks the whole number. -/
theorem valueOf?_sub_of_zero {x guess : Float} {v : ℚ} (hguess : valueOf? guess = some 0)
    (hx : valueOf? x = some v) : valueOf? (guess * guess - x) = some (-v) := by
  have hsquare : valueOf? (guess * guess) = some 0 := by
    have near := near_mul hguess hguess
    rw [mul_zero] at near
    exact near.valueOf?_eq onGrid_zero
  have near := near_sub hsquare hx
  rw [zero_sub] at near
  exact near.valueOf?_eq (onGrid_of_valueOf? hx).neg

/-- The first guess for the root of the least number of the format is zero, which is close enough
unless the tolerance is zero. -/
theorem newton_least (hcap : 0 < cap) {x : Float} (hx : valueOf? x = some (2 ^ (-1074 : Int)))
    (nonneg : (Number.int 0).atMost tolerance = true) :
    (newton cap (.real x) (some tolerance)).Ensures
      (fun root => ¬Underflows x tolerance ∧ Within 0 (2 ^ (1023 : Int)) root)
      (fun fault => Underflows x tolerance ∧ fault = .zeroDivision) := by
  have pos : (0 : ℚ) < 2 ^ (-1074 : Int) := zpow_pos two_pos _
  have hdiv : (Number.real x).div (.int 2) = .ok (x / 2.0) := rfl
  have hstart := valueOf?_half_least hx
  have habs := valueOf?_abs (valueOf?_sub_of_zero hstart hx)
  rw [abs_neg, abs_of_pos pos] at habs
  by_cases hzero : tolerance.value? = some 0
  · have far : close x tolerance (x / 2.0) = false := by
      have habs : (Number.real (x / 2.0 * (x / 2.0) - x).abs).value? = _ := habs
      unfold close within
      rw [← Bool.not_eq_true, Number.atMost_iff habs hzero, not_le]
      exact pos
    refine newton_of_stuck hcap hdiv rfl ?_ ⟨⟨hx, hzero⟩, rfl⟩
    unfold stuck
    rw [far, (beq_iff hstart valueOf?_zero).mpr rfl]
    rfl
  · refine (newton_of_close (Q := Within 0 (2 ^ (1023 : Int))) hdiv rfl ?_ ?_).mono
      (fun root h => ⟨fun underflow => hzero underflow.2, h⟩) nofun
    · exact Number.atMost_of_value?_ne_zero habs nonneg hzero
    · exact ⟨0, hstart, le_rfl, (zpow_pos two_pos _).le⟩

/-- The guesses for the root of a greater number are neither zero nor too great. -/
theorem newton_of_le {x : Float} {v : ℚ} (hx : valueOf? x = some v) (large : 2 ^ (-1073 : Int) ≤ v) :
    (newton cap (.real x) (some tolerance)).Gives (Within 0 (2 ^ (1023 : Int))) := by
  obtain ⟨a, l, scale, start⟩ := exists_scale hx large
  obtain ⟨r, hr, r_ge, r_le⟩ := scale.run start cap.toNat tolerance
  have pos : 0 < r := lt_of_lt_of_le (zpow_pos two_pos l) r_ge
  exact newton_gives rfl rfl (stuck_eq_false hr pos) ⟨r, hr, pos.le, r_le⟩

/-- The iteration for a positive number ends in a guess that is not too great to be rounded, or at
once where half of the number is rounded to zero. -/
theorem newton_ensures (hcap : 0 < cap) {x : Float} {v : ℚ} (hx : valueOf? x = some v) (pos : 0 < v)
    (nonneg : (Number.int 0).atMost tolerance = true) :
    (newton cap (.real x) (some tolerance)).Ensures
      (fun root => ¬Underflows x tolerance ∧ Within 0 (2 ^ (1023 : Int)) root)
      (fun fault => Underflows x tolerance ∧ fault = .zeroDivision) := by
  rcases (onGrid_of_valueOf? hx).eq_least_or_ge pos with rfl | large
  · exact newton_least hcap hx nonneg
  · have regular : ¬Underflows x tolerance := by
      rintro ⟨least, -⟩
      cases hx.symm.trans least
      exact absurd large (zpow_lt_zpow_right₀ one_lt_two (by decide)).not_ge
    exact (newton_of_le hx large).mono (fun root h => ⟨regular, h⟩) nofun

/-! ## Whole numbers -/

/-- One half is added to the root, and the integer part is converted back without rounding. -/
theorem rounded_ensures {root : Float} (h : Within 0 (2 ^ (1023 : Int)) root) {E : Fault → Prop} :
    Logging.Ensures (do
      let whole ← (Number.real (root + 0.5)).truncate
      return Number.real (← (Number.int whole).toFloat) : Numeric Number)
      (fun a => ∃ y w, a = .real y ∧ valueOf? (root + 0.5) = some w ∧ valueOf? y = some ⌊w⌋₊) E := by
  obtain ⟨r, hr, r_ge, r_le⟩ := h
  have grid : OnGrid (3 * 2 ^ (1022 : Int)) := onGrid_three_mul (by decide) le_rfl
  have room : r + 1 / 2 ≤ 3 * 2 ^ (1022 : Int) := by
    have one_le : (1 : ℚ) ≤ 2 ^ (1022 : Int) := one_le_zpow₀ one_le_two (by decide)
    rw [show (1023 : Int) = 1022 + 1 from rfl, zpow_add_one₀ two_ne_zero] at r_le
    generalize (2 : ℚ) ^ (1022 : Int) = most at r_le one_le ⊢
    linarith
  obtain ⟨w, hw, w_ge, -⟩ :=
    (near_add hr valueOf?_half).within onGrid_zero grid (by linarith) room
  have whole : OnGrid ⌊w⌋₊ := (onGrid_of_valueOf? hw).floor w_ge
  have hfloat := Number.toFloat_int (n := ⌊w⌋₊) whole (by rw [Int.cast_natCast, Nat.abs_cast])
  refine ensures_lift_bind (Number.truncate_real hw w_ge) (ensures_lift_bind hfloat ?_)
  have near := near_ofInt ⌊w⌋₊
  rw [Int.cast_natCast] at near
  exact ensures_pure ⟨_, w, rfl, hw, near.valueOf?_eq whole⟩

end Root

/-! ## The square root -/

section Tests

variable {x : Float}

theorem valueOf?_of_equals {n : Int} (h : (Number.real x).equals (.int n) = true) :
    valueOf? x = some (n : ℚ) := by
  obtain ⟨r, hx, hn⟩ := Number.equals_iff_rank.mp h
  cases hn
  exact rank?_eq_coe_iff.mp hx

theorem eq_infinity_of_equals (h : (Number.real x).equals (.real infinity) = true) :
    x = infinity :=
  eq_of_unpack_eq ((Number.equals_infinity_iff.mp h).trans unpack_infinity.symm)

theorem lt_zero_of_less (h : (Number.real x).less (.int 0) = true) : x < 0.0 := by
  obtain ⟨r, s, hx, hs, less⟩ := Number.less_iff_rank.mp h
  cases hs
  rw [Int.cast_zero] at less
  exact lt_iff_rank.mpr ⟨r, _, hx, rank?_of_value? valueOf?_zero, less⟩

/-- Behind the tests of the square root the number is finite, positive and not one. -/
theorem exists_pos_of_tests
    (zero : ¬((Number.real x).equals (.int 0) || (Number.real x).equals (.int 1)) = true)
    (negative : ¬((Number.real x).isNaN || (Number.real x).less (.int 0)) = true)
    (infinite : ¬(Number.real x).equals (.real infinity) = true) :
    ∃ v, valueOf? x = some v ∧ 0 < v ∧ v ≠ 1 := by
  rw [Bool.or_eq_true, not_or] at zero negative
  cases hx : valueOf? x with
  | some v =>
    have hvalue : (Number.real x).value? = some v := hx
    have hzero : (Number.int 0).value? = some 0 := Number.value?_int Int.cast_zero
    have hone : (Number.int 1).value? = some 1 := Number.value?_int Int.cast_one
    obtain ⟨nonzero, other⟩ := zero
    have nonneg := negative.2
    rw [Number.less_iff hvalue hzero, not_lt] at nonneg
    rw [Number.equals_iff hvalue hzero] at nonzero
    rw [Number.equals_iff hvalue hone] at other
    exact ⟨v, rfl, lt_of_le_of_ne nonneg (Ne.symm nonzero), other⟩
  | none =>
    obtain ⟨s, hs⟩ := exists_infinity hx (Bool.not_eq_true _ ▸ negative.1)
    cases s with
    | positive => exact absurd (Number.equals_infinity_iff.mpr hs) infinite
    | negative => exact absurd (Number.less_zero_of_infinity hs) negative.2

end Tests

/-- Under every positive cap and with every tolerance that is not negative the square root of a number
has a value, unless half of the number is rounded to zero and the tolerance is zero: then zero is
divided by. -/
theorem squareRoot_value_or_underflow {cap : Int} (positive : 0 < cap) (x : Float)
    {tolerance : Number} (nonneg : (Number.int 0).atMost tolerance = true) :
    (squareRoot cap (.real x) (some tolerance)).Ensures
      (fun root => ¬Underflows x tolerance ∧ ∃ y, root = .real y ∧ IsSquareRoot x y)
      (fun fault => Underflows x tolerance ∧ fault = .zeroDivision) := by
  unfold squareRoot
  refine ensures_ite (fun test => ?_) fun zero => ?_
  · have hx : valueOf? x = some 0 ∨ valueOf? x = some 1 := by
      rw [Bool.or_eq_true] at test
      exact_mod_cast test.imp valueOf?_of_equals valueOf?_of_equals
    refine ensures_pure ⟨fun underflow => ?_, x, rfl, .unchanged hx⟩
    have tiny : (2 : ℚ) ^ (-1074 : Int) < 1 := zpow_lt_one_of_neg₀ one_lt_two (by decide)
    rw [underflow.1, Option.some_inj, Option.some_inj] at hx
    exact hx.elim (zpow_pos two_pos _).ne' tiny.ne
  refine ensures_ite (fun test => ?_) fun negative => ?_
  · have hx : x.isNaN = true ∨ x < 0.0 := by
      rw [Bool.or_eq_true] at test
      exact test.imp id lt_zero_of_less
    refine ensures_pure ⟨fun underflow => ?_, nan, rfl, .undefined hx rfl⟩
    rw [isNaN_eq_false underflow.1, lt_iff underflow.1 valueOf?_zero] at hx
    exact hx.elim nofun (zpow_pos two_pos _).not_gt
  refine ensures_ite (fun test => ?_) fun infinite => ?_
  · have hx : x = infinity := eq_infinity_of_equals test
    refine ensures_pure ⟨fun underflow => ?_, infinity, rfl, .infinite hx⟩
    rw [Underflows, hx] at underflow
    cases underflow.1
  obtain ⟨v, hv, pos, other⟩ := exists_pos_of_tests zero negative infinite
  refine (Root.newton_ensures positive hv pos nonneg).bind fun root ⟨regular, hroot⟩ => ?_
  refine (Root.rounded_ensures hroot).mono (fun a h => ?_) fun _ => id
  obtain ⟨y, w, ha, -, hy⟩ := h
  exact ⟨regular, y, ha, .whole ⌊w⌋₊ hv pos other hy⟩

/-- The root of nine with the tolerance zero, after one step. -/
theorem squareRoot_value_or_underflow_nine :
    (0 : Int) < 1 ∧ (Number.int 0).atMost (.real 0.0) = true ∧
    (squareRoot 1 (.real 9.0) (some (.real 0.0))).Ensures
      (fun root => ¬Underflows 9.0 (.real 0.0) ∧ ∃ y, root = .real y ∧ IsSquareRoot 9.0 y)
      (fun fault => Underflows 9.0 (.real 0.0) ∧ fault = .zeroDivision) :=
  have nonneg : (Number.int 0).atMost (.real 0.0) = true := by decide
  ⟨by decide, nonneg, squareRoot_value_or_underflow (by decide) 9.0 nonneg⟩

/-- With the tolerance zero the least positive number has no root. -/
theorem squareRoot_divides_by_zero :
    (Number.int 0).atMost (.real 0.0) = true ∧
    ((squareRoot defaultCap (.real 5e-324) (some (.real 0.0))).outcome []).1 =
      .error .zeroDivision := by
  decide +kernel

end Calculator
