import Calculator.Number
import Calculator.Proofs.Binary64.Arithmetic

/-!
# The order of floating-point numbers and of numbers

Finite numbers are compared by their exact values: two floating-point numbers, and also a
floating-point number and an integer, where neither is rounded.

Results:
1. `compare_eq`: canonical numbers are compared by their values.
2. `lt_iff`, `beq_iff`: the order of finite floating-point numbers.
3. `Number.compare_eq`: the order of numbers of either kind.
-/

namespace Calculator

namespace Binary64

open Float.Model UnpackedFloat

/-! ## Canonical numbers -/

/-- Canonical numbers are compared by their exponents first. -/
theorem compare_canonical {m m' : Nat} {e e' : Int} (h : Canonical m e) (h' : Canonical m' e') :
    (compare e e').then (compare m m') = compare ((m : ℚ) * 2 ^ e) (m' * 2 ^ e') := by
  rcases lt_trichotomy e e' with less | rfl | more
  · rw [compare_lt_iff_lt.mpr less, compare_lt_iff_lt.mpr (mul_lt_of_exponent_lt h h' less)]
    rfl
  · have pos : (0 : ℚ) < 2 ^ e := zpow_pos two_pos e
    rw [compare_eq_iff_eq.mpr rfl, Ordering.eq_then]
    rw [← cmp_eq_compare, ← cmp_eq_compare, cmp_mul_pos_right pos]
    exact (Nat.strictMono_cast.cmp_map_eq m m').symm
  · rw [compare_gt_iff_gt.mpr more, compare_gt_iff_gt.mpr (mul_lt_of_exponent_lt h' h more)]
    rfl

theorem compare_neg (a b : ℚ) : compare (-a) (-b) = (compare a b).swap := by
  have anti : StrictAnti fun a : ℚ => -a := fun _ _ => neg_lt_neg
  rw [← cmp_eq_compare, ← cmp_eq_compare, cmp_swap]
  exact anti.cmp_map_eq a b

variable {x y : Float} {u w : UnpackedFloat} {v v' : ℚ}

/-- What is stored is compared by its value. -/
theorem compare_eq (hu : IsStored u) (hw : IsStored w) (hv : value? u = some v)
    (hv' : value? w = some v') : u.compare w = some (compare v v') := by
  cases u with
  | notANumber | infinity => cases hv
  | zero s =>
    cases hv
    cases w with
    | notANumber | infinity => cases hv'
    | zero s' =>
      cases hv'
      exact congrArg some (compare_eq_iff_eq.mpr rfl).symm
    | finite s' m' e' pos' =>
      cases hv'
      have hpos : (0 : ℚ) < m' * 2 ^ e' := by positivity
      cases s' with
      | positive => exact congrArg some (compare_lt_iff_lt.mpr hpos).symm
      | negative => exact congrArg some (compare_gt_iff_gt.mpr (neg_neg_of_pos hpos)).symm
  | finite s m e pos =>
    cases hv
    have hpos : (0 : ℚ) < m * 2 ^ e := by positivity
    cases w with
    | notANumber | infinity => cases hv'
    | zero s' =>
      cases hv'
      cases s with
      | positive => exact congrArg some (compare_gt_iff_gt.mpr hpos).symm
      | negative => exact congrArg some (compare_lt_iff_lt.mpr (neg_neg_of_pos hpos)).symm
    | finite s' m' e' pos' =>
      cases hv'
      have hpos' : (0 : ℚ) < m' * 2 ^ e' := by positivity
      have hcompare := compare_canonical hu.1 hw.1
      cases s with
      | positive =>
        cases s' with
        | positive => exact congrArg some hcompare
        | negative =>
          exact congrArg some (compare_gt_iff_gt.mpr ((neg_neg_of_pos hpos').trans hpos)).symm
      | negative =>
        cases s' with
        | positive =>
          exact congrArg some (compare_lt_iff_lt.mpr ((neg_neg_of_pos hpos).trans hpos')).symm
        | negative =>
          rw [signed, signed, compare_neg, ← hcompare]
          rfl

/-! ## Floating-point numbers -/

theorem compare_toModel (hx : valueOf? x = some v) (hy : valueOf? y = some v') :
    x.toModel.unpack.compare y.toModel.unpack = some (compare v v') :=
  compare_eq (isStored_unpack _) (isStored_unpack _) hx hy

theorem lt_iff (hx : valueOf? x = some v) (hy : valueOf? y = some v') : x < y ↔ v < v' := by
  show decide (x.toModel < y.toModel) = true ↔ _
  rw [decide_eq_true_iff]
  show (x.toModel.unpack.compare y.toModel.unpack == some .lt) = true ↔ _
  rw [compare_toModel hx hy, beq_iff_eq, Option.some_inj, compare_lt_iff_lt]

theorem le_iff (hx : valueOf? x = some v) (hy : valueOf? y = some v') : x ≤ y ↔ v ≤ v' := by
  show decide (x.toModel ≤ y.toModel) = true ↔ _
  rw [decide_eq_true_iff]
  show (x.toModel.unpack.compare y.toModel.unpack).any (·.isLE) = true ↔ _
  rw [compare_toModel hx hy, Option.any_some, Ordering.isLE_iff_ne_gt]
  exact compare_le_iff_le

theorem beq_iff (hx : valueOf? x = some v) (hy : valueOf? y = some v') :
    (x == y) = true ↔ v = v' := by
  show (x.toModel.unpack.compare y.toModel.unpack == some .eq) = true ↔ _
  rw [compare_toModel hx hy, beq_iff_eq, Option.some_inj, compare_eq_iff_eq]

theorem compareFloats_eq (hx : valueOf? x = some v) (hy : valueOf? y = some v') :
    Number.compareFloats x y = some (compare v v') := by
  unfold Number.compareFloats
  rcases lt_trichotomy v v' with less | rfl | more
  · rw [if_pos ((lt_iff hx hy).mpr less), compare_lt_iff_lt.mpr less]
  · rw [if_neg (mt (lt_iff hx hy).mp (lt_irrefl v)), if_pos ((beq_iff hx hy).mpr rfl),
      compare_eq_iff_eq.mpr rfl]
  · rw [if_neg (mt (lt_iff hx hy).mp more.le.not_gt), if_neg (mt (beq_iff hx hy).mp more.ne'),
      if_pos ((lt_iff hy hx).mpr more), compare_gt_iff_gt.mpr more]

/-! ## Infinities -/

theorem exists_valueOf? (h : x.isFinite = true) : ∃ v, valueOf? x = some v := by
  unfold valueOf?
  have finite : x.toModel.unpack.isFinite = true := h
  generalize x.toModel.unpack = u at finite ⊢
  cases u with
  | notANumber | infinity => cases finite
  | zero | finite => exact ⟨_, rfl⟩

theorem isInf_eq_false (h : valueOf? x = some v) : x.isInf = false := by
  show x.toModel.unpack.isInf = false
  unfold valueOf? at h
  generalize x.toModel.unpack = u at h ⊢
  cases u with
  | notANumber | infinity => cases h
  | zero | finite => rfl

theorem isNaN_eq_false (h : valueOf? x = some v) : x.isNaN = false := by
  show x.toModel.unpack.isNaN = false
  unfold valueOf? at h
  generalize x.toModel.unpack = u at h ⊢
  cases u with
  | notANumber | infinity => cases h
  | zero | finite => rfl

theorem exists_infinity (h : valueOf? x = none) (number : x.isNaN = false) :
    ∃ s, x.toModel.unpack = .infinity s := by
  unfold valueOf? at h
  have number : x.toModel.unpack.isNaN = false := number
  generalize x.toModel.unpack = u at h number ⊢
  cases u with
  | notANumber => cases number
  | infinity s => exact ⟨s, rfl⟩
  | zero | finite => cases h

/-- What is not finite equals no finite number. -/
theorem beq_eq_false (hx : valueOf? x = none) (hy : valueOf? y = some v) : (x == y) = false := by
  show (x.toModel.unpack.compare y.toModel.unpack == some .eq) = false
  unfold valueOf? at hx hy
  generalize x.toModel.unpack = u at hx ⊢
  generalize y.toModel.unpack = w at hy ⊢
  cases u with
  | zero | finite => cases hx
  | notANumber => rfl
  | infinity s =>
    cases w with
    | notANumber | infinity => cases hy
    | zero | finite => cases s <;> rfl

theorem unpack_infinity : infinity.toModel.unpack = .infinity .positive := by
  have packed : infinity = .ofModel (.pack (.infinity .positive)) := rfl
  rw [packed]
  exact stored_infinity _

/-- A finite number divided by an infinity is zero. -/
theorem valueOf?_div_infinity {s : Sign} (hx : valueOf? x = some v)
    (hy : y.toModel.unpack = .infinity s) : valueOf? (x / y) = some 0 := by
  show value? (stored (UnpackedFloat.div Format.binary64 x.toModel.unpack y.toModel.unpack)) =
    some 0
  rw [hy]
  unfold valueOf? at hx
  generalize x.toModel.unpack = u at hx ⊢
  cases u with
  | notANumber | infinity => cases hx
  | zero | finite => exact congrArg value? (stored_zero _)

/-! ## Integers -/

theorem value_eq_div (a : Scaled) : value a = a.signed a.fraction.1 / a.fraction.2 := by
  have hpow : (2 : ℚ) ^ a.exponent = 2 ^ a.exponent.toNat / 2 ^ (-a.exponent).toNat := by
    conv_lhs => rw [← Int.toNat_sub_toNat_neg a.exponent]
    rw [zpow_sub₀ two_ne_zero, zpow_natCast, zpow_natCast]
  obtain ⟨negative, mantissa, exponent⟩ := a
  unfold value Scaled.signed Scaled.fraction
  dsimp only at hpow ⊢
  rw [hpow]
  cases negative with
  | false => simp [signed, mul_div_assoc]
  | true => simp [signed, mul_div_assoc, neg_div]

theorem compareInt_eq (a : Scaled) (n : Int) : a.compareInt n = compare (value a) n := by
  have pos : (0 : ℚ) < a.fraction.2 := by
    have : 0 < a.fraction.2 := Nat.pow_pos two_pos
    exact_mod_cast this
  rw [value_eq_div, ← cmp_eq_compare, ← cmp_mul_pos_right pos, div_mul_cancel₀ _ pos.ne']
  unfold Scaled.compareInt
  rw [← cmp_eq_compare, ← (Int.cast_strictMono (R := ℚ)).cmp_map_eq]
  push_cast
  rfl

theorem compareIntFloat_eq (n : Int) (hx : valueOf? x = some v) :
    Number.compareIntFloat n x = some (compare (n : ℚ) v) := by
  rw [valueOf?_eq] at hx
  obtain ⟨a, ha, rfl⟩ := Option.map_eq_some_iff.mp hx
  unfold Number.compareIntFloat
  rw [ha]
  dsimp only
  rw [compareInt_eq, ← cmp_eq_compare, cmp_swap, cmp_eq_compare]

end Binary64

namespace Scaled

open Binary64

theorem fraction_pos (a : Scaled) : (0 : ℚ) < a.fraction.2 := by
  exact_mod_cast (Nat.pow_pos two_pos : 0 < a.fraction.2)

theorem cast_signed (a : Scaled) (m : Nat) :
    (a.signed m : ℚ) = Binary64.signed (if a.negative then .negative else .positive) m := by
  unfold Scaled.signed
  cases a.negative with
  | false => exact Int.cast_natCast m
  | true => exact (Int.cast_neg _).trans (congrArg _ (Int.cast_natCast m))

theorem abs_value (a : Scaled) : |value a| = a.fraction.1 / a.fraction.2 := by
  rw [value_eq_div, abs_div, cast_signed, abs_signed, Nat.abs_cast, Nat.abs_cast]

end Scaled

namespace Number

open Binary64

/-- The exact value of a number that is finite. -/
def value? : Number → Option ℚ
  | .int n => some n
  | .real x => valueOf? x

theorem value?_int {n : Int} {v : ℚ} (h : (n : ℚ) = v) : (Number.int n).value? = some v :=
  congrArg some h

/-- Finite numbers are compared by their exact values. -/
theorem compare_eq {a b : Number} {v v' : ℚ} (ha : a.value? = some v) (hb : b.value? = some v') :
    a.compare b = some (compare v v') := by
  cases a with
  | int m =>
    cases ha
    cases b with
    | int n =>
      cases hb
      show some (compare m n) = _
      rw [← cmp_eq_compare, ← cmp_eq_compare, (Int.cast_strictMono (R := ℚ)).cmp_map_eq]
    | real y => exact compareIntFloat_eq m hb
  | real x =>
    cases b with
    | int n =>
      cases hb
      show (compareIntFloat n x).map Ordering.swap = _
      rw [compareIntFloat_eq n ha, Option.map_some, ← cmp_eq_compare, cmp_swap, cmp_eq_compare]
    | real y => exact compareFloats_eq ha hb

theorem less_iff {a b : Number} {v v' : ℚ} (ha : a.value? = some v) (hb : b.value? = some v') :
    a.less b = true ↔ v < v' := by
  unfold Number.less
  rw [compare_eq ha hb, beq_iff_eq, Option.some_inj, compare_lt_iff_lt]

theorem equals_iff {a b : Number} {v v' : ℚ} (ha : a.value? = some v) (hb : b.value? = some v') :
    a.equals b = true ↔ v = v' := by
  unfold Number.equals
  rw [compare_eq ha hb, beq_iff_eq, Option.some_inj, compare_eq_iff_eq]

/-- What equals zero as a floating-point number equals the integer zero. -/
theorem equals_zero_of_beq {x : Float} (h : (x == 0.0) = true) :
    (Number.real x).equals (.int 0) = true := by
  cases hx : valueOf? x with
  | none =>
    rw [beq_eq_false hx valueOf?_zero] at h
    cases h
  | some v =>
    rw [beq_iff hx valueOf?_zero] at h
    exact (equals_iff (a := .real x) hx (value?_int Int.cast_zero)).mpr h

theorem atMost_iff {a b : Number} {v v' : ℚ} (ha : a.value? = some v) (hb : b.value? = some v') :
    a.atMost b = true ↔ v ≤ v' := by
  unfold Number.atMost
  rw [compare_eq ha hb, Option.any_some, Ordering.isLE_iff_ne_gt]
  exact compare_le_iff_le

theorem value?_neg {a : Number} {v : ℚ} (ha : a.value? = some v) : a.neg.value? = some (-v) := by
  cases a with
  | int n =>
    cases ha
    exact congrArg some (Int.cast_neg n)
  | real x => exact valueOf?_neg ha

theorem value?_abs {a : Number} {v : ℚ} (ha : a.value? = some v) : a.abs.value? = some |v| := by
  have hzero : (Number.int 0).value? = some 0 := value?_int Int.cast_zero
  unfold Number.abs
  by_cases nonneg : (0 : ℚ) ≤ v
  · rw [if_pos ((atMost_iff hzero ha).mpr nonneg), abs_of_nonneg nonneg, ha]
  · rw [if_neg (mt (atMost_iff hzero ha).mp nonneg), abs_of_neg (not_le.mp nonneg), value?_neg ha]

end Number

end Calculator
