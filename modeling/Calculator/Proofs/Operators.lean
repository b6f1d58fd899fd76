import Calculator.Proofs.Binary64.Remainder
import Calculator.Proofs.Outcome

/-!
# Operators on floating-point numbers

On floating-point numbers the operators are those of the format. The quotient needs a rule of its
own where the divisor is zero, and the remainder where there is none; both give what the division of
the format and the truncated remainder give there as well.

Results:
1. `Operator.quotient_real`, `Operator.remainder_real`: the rules for the divisor zero.
2. `Operator.apply_real`: every operator is the operation of the format.
-/

namespace Calculator

open Binary64 Float.Model UnpackedFloat

namespace Binary64

variable {x y : Float} {s s' : Sign}

/-! ## Division by zero -/

/-- Division is that of the unpacked numbers. -/
theorem div_eq (x y : Float) :
    x / y = .ofModel (.pack (.div .binary64 x.toModel.unpack y.toModel.unpack)) := rfl

/-- Zero by zero is not a number, nor is what is not a number by zero. -/
theorem div_zero_eq_nan (hy : y.toModel.unpack = .zero s)
    (hx : x.toModel.unpack = .notANumber ∨ ∃ s', x.toModel.unpack = .zero s') : x / y = nan := by
  have hnan : nan = .ofModel (.pack .notANumber) := rfl
  rw [div_eq, hy, hnan]
  rcases hx with hx | ⟨s', hx⟩ <;> rw [hx] <;> rfl

/-- Anything else by zero is an infinity whose sign is that of the operands together. -/
theorem unpacked_div_zero {u : UnpackedFloat} (hu : sign? u = some s') (nonzero : value? u ≠ some 0) :
    UnpackedFloat.div Format.binary64 u (.zero s) = .infinity (s' / s) := by
  cases u with
  | notANumber => cases hu
  | zero => exact absurd rfl nonzero
  | infinity | finite =>
    cases hu
    rfl

theorem div_zero_eq_infinity (hy : y.toModel.unpack = .zero s)
    (hx : sign? x.toModel.unpack = some s') (nonzero : valueOf? x ≠ some 0) :
    x / y = copySign 1.0 x * copySign infinity y := by
  have hquotient : x / y = .ofModel (.pack (.infinity (s' / s))) := by
    rw [div_eq, hy, unpacked_div_zero hx nonzero]
  have hsign : sign? y.toModel.unpack = some s := by rw [hy]; rfl
  have closed : ∀ s s' : Sign, Float.ofModel (.pack (.infinity (s' / s))) =
      withSign (Float.abs 1.0) s' * withSign infinity.abs s := by
    intro s s'
    cases s <;> cases s' <;> rfl
  rw [hquotient, copySign_eq hx, copySign_eq hsign, closed]

end Binary64

namespace Operator

/-! ## The operators -/

/-- The operation of the floating-point format that an operator is. -/
def onFloats : Operator → Float → Float → Float
  | plus, x, y => x + y
  | minus, x, y => x - y
  | times, x, y => x * y
  | divide, x, y => x / y
  | modulo, x, y => truncatedRemainder x y

variable {x y : Float} {s : Sign}

/-- A floating-point number equals the integer zero if its exact value is zero. -/
theorem equals_zero_iff : (Number.real x).equals (.int 0) = true ↔ valueOf? x = some 0 := by
  have hzero : (Number.int 0).value? = some 0 := Number.value?_int Int.cast_zero
  cases hx : valueOf? x with
  | some v => rw [Number.equals_iff (a := .real x) hx hzero, Option.some_inj]
  | none =>
    rw [valueOf?_eq, Option.map_eq_none_iff] at hx
    unfold Number.equals Number.compare Number.compareIntFloat
    dsimp only
    rw [hx]
    dsimp only
    split
    · simp
    · split <;> simp

theorem isZero_iff : isZero (some (.real y)) = true ↔ ∃ s, y.toModel.unpack = .zero s := by
  rw [isZero, equals_zero_iff]
  refine ⟨exists_zero, ?_⟩
  rintro ⟨s, hy⟩
  rw [valueOf?, hy]
  rfl

theorem quotient_real (x y : Float) :
    quotient (some (.real x)) (some (.real y)) = .ok (x / y) := by
  show (if isZero (some (.real y)) then
      if (Number.real x).equals (.int 0) || (Number.real x).isNaN then pure nan
      else pure (copySign 1.0 x * copySign infinity y)
    else if y == 0.0 then throw Fault.zeroDivision else pure (x / y)) = Except.ok (x / y)
  by_cases hzero : isZero (some (.real y)) = true
  · obtain ⟨s, hy⟩ := isZero_iff.mp hzero
    rw [if_pos hzero]
    by_cases hx : ((Number.real x).equals (.int 0) || (Number.real x).isNaN) = true
    · have undefined : x.toModel.unpack = .notANumber ∨ ∃ s', x.toModel.unpack = .zero s' := by
        rcases (Bool.or_eq_true _ _).mp hx with zero | nan
        · exact .inr (exists_zero (equals_zero_iff.mp zero))
        · exact .inl (eq_notANumber nan)
      rw [if_pos hx, div_zero_eq_nan hy undefined]
      rfl
    · obtain ⟨nonzero, number⟩ := Bool.or_eq_false_iff.mp (Bool.eq_false_iff.mpr hx)
      obtain ⟨s', hs'⟩ := exists_sign number
      have hvalue : valueOf? x ≠ some 0 := by
        intro zero
        rw [equals_zero_iff.mpr zero] at nonzero
        cases nonzero
      rw [if_neg hx, div_zero_eq_infinity hy hs' hvalue]
      rfl
  · rw [if_neg hzero, if_neg (mt Number.equals_zero_of_beq hzero)]
    rfl

/-- There is no remainder for the divisor zero. -/
theorem truncatedRemainder_zero (hy : y.toModel.unpack = .zero s) (x : Float) :
    truncatedRemainder x y = nan := by
  have hzero : Scaled.ofFloat? y = some ⟨s == .negative, 0, 0⟩ := by
    unfold Scaled.ofFloat?
    rw [hy]
  unfold truncatedRemainder
  rw [hzero]
  cases Scaled.ofFloat? x <;> rfl

/-- There is no remainder of an infinite dividend. -/
theorem truncatedRemainder_infinite (hx : x.isInf = true) (y : Float) :
    truncatedRemainder x y = nan := by
  unfold truncatedRemainder
  rw [ofFloat?_eq_none (.inl hx)]

theorem remainder_real (x y : Float) :
    remainder (some (.real x)) (some (.real y)) = .ok (truncatedRemainder x y) := by
  show (if isZero (some (.real y)) then pure nan
    else if x.isInf then pure nan else pure (truncatedRemainder x y)) =
      Except.ok (truncatedRemainder x y)
  by_cases hzero : isZero (some (.real y)) = true
  · obtain ⟨s, hy⟩ := isZero_iff.mp hzero
    rw [if_pos hzero, truncatedRemainder_zero hy]
    rfl
  · rw [if_neg hzero]
    by_cases hx : x.isInf = true
    · rw [if_pos hx, truncatedRemainder_infinite hx]
      rfl
    · rw [if_neg hx]
      rfl

/-- On floating-point numbers an operator is the operation of the format. -/
theorem apply_real (op : Operator) (x y : Float) :
    op.apply (some (.real x)) (some (.real y)) = .ok (op.onFloats x y) := by
  cases op with
  | plus | minus | times => rfl
  | divide => exact quotient_real x y
  | modulo => exact remainder_real x y

end Operator

end Calculator
