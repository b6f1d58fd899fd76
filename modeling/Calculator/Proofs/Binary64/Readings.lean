import Calculator.Proofs.Binary64.Decimals
import Calculator.Proofs.Binary64.Rank
import Calculator.Proofs.Binary64.Remainder

/-!
# What a decimal number is read as

A decimal number has no sign, and what it is read as has the positive one: a tiny number becomes the
zero whose sign bit is clear, and one beyond the range the infinity above all numbers. So the number
that is read is known by the decimal number, to the last bit.

Results:
1. `Decimal.sign?_toFloat`: what is read is positive.
2. `Decimal.isReading_toFloat`: the nearest number of the format, or infinity.
3. `IsReading.unique`: nothing else is a reading.
4. `Decimal.equals_toFloat_iff`: what is read is known by its value, for there is one zero.
-/

namespace Calculator

open Binary64 Float.Model UnpackedFloat

namespace Binary64

variable {u w : UnpackedFloat} {x y : Float} {v a b : ℚ}

/-! ## Definitions -/

/-- The decimal number `v` is read as `x`: the nearest number of the format, of two the one with the
even mantissa, and infinity where that lies beyond the range. The sign bit is clear. -/
structure IsReading (v : ℚ) (x : Float) : Prop where
  clear : x.toBits >>> 63 = 0
  nearest : ∃ w, IsNearest v w ∧ (w < 2 ^ 1024 → valueOf? x = some w) ∧
    (2 ^ 1024 ≤ w → x = infinity)

/-! ## Signs -/

theorem sign?_of_pos (hu : value? u = some v) (pos : 0 < v) : sign? u = some .positive := by
  obtain ⟨s, hs⟩ := exists_sign_of_value? hu
  have hv := eq_signed_abs hu hs
  cases s with
  | positive => exact hs
  | negative =>
    have : v = -|v| := hv
    exact absurd (abs_nonneg v) (by linarith)

/-- The product of finite positive numbers is positive, also where it is rounded to zero or becomes
infinite. -/
theorem sign?_mul_positive (hu : value? u = some a) (hw : value? w = some b)
    (su : sign? u = some .positive) (sw : sign? w = some .positive) :
    sign? (UnpackedFloat.mul Format.binary64 u w) = some .positive := by
  cases u with
  | notANumber | infinity => cases hu
  | zero s =>
    cases su
    cases w with
    | notANumber | infinity => cases hw
    | zero s' | finite s' =>
      cases sw
      rfl
  | finite s =>
    cases su
    cases w with
    | notANumber | infinity => cases hw
    | zero s' =>
      cases sw
      rfl
    | finite s' =>
      cases sw
      exact sign?_roundWithAccuracy _ _ _ _

/-- So is a quotient, if the divisor is not zero. -/
theorem sign?_div_positive (hu : value? u = some a) (hw : value? w = some b) (nonzero : b ≠ 0)
    (su : sign? u = some .positive) (sw : sign? w = some .positive) :
    sign? (UnpackedFloat.div Format.binary64 u w) = some .positive := by
  cases w with
  | notANumber | infinity => cases hw
  | zero => exact absurd (Option.some.inj hw).symm nonzero
  | finite s' =>
    cases sw
    cases u with
    | notANumber | infinity => cases hu
    | zero s =>
      cases su
      rfl
    | finite s =>
      cases su
      exact sign?_roundWithAccuracy _ _ _ _

/-- Of numbers with one rank only the zeros differ, and they do so in their sign. -/
theorem eq_of_rank? {r : Rank} (hu : IsStored u) (hw : IsStored w) (ru : rank? u = some r)
    (rw' : rank? w = some r) (su : sign? u = some .positive) (sw : sign? w = some .positive) :
    u = w := by
  cases hv : value? u with
  | some v =>
    rw [rank?_of_value? hv, Option.some_inj] at ru
    exact eq_of_value? hu hw hv (rank?_eq_coe_iff.mp (ru ▸ rw')) (su.trans sw.symm)
  | none =>
    cases u with
    | notANumber => cases su
    | infinity s =>
      cases su
      cases ru
      exact (rank?_eq_top_iff.mp rw').symm
    | zero | finite => cases hv

theorem exists_rank? {s : Sign} (hs : sign? u = some s) : ∃ r, rank? u = some r := by
  cases u with
  | notANumber => cases hs
  | infinity s => cases s <;> exact ⟨_, rfl⟩
  | zero | finite => exact ⟨_, rfl⟩

theorem sign?_toUInt64 {m : Nat} (short : m < 2 ^ 53) :
    sign? m.toUInt64.toFloat.toModel.unpack = some .positive := by
  rcases Nat.eq_zero_or_pos m with rfl | pos
  · rfl
  · exact sign?_of_pos (valueOf?_toUInt64 short) (by exact_mod_cast pos)

end Binary64

namespace Decimal

theorem sign?_ofScientific (m : Nat) (e : Int) :
    sign? (UnpackedFloat.ofScientific Format.binary64 m e) = some .positive := by
  unfold UnpackedFloat.ofScientific
  split
  · rfl
  split
  · rfl
  split
  · rfl
  split
  · exact sign?_mul_positive rfl rfl rfl rfl
  · exact sign?_div_positive rfl rfl (signed_mul_ne_zero _ _ (Nat.pow_pos (by decide))) rfl rfl

/-- What is read is positive, be it zero or infinite. -/
theorem sign?_toFloat (d : Decimal) : sign? d.toFloat.toModel.unpack = some .positive := by
  unfold toFloat Float.ofScientific
  split
  · next short =>
    have hm := valueOf?_toUInt64 short.1
    have sm := sign?_toUInt64 short.1
    have hten := valueOf?_powersOfTen (Nat.lt_succ_of_le short.2)
    have pos : (0 : ℚ) < 10 ^ d.exponent.natAbs := by positivity
    have sten := sign?_of_pos hten pos
    dsimp only
    split
    · exact (sign?_stored _).trans (sign?_div_positive hm hten pos.ne' sm sten)
    · exact (sign?_stored _).trans (sign?_mul_positive hm hten sm sten)
  · exact (sign?_stored _).trans (sign?_ofScientific _ _)

/-- What is read has a clear sign bit. -/
theorem toBits_toFloat (d : Decimal) : d.toFloat.toBits >>> 63 = 0 :=
  toBits_sign d.sign?_toFloat

/-- A number that is read and is not finite is the positive infinity. -/
theorem toFloat_eq_infinity {d : Decimal} (h : valueOf? d.toFloat = none) : d.toFloat = infinity := by
  have hsign := d.sign?_toFloat
  refine eq_of_unpack_eq ?_
  unfold valueOf? at h
  rw [unpack_infinity]
  generalize d.toFloat.toModel.unpack = u at h hsign ⊢
  cases u with
  | notANumber => cases hsign
  | infinity s =>
    cases hsign
    rfl
  | zero | finite => cases h

theorem isReading_toFloat (d : Decimal) : IsReading d.value d.toFloat := by
  obtain ⟨w, nearest, hvalue⟩ := d.rounded_toFloat
  have nonneg : 0 ≤ w := nearest.ge onOpenGrid_zero (by unfold value; positivity)
  rw [abs_of_nonneg nonneg] at hvalue
  refine ⟨d.toBits_toFloat, w, nearest, fun small => ?_, fun large => toFloat_eq_infinity ?_⟩
  · rw [hvalue, if_pos small]
  · rw [hvalue, if_neg large.not_gt]

/-- What is read is equal as a number only to itself, and it is so. -/
theorem equals_toFloat_iff {d e : Decimal} :
    (Number.real d.toFloat).equals (.real e.toFloat) = true ↔ d.toFloat = e.toFloat := by
  rw [Number.equals_iff_rank]
  constructor
  · rintro ⟨r, hd, he⟩
    exact eq_of_unpack_eq (eq_of_rank? (isStored_unpack _) (isStored_unpack _) hd he d.sign?_toFloat
      e.sign?_toFloat)
  · intro same
    obtain ⟨r, hr⟩ := exists_rank? d.sign?_toFloat
    exact ⟨r, hr, same ▸ hr⟩

end Decimal

/-- There is one reading of a decimal number. -/
theorem Binary64.IsReading.unique {v : ℚ} {x y : Float} (hx : IsReading v x) (hy : IsReading v y) :
    x = y := by
  obtain ⟨clear, w, nearest, finite, infinite⟩ := hx
  obtain ⟨clear', w', nearest', finite', infinite'⟩ := hy
  obtain rfl := nearest.unique nearest'
  rcases lt_or_ge w (2 ^ 1024) with small | large
  · exact eq_of_valueOf? (finite small) (finite' small) (clear.trans clear'.symm)
  · rw [infinite large, infinite' large]

end Calculator
