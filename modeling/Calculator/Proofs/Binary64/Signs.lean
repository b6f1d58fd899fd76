import Calculator.Proofs.Binary64.Arithmetic

/-!
# Signs of floating-point numbers

Every number but NaN has a sign, the zeros and the infinities too, and packing keeps it. It is the
first bit of the number. A finite number is known by its exact value and its sign, an infinity by its
sign alone.

Results:
1. `sign?_stored`: packing keeps the sign.
2. `toBits_sign`: the sign is the first bit.
3. `copySign_eq`: a magnitude with the sign of another number.
4. `eq_of_valueOf?`, `eq_of_valueOf?_ne_zero`: finite numbers with equal values and signs are the same,
   and the value says the sign unless it is zero.
-/

namespace Calculator

namespace Binary64

open Float.Model UnpackedFloat

/-- The sign of a number. What is not a number has none. -/
def sign? : UnpackedFloat → Option Sign
  | .notANumber => none
  | .infinity s => some s
  | .zero s => some s
  | .finite s _ _ _ => some s

variable {x y : Float} {u w : UnpackedFloat} {s s' : Sign} {v : ℚ}

theorem exists_sign (number : x.isNaN = false) : ∃ s, sign? x.toModel.unpack = some s := by
  have number : x.toModel.unpack.isNaN = false := number
  generalize x.toModel.unpack = u at number ⊢
  cases u with
  | notANumber => cases number
  | infinity s | zero s | finite s => exact ⟨s, rfl⟩

theorem eq_notANumber (h : x.isNaN = true) : x.toModel.unpack = .notANumber := by
  have h : x.toModel.unpack.isNaN = true := h
  generalize x.toModel.unpack = u at h ⊢
  cases u with
  | notANumber => rfl
  | infinity | zero | finite => cases h

theorem signed_mul_ne_zero (s : Sign) {m : Nat} (e : Int) (pos : 0 < m) :
    signed s (m * 2 ^ e) ≠ 0 := by
  rw [← abs_pos, abs_signed]
  positivity

theorem eq_infinity (h : x.isInf = true) : ∃ s, x.toModel.unpack = .infinity s := by
  have h : x.toModel.unpack.isInf = true := h
  generalize x.toModel.unpack = u at h ⊢
  cases u with
  | infinity s => exact ⟨s, rfl⟩
  | notANumber | zero | finite => cases h

theorem exists_zero (h : valueOf? x = some 0) : ∃ s, x.toModel.unpack = .zero s := by
  unfold valueOf? at h
  generalize x.toModel.unpack = u at h ⊢
  cases u with
  | notANumber | infinity => cases h
  | zero s => exact ⟨s, rfl⟩
  | finite s m e pos => exact absurd (Option.some.inj h) (signed_mul_ne_zero s e pos)

theorem exists_sign_of_isInf (h : x.isInf = true) : ∃ s, sign? x.toModel.unpack = some s := by
  obtain ⟨s, hs⟩ := eq_infinity h
  exact ⟨s, congrArg sign? hs⟩

theorem exists_sign_of_value? (h : value? u = some v) : ∃ s, sign? u = some s := by
  cases u with
  | notANumber | infinity => cases h
  | zero s | finite s => exact ⟨s, rfl⟩

/-! ## Packing keeps the sign -/

theorem sign?_assemble {e : BitVec 11} {m : BitVec 52} (h : sign? (assemble s e m) = some s') :
    s = s' := by
  unfold assemble at h
  split at h
  · split at h
    · exact Option.some.inj h
    · cases h
  · split at h
    · split at h <;> exact Option.some.inj h
    · exact Option.some.inj h

/-- Only the greatest exponent is that of NaN. -/
theorem sign?_assemble_eq {e : BitVec 11} {m : BitVec 52} (number : e = -1#11 → m = 0#52) :
    sign? (assemble s e m) = some s := by
  unfold assemble
  by_cases hmax : e = -1#11
  · rw [if_pos hmax, if_pos (number hmax)]
    rfl
  · rw [if_neg hmax]
    split
    · split <;> rfl
    · rfl

theorem sign?_stored (u : UnpackedFloat) : sign? (stored u) = sign? u := by
  cases u with
  | notANumber => rfl
  | infinity s => rw [stored_infinity]
  | zero s => rw [stored_zero]
  | finite s m e pos =>
    unfold stored
    rw [pack_finite]
    split
    · show sign? (stored (.infinity s)) = _
      rw [stored_infinity]
      rfl
    · next most =>
      split <;> rw [unpack_packComponents]
      · refine sign?_assemble_eq fun hmax => absurd (congrArg BitVec.toNat hmax) ?_
        rw [BitVec.toNat_ofNat]
        show (e + 1075).toNat % 2 ^ 11 ≠ 2047
        omega
      · exact sign?_assemble_eq fun hmax => absurd hmax (by decide)

/-! ## Negation -/

theorem assemble_neg (s : Sign) (e : BitVec 11) (m : BitVec 52) :
    assemble (-s) e m = (assemble s e m).neg := by
  unfold assemble
  split
  · split <;> rfl
  · split
    · split <;> rfl
    · rfl

/-- Packing a negated number. -/
theorem stored_neg (u : UnpackedFloat) : stored u.neg = (stored u).neg := by
  have hinfinity (s : Sign) : stored (.infinity (-s)) = (stored (.infinity s)).neg := by
    rw [stored_infinity, stored_infinity]
    rfl
  cases u with
  | notANumber => rfl
  | infinity s => exact hinfinity s
  | zero s =>
    show stored (.zero (-s)) = _
    rw [stored_zero, stored_zero]
    rfl
  | finite s m e pos =>
    show UnpackedFloat.unpack _ (UnpackedFloat.pack _ (.finite (-s) m e pos)) = (stored _).neg
    unfold stored
    rw [pack_finite, pack_finite]
    split
    · exact hinfinity s
    · split <;> rw [unpack_packComponents, unpack_packComponents, assemble_neg]

theorem unpack_neg (x : Float) : (-x).toModel.unpack = x.toModel.unpack.neg :=
  stored_eq (isStored_neg (isStored_unpack _))

/-! ## The first bit -/

/-- The bit that stands for a sign. -/
def signBit : Sign → UInt64
  | .negative => 1
  | .positive => 0

theorem signBit_ofBitVec (b : BitVec 1) : (signBit (Sign.ofBitVec b)).toNat = b.toNat := by
  conv_rhs => rw [← toBitVec_ofBitVec b]
  cases Sign.ofBitVec b <;> rfl

/-- The first bit of a number says whether it is negative. -/
theorem toBits_sign (h : sign? x.toModel.unpack = some s) : x.toBits >>> 63 = signBit s := by
  have hs := sign?_assemble (by rwa [Float.Model.unpack, unpack_eq_assemble] at h)
  rw [← UInt64.toNat_inj, UInt64.toNat_shiftRight, Nat.shiftRight_eq_div_pow, ← hs, signBit_ofBitVec,
    toNat_unpackSign]
  rfl

theorem signBit_div (s s' : Sign) : signBit (s / s') = signBit s ^^^ signBit s' := by
  cases s <;> cases s' <;> rfl

theorem signBit_inj (h : signBit s = signBit s') : s = s' := by
  cases s with
  | negative =>
    cases s' with
    | negative => rfl
    | positive => exact absurd h (by decide)
  | positive =>
    cases s' with
    | negative => exact absurd h (by decide)
    | positive => rfl

/-- Numbers with the same first bit have the same sign. -/
theorem sign?_eq_of_toBits (hx : sign? x.toModel.unpack = some s)
    (hy : sign? y.toModel.unpack = some s') (h : x.toBits >>> 63 = y.toBits >>> 63) :
    sign? x.toModel.unpack = sign? y.toModel.unpack := by
  rw [toBits_sign hx, toBits_sign hy] at h
  rw [hx, hy, signBit_inj h]

/-! ## The sign of another number -/

/-- Applies a sign to a number. -/
def withSign (x : Float) : Sign → Float
  | .negative => -x
  | .positive => x

/-- The magnitude of one number with the sign of another. -/
theorem copySign_eq (h : sign? y.toModel.unpack = some s) (x : Float) :
    copySign x y = withSign x.abs s := by
  unfold copySign
  rw [toBits_sign h]
  cases s <;> rfl

/-! ## Value and sign -/

theorem eq_of_unpack_eq (h : x.toModel.unpack = y.toModel.unpack) : x = y := by
  cases x
  cases y
  exact congrArg Float.ofModel (unpack_injective h)

/-- A number is written canonically in one way only. -/
theorem Canonical.eq_of_mul_eq {m m' : Nat} {e e' : Int} (h : Canonical m e) (h' : Canonical m' e')
    (heq : (m : ℚ) * 2 ^ e = m' * 2 ^ e') : m = m' ∧ e = e' := by
  rcases lt_trichotomy e e' with less | rfl | more
  · exact absurd heq (mul_lt_of_exponent_lt h h' less).ne
  · rw [mul_left_inj' (zpow_ne_zero e two_ne_zero)] at heq
    exact ⟨by exact_mod_cast heq, rfl⟩
  · exact absurd heq (mul_lt_of_exponent_lt h' h more).ne'

/-- What is stored and finite is known by its value and its sign. -/
theorem eq_of_value? (hu : IsStored u) (hw : IsStored w) (hv : value? u = some v)
    (hv' : value? w = some v) (sign : sign? u = sign? w) : u = w := by
  cases u with
  | notANumber | infinity => cases hv
  | zero s =>
    cases w with
    | notANumber | infinity => cases hv'
    | zero s' =>
      cases sign
      rfl
    | finite s' m' e' pos' =>
      cases hv
      exact absurd (Option.some.inj hv') (signed_mul_ne_zero s' e' pos')
  | finite s m e pos =>
    cases w with
    | notANumber | infinity => cases hv'
    | zero s' =>
      cases hv'
      exact absurd (Option.some.inj hv) (signed_mul_ne_zero s e pos)
    | finite s' m' e' pos' =>
      cases sign
      have same : |signed s (m * 2 ^ e)| = |signed s (m' * 2 ^ e')| := by
        rw [Option.some.inj hv, Option.some.inj hv']
      rw [abs_signed, abs_signed, abs_of_nonneg (by positivity), abs_of_nonneg (by positivity)] at same
      obtain ⟨rfl, rfl⟩ := hu.1.eq_of_mul_eq hw.1 same
      rfl

theorem eq_of_valueOf? (hx : valueOf? x = some v) (hy : valueOf? y = some v)
    (sign : x.toBits >>> 63 = y.toBits >>> 63) : x = y := by
  obtain ⟨s, hs⟩ := exists_sign_of_value? hx
  obtain ⟨s', hs'⟩ := exists_sign_of_value? hy
  exact eq_of_unpack_eq
    (eq_of_value? (isStored_unpack _) (isStored_unpack _) hx hy (sign?_eq_of_toBits hs hs' sign))

/-- A value has the sign that its number has. -/
theorem eq_signed_abs (hv : value? u = some v) (hs : sign? u = some s) : v = signed s |v| := by
  cases u with
  | notANumber | infinity => cases hv
  | zero =>
    cases hv
    rw [abs_zero, signed_zero]
  | finite s' m e pos =>
    cases hv
    cases hs
    rw [abs_signed, abs_of_nonneg (by positivity)]

/-- A number other than zero is known by its value alone. -/
theorem eq_of_valueOf?_ne_zero (hx : valueOf? x = some v) (hy : valueOf? y = some v)
    (nonzero : v ≠ 0) : x = y := by
  obtain ⟨s, hs⟩ := exists_sign_of_value? hx
  obtain ⟨s', hs'⟩ := exists_sign_of_value? hy
  have same : signed s |v| = signed s' |v| :=
    (eq_signed_abs hx hs).symm.trans (eq_signed_abs hy hs')
  have pos : 0 < |v| := abs_pos.mpr nonzero
  have signs : s = s' := by
    cases s <;> cases s' <;> unfold signed at same <;> first | rfl | linarith
  exact eq_of_unpack_eq (eq_of_value? (isStored_unpack _) (isStored_unpack _) hx hy
    (hs.trans (signs ▸ hs'.symm)))

/-- An infinity is known by its sign. -/
theorem eq_of_isInf (hx : x.isInf = true) (hy : y.isInf = true)
    (sign : x.toBits >>> 63 = y.toBits >>> 63) : x = y := by
  obtain ⟨s, hs⟩ := eq_infinity hx
  obtain ⟨s', hs'⟩ := eq_infinity hy
  have same := sign?_eq_of_toBits (congrArg sign? hs) (congrArg sign? hs') sign
  rw [hs, hs'] at same
  cases same
  exact eq_of_unpack_eq (hs.trans hs'.symm)

/-- There is one NaN. -/
theorem eq_of_isNaN (hx : x.isNaN = true) (hy : y.isNaN = true) : x = y :=
  eq_of_unpack_eq ((eq_notANumber hx).trans (eq_notANumber hy).symm)

end Binary64

end Calculator
