import Mathlib

/-!
# Packed and unpacked floating-point numbers

A finite number of the binary64 format is stored as a natural mantissa and a power of two. Of the
ways to write it so, one is canonical: the mantissa has 53 digits, or fewer at the least exponent.

Results:
1. `isStored_unpack`: what is unpacked is canonical and in range.
2. `stored_eq`: such numbers are the same after packing and unpacking.
3. `pack_unpack`: so is every number after unpacking and packing.
-/

namespace Calculator

namespace Binary64

open Float.Model UnpackedFloat

/-- A mantissa and an exponent as the format keeps them. -/
structure Canonical (m : Nat) (e : Int) : Prop where
  short : m < 2 ^ 53
  least : -1074 ≤ e
  full : 2 ^ 52 ≤ m ∨ e = -1074

/-- The exponents of the format end here. -/
def greatest : Int := 971

/-- What can be stored: of the finite numbers the canonical ones in range. -/
def IsStored : UnpackedFloat → Prop
  | .finite _ m e _ => Canonical m e ∧ e ≤ greatest
  | _ => True

/-! ## Mantissas and exponents -/

/-- The mantissa with the leading digit that is not stored. -/
theorem toNat_leading (m : BitVec 52) : (1#1 ++ m).toNat = 2 ^ 52 + m.toNat := by
  rw [BitVec.toNat_append, ← Nat.shiftLeft_add_eq_or_of_lt m.isLt]
  rfl

/-- The number with the given sign, stored exponent and stored mantissa. -/
def assemble (s : Sign) (e : BitVec 11) (m : BitVec 52) : UnpackedFloat :=
  if e = -1#11 then if m = 0#52 then .infinity s else .notANumber
  else if e = 0#11 then
    if h : m = 0#52 then .zero s
    else .finite s m.toNat (-1074) (by simpa [BitVec.toNat_pos, BitVec.pos_iff_ne_zero])
  else .finite s (1#1 ++ m).toNat (e.toNat - 1075) (by rw [toNat_leading]; omega)

theorem unpack_eq_assemble (b : BitVec 64) :
    UnpackedFloat.unpack Format.binary64 b =
      assemble (Sign.ofBitVec (@unpackSign Format.binary64 b)) (@unpackExponent Format.binary64 b)
        (@unpackMantissa Format.binary64 b) := by
  unfold UnpackedFloat.unpack assemble
  dsimp only
  by_cases hmax : @unpackExponent Format.binary64 b = -1#11
  · rw [if_pos hmax, if_pos hmax]
  · rw [if_neg hmax, if_neg hmax]
    by_cases hzero : @unpackExponent Format.binary64 b = 0#11
    · rw [if_pos hzero, if_pos hzero]
      simp only [hzero]
      rfl
    · rw [if_neg hzero, if_neg hzero]
      rfl

/-- Taking the parts of a number that was put together from them. -/
theorem unpack_packComponents (s : Sign) (e : BitVec 11) (m : BitVec 52) :
    UnpackedFloat.unpack Format.binary64 (packComponents Format.binary64 s e m) =
      assemble s e m := by
  unfold UnpackedFloat.unpack assemble
  simp only [unpackMantissa_packComponents, unpackExponent_packComponents, unpackSign_packComponents,
    Sign.ofBitVec_toBitVec]
  split
  · rfl
  · split
    · next h => subst h; rfl
    · rfl

/-- What is put together can be stored. -/
theorem isStored_assemble (s : Sign) (e : BitVec 11) (m : BitVec 52) :
    IsStored (assemble s e m) := by
  have hm := m.isLt
  have he := e.isLt
  unfold assemble
  by_cases hmax : e = -1#11
  · rw [if_pos hmax]
    split <;> trivial
  · rw [if_neg hmax]
    by_cases hzero : e = 0#11
    · rw [if_pos hzero]
      by_cases hm0 : m = 0#52
      · rw [dif_pos hm0]
        trivial
      · rw [dif_neg hm0]
        exact ⟨⟨by omega, by omega, .inr rfl⟩, by unfold greatest; omega⟩
    · rw [if_neg hzero]
      have hpos : 0 < e.toNat := by
        simpa [BitVec.toNat_pos, BitVec.pos_iff_ne_zero]
      have hless : e.toNat ≠ 2047 := fun h => hmax (BitVec.eq_of_toNat_eq h)
      have hlead := toNat_leading m
      exact ⟨⟨by omega, by omega, .inl (by omega)⟩, by unfold greatest; omega⟩

theorem isStored_unpack (x : Float.Model) : IsStored x.unpack := by
  rw [Float.Model.unpack, unpack_eq_assemble]
  exact isStored_assemble _ _ _

/-! ## Packing -/

/-- What is there after packing and unpacking. -/
def stored (u : UnpackedFloat) : UnpackedFloat :=
  UnpackedFloat.unpack Format.binary64 (UnpackedFloat.pack Format.binary64 u)

theorem stored_infinity (s : Sign) : stored (.infinity s) = .infinity s := by
  cases s <;> rfl

theorem stored_zero (s : Sign) : stored (.zero s) = .zero s := by
  cases s <;> rfl

theorem stored_notANumber : stored .notANumber = .notANumber := rfl

theorem pack_finite (s : Sign) {m : Nat} (e : Int) (pos : 0 < m) :
    UnpackedFloat.pack Format.binary64 (.finite s m e pos) =
      if 2 ^ 11 ≤ (e + 1075).toNat + 1 then packedInfinity Format.binary64 s
      else if m.log2 + 1 = 53 then
        packComponents Format.binary64 s (BitVec.ofNat 11 (e + 1075).toNat) (BitVec.ofNat 52 m)
      else packComponents Format.binary64 s 0 (BitVec.ofNat 52 m) := by
  have hbias : (e + Format.binary64.exponentBias +
      Format.binary64.mantissaBitsWithoutImplicit).toNat = (e + 1075).toNat := by
    rw [Int.add_assoc]
    rfl
  unfold UnpackedFloat.pack
  simp only [hbias]
  rfl

/-- A stored exponent that is neither the least nor the greatest. -/
theorem assemble_normal {s : Sign} {m : Nat} {e : Int} (pos : 0 < m) (long : 2 ^ 52 ≤ m)
    (short : m < 2 ^ 53) (least : -1074 ≤ e) (most : e ≤ greatest) :
    assemble s (BitVec.ofNat 11 (e + 1075).toNat) (BitVec.ofNat 52 m) = .finite s m e pos := by
  unfold greatest at most
  have hexponent : (BitVec.ofNat 11 (e + 1075).toNat).toNat = (e + 1075).toNat := by
    rw [BitVec.toNat_ofNat]
    omega
  have hmantissa : (1#1 ++ BitVec.ofNat 52 m).toNat = m := by
    rw [toNat_leading, BitVec.toNat_ofNat]
    omega
  have hmax : BitVec.ofNat 11 (e + 1075).toNat ≠ -1#11 := by
    intro h
    rw [h] at hexponent
    simp at hexponent
    omega
  have hzero : BitVec.ofNat 11 (e + 1075).toNat ≠ 0#11 := by
    intro h
    rw [h] at hexponent
    simp at hexponent
    omega
  rw [assemble, if_neg hmax, if_neg hzero]
  congr 1
  omega

/-- The least stored exponent. -/
theorem assemble_subnormal {s : Sign} {m : Nat} (pos : 0 < m) (few : m < 2 ^ 52) :
    assemble s 0#11 (BitVec.ofNat 52 m) = .finite s m (-1074) pos := by
  have hmantissa : (BitVec.ofNat 52 m).toNat = m := by
    rw [BitVec.toNat_ofNat]
    omega
  have hzero : BitVec.ofNat 52 m ≠ 0#52 := by
    intro h
    rw [h] at hmantissa
    simp at hmantissa
    omega
  rw [assemble, if_neg (by decide), if_pos rfl, dif_neg hzero]
  congr 1

/-- A canonical number in range is the same after packing. -/
theorem stored_finite {s : Sign} {m : Nat} {e : Int} (pos : 0 < m) (h : Canonical m e)
    (most : e ≤ greatest) : stored (.finite s m e pos) = .finite s m e pos := by
  obtain ⟨short, least, full⟩ := h
  rw [stored, pack_finite, if_neg (by unfold greatest at most; omega)]
  by_cases long : 2 ^ 52 ≤ m
  · rw [if_pos (by rw [(Nat.log2_eq_iff (by omega)).mpr ⟨long, short⟩]), unpack_packComponents]
    exact assemble_normal pos long short least most
  · have hlog : m.log2 < 52 := (Nat.log2_lt (by omega)).mpr (by omega)
    obtain rfl : e = -1074 := by omega
    rw [if_neg (by omega), unpack_packComponents]
    exact assemble_subnormal pos (by omega)

theorem stored_eq {u : UnpackedFloat} (hu : IsStored u) : stored u = u := by
  cases u with
  | notANumber => exact stored_notANumber
  | infinity s => exact stored_infinity s
  | zero s => exact stored_zero s
  | finite s m e pos => exact stored_finite pos hu.1 hu.2

/-! ## Unpacking loses nothing -/

theorem toBitVec_ofBitVec (b : BitVec 1) : (Sign.ofBitVec b).toBitVec = b := by
  have short := b.isLt
  unfold Sign.ofBitVec
  by_cases hb : b = 0#1
  · rw [if_pos hb, hb]
    rfl
  · have nonzero : b.toNat ≠ 0 := fun h => hb (BitVec.eq_of_toNat_eq h)
    rw [if_neg hb]
    exact BitVec.eq_of_toNat_eq (show 1 = b.toNat by omega)

theorem toNat_unpackSign (b : BitVec 64) :
    (@unpackSign Format.binary64 b).toNat = b.toNat / 2 ^ 63 := by
  have short := b.isLt
  unfold unpackSign
  rw [BitVec.toNat_cast]
  show (BitVec.extractLsb 63 63 b).toNat = _
  rw [BitVec.extractLsb_toNat, Nat.shiftRight_eq_div_pow]
  omega

theorem toNat_unpackExponent (b : BitVec 64) :
    (@unpackExponent Format.binary64 b).toNat = b.toNat / 2 ^ 52 % 2 ^ 11 := by
  unfold unpackExponent
  rw [BitVec.toNat_cast]
  show (BitVec.extractLsb 62 52 b).toNat = _
  rw [BitVec.extractLsb_toNat, Nat.shiftRight_eq_div_pow]

theorem toNat_unpackMantissa (b : BitVec 64) :
    (@unpackMantissa Format.binary64 b).toNat = b.toNat % 2 ^ 52 := by
  unfold unpackMantissa
  rw [BitVec.toNat_cast]
  show (BitVec.extractLsb 51 0 b).toNat = _
  rw [BitVec.extractLsb_toNat, Nat.shiftRight_zero]

/-- Putting a number together from its own parts. -/
theorem packComponents_unpack (b : BitVec 64) :
    packComponents Format.binary64 (Sign.ofBitVec (@unpackSign Format.binary64 b))
      (@unpackExponent Format.binary64 b) (@unpackMantissa Format.binary64 b) = b := by
  unfold packComponents
  apply BitVec.eq_of_toNat_eq
  rw [toBitVec_ofBitVec, BitVec.toNat_append, BitVec.toNat_append,
    ← Nat.shiftLeft_add_eq_or_of_lt (BitVec.isLt _), ← Nat.shiftLeft_add_eq_or_of_lt (BitVec.isLt _),
    toNat_unpackSign, toNat_unpackExponent, toNat_unpackMantissa, Nat.shiftLeft_eq, Nat.shiftLeft_eq]
  show (b.toNat / 2 ^ 63 * 2 ^ 11 + b.toNat / 2 ^ 52 % 2 ^ 11) * 2 ^ 52 + b.toNat % 2 ^ 52 = b.toNat
  omega

/-- What is put together from parts is packed as these parts, if it is a number. -/
theorem pack_assemble {s : Sign} {e : BitVec 11} {m : BitVec 52} (number : e = -1#11 → m = 0#52) :
    UnpackedFloat.pack Format.binary64 (assemble s e m) = packComponents Format.binary64 s e m := by
  have hm := m.isLt
  have he := e.isLt
  unfold assemble
  by_cases hmax : e = -1#11
  · rw [if_pos hmax, if_pos (number hmax), hmax, number hmax]
    rfl
  rw [if_neg hmax]
  by_cases hzero : e = 0#11
  · rw [if_pos hzero, hzero]
    by_cases hm0 : m = 0#52
    · rw [dif_pos hm0, hm0]
      rfl
    · have nonzero : m.toNat ≠ 0 := fun h => hm0 (BitVec.eq_of_toNat_eq h)
      have few : m.toNat.log2 < 52 := (Nat.log2_lt nonzero).mpr hm
      rw [dif_neg hm0, pack_finite, if_neg (by omega), if_neg (by omega), BitVec.ofNat_toNat,
        BitVec.setWidth_eq]
      rfl
  · rw [if_neg hzero, pack_finite]
    have hless : e.toNat ≠ 2047 := fun h => hmax (BitVec.eq_of_toNat_eq h)
    have hlead := toNat_leading m
    have full : (1#1 ++ m).toNat.log2 = 52 := by
      rw [Nat.log2_eq_iff (by omega)]
      omega
    have hexponent : ((e.toNat : Int) - 1075 + 1075).toNat = e.toNat := by omega
    have hmantissa : BitVec.ofNat 52 (1#1 ++ m).toNat = m := by
      apply BitVec.eq_of_toNat_eq
      rw [BitVec.toNat_ofNat]
      omega
    rw [hexponent, if_neg (by omega), if_pos (by omega), hmantissa, BitVec.ofNat_toNat,
      BitVec.setWidth_eq]

theorem pack_unpack (x : Float.Model) : Float.Model.pack x.unpack = x := by
  have hbits : UnpackedFloat.pack Format.binary64 x.unpack = x.toBits.toBitVec := by
    rw [Float.Model.unpack, unpack_eq_assemble]
    by_cases number : @unpackExponent Format.binary64 x.toBits.toBitVec = -1#11 →
        @unpackMantissa Format.binary64 x.toBits.toBitVec = 0#52
    · rw [pack_assemble number, packComponents_unpack]
    · -- what is not a number is stored in one way only
      obtain ⟨hmax, hnonzero⟩ := Classical.not_imp.mp number
      rw [assemble, if_pos hmax, if_neg hnonzero]
      exact (x.valid.eq_packedNaN hmax hnonzero).symm
  obtain ⟨bits, valid⟩ := x
  unfold Float.Model.pack
  congr 1
  rw [hbits]

theorem unpack_injective : Function.Injective Float.Model.unpack :=
  Function.LeftInverse.injective pack_unpack

end Binary64

end Calculator
