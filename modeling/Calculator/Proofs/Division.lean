import Calculator.Proofs.Binary64.Remainder
import Calculator.Proofs.Binary64.Symmetry
import Calculator.Proofs.Operators

/-!
# Quotients and remainders

What the two operators that divide give on floating-point numbers, in terms of exact values and signs.
The quotient is the one of the standard for every pair of operands, the rule for the divisor zero
included. The remainder is exact: nothing is rounded, and it has the sign of the dividend also where it
is zero.

Results:
1. `IsQuotient`: the quotient as the standard defines it.
2. `isQuotient_iff`: it is the quotient of the format, and no other number is.
3. `Operator.quotient_is_standard`: the operator for quotients.
4. `Operator.remainder_is_exact`: the operator for remainders.
-/

namespace Calculator

open Binary64 Float.Model UnpackedFloat

namespace Binary64

variable {x y q : Float} {u w : UnpackedFloat} {s s' : Sign} {v v' z : ℚ}

/-! ## The quotient of the standard -/

/-- There is no quotient: NaN, or both operands infinite, or both zero. -/
def NoQuotient (x y : Float) : Prop :=
  x.isNaN = true ∨ y.isNaN = true ∨ (x.isInf = true ∧ y.isInf = true) ∨
    (valueOf? x = some 0 ∧ valueOf? y = some 0)

/-- The quotient is infinite exactly: an infinity by a finite number, or a finite number other than
zero by zero. -/
def InfiniteQuotient (x y : Float) : Prop :=
  (x.isInf = true ∧ y.isFinite = true) ∨
    (x.isFinite = true ∧ valueOf? x ≠ some 0 ∧ valueOf? y = some 0)

/-- `q` is the quotient of `x` and `y`. The first bits of the operands together make the first bit of
the quotient. Of two finite numbers the exact quotient is rounded once, to the nearest number, of two to
the even one; the nearest number beyond the range is an infinity. -/
inductive IsQuotient (x y q : Float) : Prop
  | undefined (operands : NoQuotient x y) (result : q.isNaN = true)
  | infinite (operands : InfiniteQuotient x y) (result : q.isInf = true)
      (sign : q.toBits >>> 63 = x.toBits >>> 63 ^^^ y.toBits >>> 63)
  | zero (dividend : x.isFinite = true) (divisor : y.isInf = true) (result : valueOf? q = some 0)
      (sign : q.toBits >>> 63 = x.toBits >>> 63 ^^^ y.toBits >>> 63)
  | rounded {v v' z : ℚ} (dividend : valueOf? x = some v) (divisor : valueOf? y = some v')
      (nonzero : v' ≠ 0) (nearest : IsNearest (v / v') z)
      (result : if |z| < 2 ^ 1024 then valueOf? q = some z else q.isInf = true)
      (sign : q.toBits >>> 63 = x.toBits >>> 63 ^^^ y.toBits >>> 63)

/-! ## The quotient of the format -/

/-- The quotient has the signs of the operands together, if it has a sign. -/
theorem exists_sign_div (h : sign? (UnpackedFloat.div Format.binary64 u w) = some s) :
    ∃ s₁ s₂, sign? u = some s₁ ∧ sign? w = some s₂ ∧ s = s₁ / s₂ := by
  cases u with
  | notANumber => cases w <;> cases h
  | infinity s₁ | zero s₁ =>
    cases w with
    | notANumber => cases h
    | infinity s₂ | zero s₂ | finite s₂ => cases h <;> exact ⟨s₁, s₂, rfl, rfl, rfl⟩
  | finite s₁ m e pos =>
    cases w with
    | notANumber => cases h
    | infinity s₂ | zero s₂ =>
      cases h
      exact ⟨s₁, s₂, rfl, rfl, rfl⟩
    | finite s₂ m' e' pos' =>
      exact ⟨s₁, s₂, rfl, rfl,
        Option.some.inj (h.symm.trans (sign?_roundWithAccuracy (s₁ / s₂) _ _ _))⟩

theorem toBits_div (h : ∃ s, sign? (x / y).toModel.unpack = some s) :
    (x / y).toBits >>> 63 = x.toBits >>> 63 ^^^ y.toBits >>> 63 := by
  obtain ⟨s, hs⟩ := h
  obtain ⟨s₁, s₂, hx, hy, rfl⟩ := exists_sign_div (by rwa [unpack_div, sign?_stored] at hs)
  rw [toBits_sign hs, toBits_sign hx, toBits_sign hy, signBit_div]

theorem div_of_noQuotient (h : NoQuotient x y) : (x / y).isNaN = true := by
  have hdiv : UnpackedFloat.div Format.binary64 x.toModel.unpack y.toModel.unpack = .notANumber := by
    rcases h with nan | nan | ⟨infX, infY⟩ | ⟨zeroX, zeroY⟩
    · rw [eq_notANumber nan]
      cases y.toModel.unpack <;> rfl
    · rw [eq_notANumber nan]
      cases x.toModel.unpack <;> rfl
    · obtain ⟨s, hs⟩ := eq_infinity infX
      obtain ⟨s', hs'⟩ := eq_infinity infY
      rw [hs, hs']
      rfl
    · obtain ⟨s, hs⟩ := exists_zero zeroX
      obtain ⟨s', hs'⟩ := exists_zero zeroY
      rw [hs, hs']
      rfl
  show (x / y).toModel.unpack.isNaN = true
  rw [unpack_div, hdiv]
  rfl

theorem div_of_infiniteQuotient (h : InfiniteQuotient x y) : (x / y).isInf = true := by
  have hdiv : ∃ s, UnpackedFloat.div Format.binary64 x.toModel.unpack y.toModel.unpack =
      .infinity s := by
    rcases h with ⟨infX, finite⟩ | ⟨finite, nonzero, zeroY⟩
    · obtain ⟨s, hs⟩ := eq_infinity infX
      have finite : y.toModel.unpack.isFinite = true := finite
      rw [hs]
      generalize y.toModel.unpack = w at finite
      cases w with
      | notANumber | infinity => cases finite
      | zero | finite => exact ⟨_, rfl⟩
    · obtain ⟨v, hv⟩ := exists_valueOf? finite
      obtain ⟨s, hs⟩ := exists_sign_of_value? hv
      obtain ⟨s', hs'⟩ := exists_zero zeroY
      exact ⟨s / s', by rw [hs', unpacked_div_zero hs nonzero]⟩
  obtain ⟨s, hs⟩ := hdiv
  show (x / y).toModel.unpack.isInf = true
  rw [unpack_div, hs, stored_infinity]
  rfl

/-- The quotient of finite numbers has a sign, also beyond the range. -/
theorem exists_sign_of_values (hx : valueOf? x = some v) (hy : valueOf? y = some v')
    (nonzero : v' ≠ 0) : ∃ s, sign? (x / y).toModel.unpack = some s := by
  rw [unpack_div, sign?_stored]
  unfold valueOf? at hx hy
  generalize x.toModel.unpack = u at hx
  generalize y.toModel.unpack = w at hy
  cases w with
  | notANumber | infinity => cases hy
  | zero =>
    cases hy
    exact absurd rfl nonzero
  | finite s' m' e' pos' =>
    cases u with
    | notANumber | infinity => cases hx
    | zero => exact ⟨_, rfl⟩
    | finite => exact ⟨_, sign?_roundWithAccuracy _ _ _ _⟩

theorem div_of_values (hx : valueOf? x = some v) (hy : valueOf? y = some v') (nonzero : v' ≠ 0) :
    ∃ z, IsNearest (v / v') z ∧
      if |z| < 2 ^ 1024 then valueOf? (x / y) = some z else (x / y).isInf = true := by
  obtain ⟨z, nearest, hvalue⟩ := rounded_div hx hy nonzero
  refine ⟨z, nearest, ?_⟩
  by_cases range : |z| < 2 ^ 1024
  · rw [if_pos range] at hvalue ⊢
    exact hvalue
  · rw [if_neg range] at hvalue ⊢
    -- no value, but a sign
    obtain ⟨s, hs⟩ := exists_sign_of_values hx hy nonzero
    show (x / y).toModel.unpack.isInf = true
    unfold valueOf? at hvalue
    generalize (x / y).toModel.unpack = u at hs hvalue
    cases u with
    | notANumber => cases hs
    | infinity => rfl
    | zero | finite => cases hvalue

/-! ## It is the one of the standard -/

theorem float_cases (x : Float) :
    x.isNaN = true ∨ x.isInf = true ∨ x.isFinite = true ∧ ∃ v, valueOf? x = some v := by
  show x.toModel.unpack.isNaN = true ∨ x.toModel.unpack.isInf = true ∨
    x.toModel.unpack.isFinite = true ∧ ∃ v, value? x.toModel.unpack = some v
  cases x.toModel.unpack with
  | notANumber => exact .inl rfl
  | infinity => exact .inr (.inl rfl)
  | zero | finite => exact .inr (.inr ⟨rfl, _, rfl⟩)

/-- Every pair of operands has a quotient of one kind. -/
theorem operands_cases (x y : Float) :
    NoQuotient x y ∨ InfiniteQuotient x y ∨ (x.isFinite = true ∧ y.isInf = true) ∨
      ∃ v v', valueOf? x = some v ∧ valueOf? y = some v' ∧ v' ≠ 0 := by
  rcases float_cases x with nan | infX | ⟨finiteX, v, hv⟩
  · exact .inl (.inl nan)
  · rcases float_cases y with nan | infY | ⟨finiteY, -⟩
    · exact .inl (.inr (.inl nan))
    · exact .inl (.inr (.inr (.inl ⟨infX, infY⟩)))
    · exact .inr (.inl (.inl ⟨infX, finiteY⟩))
  · rcases float_cases y with nan | infY | ⟨finiteY, v', hv'⟩
    · exact .inl (.inr (.inl nan))
    · exact .inr (.inr (.inl ⟨finiteX, infY⟩))
    · by_cases zeroY : v' = 0
      · subst zeroY
        by_cases zeroX : valueOf? x = some 0
        · exact .inl (.inr (.inr (.inr ⟨zeroX, hv'⟩)))
        · exact .inr (.inl (.inr ⟨finiteX, zeroX, hv'⟩))
      · exact .inr (.inr (.inr ⟨v, v', hv, hv', zeroY⟩))

theorem valueOf?_div_of_isInf (finite : x.isFinite = true) (infinite : y.isInf = true) :
    valueOf? (x / y) = some 0 := by
  obtain ⟨v, hv⟩ := exists_valueOf? finite
  obtain ⟨s, hs⟩ := eq_infinity infinite
  exact valueOf?_div_infinity hv hs

theorem isQuotient_div (x y : Float) : IsQuotient x y (x / y) := by
  rcases operands_cases x y with operands | operands | ⟨finite, infinite⟩ | ⟨v, v', hv, hv', nonzero⟩
  · exact .undefined operands (div_of_noQuotient operands)
  · have result := div_of_infiniteQuotient operands
    exact .infinite operands result (toBits_div (exists_sign_of_isInf result))
  · have result := valueOf?_div_of_isInf finite infinite
    exact .zero finite infinite result (toBits_div (exists_sign_of_value? result))
  · obtain ⟨z, nearest, result⟩ := div_of_values hv hv' nonzero
    exact .rounded hv hv' nonzero nearest result (toBits_div (exists_sign_of_values hv hv' nonzero))

/-- No other number is the quotient. -/
theorem IsQuotient.eq_div (h : IsQuotient x y q) : q = x / y := by
  cases h with
  | undefined operands result => exact eq_of_isNaN result (div_of_noQuotient operands)
  | infinite operands result sign =>
    have hdiv := div_of_infiniteQuotient operands
    exact eq_of_isInf result hdiv (sign.trans (toBits_div (exists_sign_of_isInf hdiv)).symm)
  | zero finite infinite result sign =>
    have hdiv := valueOf?_div_of_isInf finite infinite
    exact eq_of_valueOf? result hdiv (sign.trans (toBits_div (exists_sign_of_value? hdiv)).symm)
  | @rounded v v' z hv hv' nonzero nearest result sign =>
    have bits := sign.trans (toBits_div (exists_sign_of_values hv hv' nonzero)).symm
    obtain ⟨z', nearest', hdiv⟩ := div_of_values hv hv' nonzero
    obtain rfl := nearest.unique nearest'
    by_cases range : |z| < 2 ^ 1024
    · rw [if_pos range] at result hdiv
      exact eq_of_valueOf? result hdiv bits
    · rw [if_neg range] at result hdiv
      exact eq_of_isInf result hdiv bits

theorem isQuotient_iff : IsQuotient x y q ↔ q = x / y := by
  refine ⟨IsQuotient.eq_div, ?_⟩
  rintro rfl
  exact isQuotient_div x y

end Binary64

namespace Operator

/-- The operator for quotients never fails. Its value is the quotient of the standard and no other, with
the divisor zero as with any other, and a negated operand negates it. -/
theorem quotient_is_standard (x y : Float) :
    ∃ q, quotient (some (.real x)) (some (.real y)) = .ok q ∧ q = x / y ∧
      (∀ q', IsQuotient x y q' ↔ q' = q) ∧
      quotient (some (.real (-x))) (some (.real y)) = .ok (-q) ∧
      quotient (some (.real x)) (some (.real (-y))) = .ok (-q) := by
  refine ⟨x / y, quotient_real x y, rfl, fun q' => isQuotient_iff, ?_, ?_⟩
  · rw [quotient_real, neg_div_eq]
  · rw [quotient_real, div_neg_eq]

example : quotient (some (.real 1.0)) (some (.real (-0.0))) = .ok (-infinity) := by decide +kernel

theorem truncatedRemainder_of_isInf (hx : x.isFinite = true) (hy : y.isInf = true) :
    truncatedRemainder x y = x := by
  obtain ⟨a, ha⟩ := exists_ofFloat? hx
  obtain ⟨s, hs⟩ := eq_infinity hy
  have number : y.isNaN = false := by
    show y.toModel.unpack.isNaN = false
    rw [hs]
    rfl
  unfold truncatedRemainder
  rw [ha, ofFloat?_eq_none (.inl hy)]
  dsimp only
  rw [number]
  rfl

theorem truncatedRemainder_of_isNaN (h : x.isNaN = true ∨ y.isNaN = true) :
    truncatedRemainder x y = nan := by
  unfold truncatedRemainder
  rcases h with hx | hy
  · rw [ofFloat?_eq_none (.inr hx)]
  · rw [ofFloat?_eq_none (.inr hy)]
    cases Scaled.ofFloat? x with
    | none => rfl
    | some a => exact if_pos hy

/-- The operator for remainders never fails. A whole multiple of the divisor and the value make up the
dividend exactly, and the value is less than the divisor and has the first bit of the dividend. An
infinite divisor leaves a finite dividend as it is, and there is no other remainder. -/
theorem remainder_is_exact (x y : Float) :
    ∃ r, remainder (some (.real x)) (some (.real y)) = .ok r ∧
      (∀ v w, valueOf? x = some v → valueOf? y = some w → w ≠ 0 →
        ∃ (k : Int) (ρ : ℚ), valueOf? r = some ρ ∧ v = k * w + ρ ∧ |ρ| < |w| ∧
          r.toBits >>> 63 = x.toBits >>> 63) ∧
      (x.isFinite = true → y.isInf = true → r = x) ∧
      (x.isInf = true ∨ x.isNaN = true ∨ valueOf? y = some 0 ∨ y.isNaN = true → r.isNaN = true) := by
  refine ⟨truncatedRemainder x y, remainder_real x y, ?_, truncatedRemainder_of_isInf, ?_⟩
  · intro v w hv hw nonzero
    obtain ⟨k, ρ, hρ, hsum, less, sign⟩ := truncatedRemainder_exact hv hw nonzero
    obtain ⟨s, hs⟩ := exists_sign_of_value? hv
    exact ⟨k, ρ, hρ, hsum, less, by rw [toBits_sign hs, toBits_sign (sign.trans hs)]⟩
  · intro operands
    have hnan : truncatedRemainder x y = nan := by
      rcases operands with infinite | nan | zero | nan
      · exact truncatedRemainder_infinite infinite y
      · exact truncatedRemainder_of_isNaN (.inl nan)
      · obtain ⟨s, hs⟩ := exists_zero zero
        exact truncatedRemainder_zero hs x
      · exact truncatedRemainder_of_isNaN (.inr nan)
    rw [hnan]
    decide +kernel

/-- A negative dividend, one that the divisor goes into, an infinite divisor and the divisor zero. -/
theorem remainder_is_exact_at_four_pairs :
    (∃ (r : Float) (k : Int) (ρ : ℚ),
      remainder (some (.real (-5.5))) (some (.real 2.0)) = .ok r ∧ valueOf? r = some ρ ∧
        -(11 / 2) = k * 2 + ρ ∧ |ρ| < |2| ∧ r.toBits >>> 63 = 1) ∧
    (∃ (r : Float) (k : Int) (ρ : ℚ),
      remainder (some (.real (-4.0))) (some (.real 2.0)) = .ok r ∧ valueOf? r = some ρ ∧
        -4 = k * 2 + ρ ∧ |ρ| < |2| ∧ r.toBits >>> 63 = 1) ∧
    remainder (some (.real 1.0)) (some (.real infinity)) = .ok 1.0 ∧
    ∃ r, remainder (some (.real 1.0)) (some (.real 0.0)) = .ok r ∧ r.isNaN = true := by
  have hdividend : valueOf? (-5.5) = some (-(11 / 2)) :=
    valueOf?_eq_some (a := ⟨true, 11 * 2 ^ 49, -50⟩) (by decide +kernel) (by norm_num [value, signed])
  have hmultiple : valueOf? (-4.0) = some (-4) :=
    valueOf?_eq_some (a := ⟨true, 2 ^ 52, -50⟩) (by decide +kernel) (by norm_num [value, signed])
  refine ⟨?_, ?_, ?_, ?_⟩
  · obtain ⟨r, hr, exact, -, -⟩ := remainder_is_exact (-5.5) 2.0
    obtain ⟨k, ρ, hρ, hsum, less, sign⟩ := exact _ _ hdividend valueOf?_two two_ne_zero
    exact ⟨r, k, ρ, hr, hρ, hsum, less, sign.trans (by decide +kernel)⟩
  · obtain ⟨r, hr, exact, -, -⟩ := remainder_is_exact (-4.0) 2.0
    obtain ⟨k, ρ, hρ, hsum, less, sign⟩ := exact _ _ hmultiple valueOf?_two two_ne_zero
    exact ⟨r, k, ρ, hr, hρ, hsum, less, sign.trans (by decide +kernel)⟩
  · obtain ⟨r, hr, -, unchanged, -⟩ := remainder_is_exact 1.0 infinity
    rw [hr, unchanged (by decide +kernel) (by decide +kernel)]
  · obtain ⟨r, hr, -, -, undefined⟩ := remainder_is_exact 1.0 0.0
    exact ⟨r, hr, undefined (.inr (.inr (.inl valueOf?_zero)))⟩

end Operator

end Calculator
