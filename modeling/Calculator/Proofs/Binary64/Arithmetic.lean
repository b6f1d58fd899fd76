import Calculator.Number.Scaled
import Calculator.Proofs.Binary64.Nearest

/-!
# Arithmetic on floating-point numbers

Every operation on finite numbers gives the number nearest to the exact result. As rounding keeps
within bounds that are numbers of the format, such bounds can be carried through a computation.

Results:
1. `rounded_mul`, `rounded_div`, `rounded_add`: the operations are exact but for rounding.
2. `valueOf?_ofNat`: a natural number with at most 53 digits is converted as it is.
3. `Near.within`: bounds on the exact result are bounds on the rounded one.
-/

namespace Calculator

namespace Binary64

open Float.Model UnpackedFloat

/-! ## Values of floating-point numbers -/

/-- The exact value of a finite floating-point number. -/
def valueOf? (x : Float) : Option ℚ := value? x.toModel.unpack

/-- The number is finite and not beyond either bound. -/
def Within (lo hi : ℚ) (x : Float) : Prop := ∃ v, valueOf? x = some v ∧ lo ≤ v ∧ v ≤ hi

/-- The number is the exact one, rounded: it lies between the numbers of the format between which
the exact one lies. -/
def Near (x : Float) (v : ℚ) : Prop :=
  ∀ lo hi, OnGrid lo → OnGrid hi → lo ≤ v → v ≤ hi → Within lo hi x

/-- The number is the one nearest to `v` if that is in range, and is not finite otherwise. -/
def Rounded (x : Float) (v : ℚ) : Prop :=
  ∃ w, IsNearest v w ∧ valueOf? x = if |w| < 2 ^ 1024 then some w else none

variable {x y : Float} {u w : UnpackedFloat} {v v' a lo hi : ℚ}

theorem Nearest.rounded (h : Nearest u v) : Rounded (.ofModel (.pack u)) v := h

theorem Rounded.near (h : Rounded x v) : Near x v := by
  have hstored : stored x.toModel.unpack = x.toModel.unpack := stored_eq (isStored_unpack _)
  have nearest : Nearest x.toModel.unpack v := by
    unfold Nearest
    rwa [hstored]
  have rounds := nearest.rounds
  unfold Rounds at rounds
  rwa [hstored] at rounds

theorem Rounded.isNearest (h : Rounded x v) (ha : valueOf? x = some a) : IsNearest v a := by
  obtain ⟨w, nearest, hvalue⟩ := h
  rw [ha] at hvalue
  split at hvalue
  · cases hvalue
    exact nearest
  · cases hvalue

theorem Near.within (h : Near x v) (hlo : OnGrid lo) (hhi : OnGrid hi) (above : lo ≤ v)
    (below : v ≤ hi) : Within lo hi x := h lo hi hlo hhi above below

theorem Within.mono {lo' hi' : ℚ} (h : Within lo hi x) (hlo : lo' ≤ lo) (hhi : hi ≤ hi') :
    Within lo' hi' x := by
  obtain ⟨v, hv, above, below⟩ := h
  exact ⟨v, hv, hlo.trans above, below.trans hhi⟩

theorem within_of_valueOf? (h : valueOf? x = some v) : Within v v x := ⟨v, h, le_rfl, le_rfl⟩

/-- Rounding leaves a number of the format as it is. -/
theorem Near.valueOf?_eq (h : Near x v) (grid : OnGrid v) : valueOf? x = some v := by
  obtain ⟨w, hw, above, below⟩ := h v v grid grid le_rfl le_rfl
  rw [hw, le_antisymm below above]

theorem onGrid_two_zpow {n : Int} (least : -1074 ≤ n) (most : n ≤ 1023) : OnGrid (2 ^ n) := by
  rcases le_total n greatest with h | h
  · exact ⟨1, n, by decide, least, h, by norm_num⟩
  · -- the unit is the greatest there is, and the power is a multiple of it
    obtain ⟨k, rfl⟩ : ∃ k : Nat, n = greatest + k := ⟨(n - greatest).toNat, by omega⟩
    have few : k ≤ 52 := by
      unfold greatest at most
      omega
    refine ⟨2 ^ k, greatest, ?_, by decide, le_rfl, ?_⟩
    · rw [abs_of_pos (by positivity)]
      exact pow_lt_pow_right₀ one_lt_two (by omega)
    · push_cast
      rw [two_pow_mul, add_comm]

theorem onGrid_zero : OnGrid 0 := ⟨0, 0, by decide, by decide, by decide, by norm_num⟩

theorem onGrid_one : OnGrid 1 := ⟨1, 0, by decide, by decide, by decide, by norm_num⟩

theorem onGrid_half : OnGrid (1 / 2) := ⟨1, -1, by decide, by decide, by decide, by norm_num⟩

theorem onGrid_two : OnGrid 2 := ⟨2, 0, by decide, by decide, by decide, by norm_num⟩

theorem onGrid_intCast {n : Int} (short : |n| < 2 ^ 53) : OnGrid n :=
  ⟨n, 0, short, by decide, by decide, by norm_num⟩

theorem onGrid_of_isStored (hu : IsStored u) (hv : value? u = some v) : OnGrid v := by
  cases u with
  | notANumber | infinity => cases hv
  | zero =>
    cases hv
    exact onGrid_zero
  | finite s m e pos =>
    cases hv
    obtain ⟨⟨short, least, -⟩, most⟩ := hu
    refine ⟨s.apply m, e, ?_, least, most, ?_⟩
    · cases s <;> simp only [Sign.apply, abs_neg, Nat.abs_cast] <;> exact_mod_cast short
    · cases s <;> simp only [Sign.apply, signed] <;> push_cast <;> ring

/-- What is finite is a number of the format. -/
theorem onGrid_of_valueOf? (h : valueOf? x = some v) : OnGrid v :=
  onGrid_of_isStored (isStored_unpack _) h

theorem nearest_of_isStored (hu : IsStored u) (hv : value? u = some v) : Nearest u v := by
  have grid := onGrid_of_isStored hu hv
  exact ⟨v, isNearest_self grid.onOpenGrid, by rw [stored_eq hu, hv, if_pos grid.abs_lt]⟩

/-! ## Products -/

theorem signed_mul (s s' : Sign) (a b : ℚ) :
    signed (s * s') (a * b) = signed s a * signed s' b := by
  cases s <;> cases s' <;> simp only [signed, neg_mul, mul_neg, neg_neg]

theorem signed_div (s s' : Sign) (a b : ℚ) :
    signed (s / s') (a / b) = signed s a / signed s' b := by
  cases s <;> cases s' <;> simp only [signed, neg_div, div_neg, neg_neg] <;> rfl

/-- Two mantissas one of which is full have a full product, and others have the least exponent. -/
theorem exponent_mul_le {m m' : Nat} {e e' : Int} (pos : 0 < m) (pos' : 0 < m') (h : Canonical m e)
    (h' : Canonical m' e') : e + e' ≤ unit (m * m') (e + e') := by
  rw [unit_eq]
  by_cases full : 2 ^ 52 ≤ m * m'
  · have : 52 ≤ (m * m').log2 := (Nat.le_log2 (Nat.mul_pos pos pos').ne').mpr full
    omega
  · have few : m < 2 ^ 52 := lt_of_le_of_lt (Nat.le_mul_of_pos_right m pos') (not_le.mp full)
    have few' : m' < 2 ^ 52 := lt_of_le_of_lt (Nat.le_mul_of_pos_left m' pos) (not_le.mp full)
    have he := h.full.resolve_left (by omega)
    have he' := h'.full.resolve_left (by omega)
    omega

theorem nearest_mul (hu : IsStored u) (hw : IsStored w) (hv : value? u = some v)
    (hv' : value? w = some v') : Nearest (UnpackedFloat.mul Format.binary64 u w) (v * v') := by
  cases u with
  | notANumber | infinity => cases hv
  | zero s =>
    cases hv
    rw [zero_mul]
    cases w with
    | notANumber | infinity => cases hv'
    | zero | finite => exact nearest_zero _
  | finite s m e pos =>
    cases hv
    cases w with
    | notANumber | infinity => cases hv'
    | zero s' =>
      cases hv'
      rw [mul_zero]
      exact nearest_zero _
    | finite s' m' e' pos' =>
      cases hv'
      rw [← signed_mul]
      refine nearest_roundWithAccuracy (s * s') ?_ (exponent_mul_le pos pos' hu.1 hw.1)
      rw [mul_mul_mul_comm, ← zpow_add₀ two_ne_zero,
        mul_div_cancel_right₀ _ (zpow_ne_zero _ two_ne_zero)]
      exact_mod_cast holds_exact (m * m')

theorem rounded_mul (hx : valueOf? x = some v) (hy : valueOf? y = some v') :
    Rounded (x * y) (v * v') :=
  nearest_mul (isStored_unpack _) (isStored_unpack _) hx hy

theorem near_mul (hx : valueOf? x = some v) (hy : valueOf? y = some v') : Near (x * y) (v * v') :=
  (rounded_mul hx hy).near

/-! ## Quotients -/

/-- What is left behind the digits that are kept is told from nothing and from one half. -/
theorem holds_inexact (m : Nat) {rest : ℚ} (pos : 0 < rest) (less : rest < 1) :
    Holds (.ofMantissaAndAccuracy m (.inexact (compare rest (1 / 2)))) (m + rest) := by
  rcases lt_trichotomy rest (1 / 2) with low | rfl | high
  · rw [compare_lt_iff_lt.mpr low]
    refine ⟨?_, ?_, iff_of_false ?_ Bool.noConfusion⟩ <;>
      simp only [ExtendedMantissa.ofMantissaAndAccuracy, Bool.toNat_false, Nat.cast_zero, zero_div,
        add_zero, zero_add]
    all_goals linarith
  · rw [compare_eq_iff_eq.mpr rfl]
    refine ⟨?_, ?_, iff_of_true ?_ rfl⟩ <;>
      simp only [ExtendedMantissa.ofMantissaAndAccuracy, Bool.toNat_true, Nat.cast_one]
    all_goals linarith
  · rw [compare_gt_iff_gt.mpr high]
    refine ⟨?_, ?_, iff_of_false ?_ Bool.noConfusion⟩ <;>
      simp only [ExtendedMantissa.ofMantissaAndAccuracy, Bool.toNat_true, Nat.cast_one]
    all_goals linarith

/-- A fraction is compared with one half as twice the numerator is with the denominator. -/
theorem compare_div_half (a : Nat) {b : Nat} (pos : 0 < b) :
    compare (2 * a) b = compare ((a : ℚ) / b) (1 / 2) := by
  have hb : (0 : ℚ) < b := by exact_mod_cast pos
  rw [← cmp_eq_compare, ← cmp_eq_compare]
  calc cmp (2 * a) b = cmp ((2 * a : Nat) : ℚ) b := (Nat.strictMono_cast.cmp_map_eq _ _).symm
    _ = cmp ((a : ℚ) / b * (2 * b)) (1 / 2 * (2 * b)) := by
      congr 1
      · rw [mul_left_comm, div_mul_cancel₀ _ hb.ne']
        exact Nat.cast_mul 2 a
      · rw [← mul_assoc, one_div_mul_cancel two_ne_zero, one_mul]
    _ = cmp ((a : ℚ) / b) (1 / 2) := cmp_mul_pos_right (mul_pos two_pos hb) _ _

theorem holds_fraction (a : Nat) {b : Nat} (pos : 0 < b) :
    Holds (.ofMantissaAndAccuracy (a / b) (accuracyOfFraction (a % b) b)) ((a : ℚ) / b) := by
  have hb : (0 : ℚ) < b := by exact_mod_cast pos
  have hquotient : (a : ℚ) / b = (a / b : Nat) + ((a % b : Nat) : ℚ) / b := by
    rw [div_eq_iff hb.ne', add_mul, div_mul_cancel₀ _ hb.ne', mul_comm]
    exact_mod_cast (Nat.div_add_mod a b).symm
  rw [hquotient]
  unfold accuracyOfFraction
  by_cases hrest : a % b = 0
  · rw [if_pos hrest, hrest, Nat.cast_zero, zero_div, add_zero]
    exact holds_exact _
  · rw [if_neg hrest, compare_div_half _ pos]
    refine holds_inexact _ (div_pos ?_ hb) ((div_lt_one hb).mpr ?_)
    · exact_mod_cast Nat.pos_of_ne_zero hrest
    · exact_mod_cast Nat.mod_lt a pos

/-- The quotient is taken to all the digits of the format, or to the least exponent. -/
theorem exponent_div_le {m m' n : Nat} {t : Int} (pos : 0 < m) (pos' : 0 < m')
    (digits : t ≤ -1074 ∨ m'.log2 + 53 ≤ m.log2 + n) : t ≤ unit ((m <<< n) / m') t := by
  rw [unit_eq]
  rcases digits with least | digits
  · omega
  · have hlong : 2 ^ (m'.log2 + 53) ≤ m <<< n := by
      rw [← Nat.le_log2 (by rw [Nat.shiftLeft_eq]; positivity), log2_shiftLeft pos]
      exact digits
    have hquotient : 2 ^ 52 ≤ (m <<< n) / m' := by
      rw [Nat.le_div_iff_mul_le pos']
      calc 2 ^ 52 * m' ≤ 2 ^ 52 * 2 ^ (m'.log2 + 1) := Nat.mul_le_mul_left _ Nat.lt_log2_self.le
        _ = 2 ^ (m'.log2 + 53) := by rw [← pow_add, add_comm 52, add_assoc]
        _ ≤ m <<< n := hlong
    have hpos : 0 < (m <<< n) / m' := lt_of_lt_of_le (by norm_num) hquotient
    have : 52 ≤ ((m <<< n) / m').log2 := (Nat.le_log2 hpos.ne').mpr hquotient
    omega

theorem nearest_div_finite (s s' : Sign) {m m' : Nat} (e e' : Int) (pos : 0 < m) (pos' : 0 < m') :
    Nearest (UnpackedFloat.div Format.binary64 (.finite s m e pos) (.finite s' m' e' pos'))
      (signed s (m * 2 ^ e) / signed s' (m' * 2 ^ e')) := by
  rw [← signed_div]
  set t := min (e - e')
    (Format.binary64.targetExponent (totalExponent m e - totalExponent m' e')) with ht
  have htarget : t = min (e - e') (max (m.log2 + e - (m'.log2 + e') - 53) (-1074)) := by
    rw [ht]
    show min (e - e') (max (((m.log2 : Int) + 1 + e) - (m'.log2 + 1 + e') - 53) (-1074)) = _
    congr 2
    omega
  -- the dividend is shifted by `n` digits, so that the quotient has all digits of the format
  set n := (e - e' - t).toNat with hn
  show Nearest (roundWithAccuracy Format.binary64 (s / s') ((m <<< n) / m') t
    (accuracyOfFraction ((m <<< n) % m') m')) _
  refine nearest_roundWithAccuracy (s / s') ?_ (exponent_div_le pos pos' (by omega))
  have hshift : (m : ℚ) * 2 ^ e / (m' * 2 ^ e') / 2 ^ t = (m <<< n : Nat) / m' := by
    have hexp : e = t + n + e' := by omega
    rw [Nat.shiftLeft_eq]
    push_cast
    rw [hexp, zpow_add₀ two_ne_zero, zpow_add₀ two_ne_zero, zpow_natCast]
    have ht : (2 : ℚ) ^ t ≠ 0 := zpow_ne_zero _ two_ne_zero
    have he' : (2 : ℚ) ^ e' ≠ 0 := zpow_ne_zero _ two_ne_zero
    field_simp
  rw [hshift]
  exact holds_fraction _ pos'

theorem nearest_div (hv : value? u = some v) (hv' : value? w = some v') (nonzero : v' ≠ 0) :
    Nearest (UnpackedFloat.div Format.binary64 u w) (v / v') := by
  cases w with
  | notANumber | infinity => cases hv'
  | zero s' =>
    cases hv'
    exact absurd rfl nonzero
  | finite s' m' e' pos' =>
    cases hv'
    cases u with
    | notANumber | infinity => cases hv
    | zero s =>
      cases hv
      rw [zero_div]
      exact nearest_zero _
    | finite s m e pos =>
      cases hv
      exact nearest_div_finite s s' e e' pos pos'

theorem rounded_div (hx : valueOf? x = some v) (hy : valueOf? y = some v') (nonzero : v' ≠ 0) :
    Rounded (x / y) (v / v') := nearest_div hx hy nonzero

theorem near_div (hx : valueOf? x = some v) (hy : valueOf? y = some v') (nonzero : v' ≠ 0) :
    Near (x / y) (v / v') := (rounded_div hx hy nonzero).near

/-! ## Sums -/

theorem cast_apply_mul (s : Sign) (n : Nat) (b : ℚ) : (s.apply n : ℚ) * b = signed s (n * b) := by
  cases s with
  | positive => exact rfl
  | negative => simp only [Sign.apply, signed, Int.cast_neg, Int.cast_natCast, neg_mul]

/-- A mantissa written with a smaller exponent. -/
theorem shiftLeft_sub_mul {m : Nat} {e t : Int} (h : t ≤ e) :
    ((m <<< (e - t).toNat : Nat) : ℚ) * 2 ^ t = m * 2 ^ e := by
  have := shiftLeft_mul m (e - t).toNat e
  rwa [Int.toNat_of_nonneg (by omega), sub_sub_cancel] at this

theorem nearest_add (hu : IsStored u) (hw : IsStored w) (hv : value? u = some v)
    (hv' : value? w = some v') : Nearest (UnpackedFloat.add Format.binary64 u w) (v + v') := by
  cases u with
  | notANumber | infinity => cases hv
  | zero s =>
    cases hv
    rw [zero_add]
    cases w with
    | notANumber | infinity => cases hv'
    | zero s' =>
      cases hv'
      cases s <;> cases s' <;> exact nearest_zero _
    | finite => exact nearest_of_isStored hw hv'
  | finite s m e pos =>
    cases w with
    | notANumber | infinity => cases hv'
    | zero s' =>
      cases hv'
      rw [add_zero]
      exact nearest_of_isStored hu hv
    | finite s' m' e' pos' =>
      cases hv
      cases hv'
      have h := nearest_normalize (s.apply (m <<< (e - min e e').toNat : Nat) +
        s'.apply (m' <<< (e' - min e e').toNat : Nat)) (min e e') .positive
      rw [Int.cast_add, add_mul, cast_apply_mul, cast_apply_mul, shiftLeft_sub_mul (min_le_left e e'),
        shiftLeft_sub_mul (min_le_right e e')] at h
      exact h

theorem rounded_add (hx : valueOf? x = some v) (hy : valueOf? y = some v') :
    Rounded (x + y) (v + v') :=
  nearest_add (isStored_unpack _) (isStored_unpack _) hx hy

theorem near_add (hx : valueOf? x = some v) (hy : valueOf? y = some v') : Near (x + y) (v + v') :=
  (rounded_add hx hy).near

theorem Within.add {lo' hi' : ℚ} (hx : Within lo hi x) (hy : Within lo' hi' y)
    (hlo : OnGrid (lo + lo')) (hhi : OnGrid (hi + hi')) : Within (lo + lo') (hi + hi') (x + y) := by
  obtain ⟨v, hv, above, below⟩ := hx
  obtain ⟨w, hw, above', below'⟩ := hy
  exact (near_add hv hw).within hlo hhi (add_le_add above above') (add_le_add below below')

/-! ## Signs -/

theorem value?_neg (hv : value? u = some v) : value? u.neg = some (-v) := by
  cases u with
  | notANumber | infinity => cases hv
  | zero s =>
    cases hv
    exact congrArg some neg_zero.symm
  | finite s m e pos =>
    cases hv
    cases s with
    | positive => exact rfl
    | negative => exact congrArg some (neg_neg _).symm

theorem value?_abs (hv : value? u = some v) : value? u.abs = some |v| := by
  cases u with
  | notANumber | infinity => cases hv
  | zero s =>
    cases hv
    exact congrArg some abs_zero.symm
  | finite s m e pos =>
    cases hv
    have nonneg : (0 : ℚ) ≤ m * 2 ^ e := by positivity
    cases s with
    | positive => exact congrArg some (abs_of_nonneg nonneg).symm
    | negative => exact congrArg some ((abs_neg _).trans (abs_of_nonneg nonneg)).symm

theorem isStored_neg (hu : IsStored u) : IsStored u.neg := by
  cases u with
  | notANumber | infinity | zero => trivial
  | finite => exact hu

theorem isStored_abs (hu : IsStored u) : IsStored u.abs := by
  cases u with
  | notANumber | infinity | zero => trivial
  | finite => exact hu

theorem valueOf?_neg (hx : valueOf? x = some v) : valueOf? (-x) = some (-v) := by
  have hstored : (-x).toModel.unpack = x.toModel.unpack.neg :=
    stored_eq (isStored_neg (isStored_unpack _))
  rw [valueOf?, hstored]
  exact value?_neg hx

theorem valueOf?_abs (hx : valueOf? x = some v) : valueOf? x.abs = some |v| := by
  have hstored : x.abs.toModel.unpack = x.toModel.unpack.abs :=
    stored_eq (isStored_abs (isStored_unpack _))
  rw [valueOf?, hstored]
  exact value?_abs hx

theorem Near.neg (h : Near x v) : Near (-x) (-v) := by
  intro lo hi hlo hhi above below
  obtain ⟨w, hw, ge, le⟩ := h.within hhi.neg hlo.neg (neg_le.mp below) (le_neg.mp above)
  exact ⟨-w, valueOf?_neg hw, le_neg.mp le, neg_le.mp ge⟩

/-! ## Differences -/

theorem sign_apply_neg (s : Sign) (n : Int) : (-s).apply n = -s.apply n := by
  cases s with
  | positive => rfl
  | negative => exact (neg_neg n).symm

/-- A difference is a sum with the negation. -/
theorem sub_eq_add (u w : UnpackedFloat) :
    UnpackedFloat.sub Format.binary64 u w = UnpackedFloat.add Format.binary64 u w.neg := by
  cases u with
  | notANumber => rfl
  | zero s | infinity s =>
    cases w with
    | notANumber | finite => rfl
    | infinity s' | zero s' => cases s <;> cases s' <;> rfl
  | finite s m e pos =>
    cases w with
    | notANumber | infinity | zero => rfl
    | finite s' m' e' pos' =>
      show UnpackedFloat.normalize _ _ _ _ = UnpackedFloat.normalize _ _ _ _
      rw [sign_apply_neg]
      rfl

theorem rounded_sub (hx : valueOf? x = some v) (hy : valueOf? y = some v') :
    Rounded (x - y) (v - v') := by
  have h := nearest_add (isStored_unpack _) (isStored_neg (isStored_unpack _)) hx (value?_neg hy)
  rw [← sub_eq_add, ← sub_eq_add_neg] at h
  exact h

theorem near_sub (hx : valueOf? x = some v) (hy : valueOf? y = some v') : Near (x - y) (v - v') :=
  (rounded_sub hx hy).near

/-- The difference from a number that is small against the range does not leave it. -/
theorem exists_valueOf?_sub (hx : valueOf? x = some v) (hy : valueOf? y = some v') (small : |v| ≤ 4) :
    ∃ w, valueOf? (x - y) = some w := by
  obtain ⟨w, nearest, hvalue⟩ := rounded_sub hx hy
  have grid := onGrid_of_valueOf? hy
  -- the negated subtrahend is a number of the format, and it is that near
  have hnear : |v - v' - w| ≤ |v| := by
    have h := nearest.near (-v') grid.neg.onOpenGrid
    rwa [sub_neg_eq_add, sub_add_cancel] at h
  have hw : |w| ≤ |v'| + 8 := by
    have : w = v - v' - (v - v' - w) := by ring
    rw [this]
    calc |v - v' - (v - v' - w)| ≤ |v - v'| + |v - v' - w| := abs_sub _ _
      _ ≤ |v| + |v'| + |v| := add_le_add (abs_sub v v') hnear
      _ ≤ |v'| + 8 := by linarith
  have room : |v'| + 8 < 2 ^ 1024 := by
    have hpow : (2 : ℚ) ^ greatest = 2 ^ 971 := zpow_natCast 2 971
    have large : (2 : ℚ) ^ 3 < 2 ^ 971 := pow_lt_pow_right₀ one_lt_two (by decide)
    have hv' := grid.abs_le
    rw [hpow] at hv'
    rw [show 1024 = 53 + 971 from rfl, pow_add]
    generalize (2 : ℚ) ^ 971 = unit at hv' large ⊢
    linarith
  rw [if_pos (hw.trans_lt room)] at hvalue
  exact ⟨w, hvalue⟩

/-! ## Constants and naturals -/

/-- The exact value of a scaled number. -/
def value (a : Scaled) : ℚ :=
  signed (if a.negative then .negative else .positive) (a.mantissa * 2 ^ a.exponent)

theorem valueOf?_eq (x : Float) : valueOf? x = (Scaled.ofFloat? x).map value := by
  unfold valueOf? Scaled.ofFloat?
  cases x.toModel.unpack with
  | notANumber | infinity => rfl
  | zero s => exact congrArg some (by rw [value, Nat.cast_zero, zero_mul, signed_zero])
  | finite s m e pos => cases s <;> rfl

theorem valueOf?_eq_some {a : Scaled} (h : Scaled.ofFloat? x = some a) (hv : value a = v) :
    valueOf? x = some v := by
  rw [valueOf?_eq, h, Option.map_some, hv]

theorem valueOf?_zero : valueOf? 0.0 = some 0 :=
  valueOf?_eq_some (a := ⟨false, 0, 0⟩) rfl (by norm_num [value, signed])

theorem valueOf?_quarter : valueOf? 0.25 = some (1 / 4) :=
  valueOf?_eq_some (a := ⟨false, 2 ^ 52, -54⟩) rfl (by norm_num [value, signed])

theorem valueOf?_half : valueOf? 0.5 = some (1 / 2) :=
  valueOf?_eq_some (a := ⟨false, 2 ^ 52, -53⟩) rfl (by norm_num [value, signed])

theorem valueOf?_one : valueOf? 1.0 = some 1 :=
  valueOf?_eq_some (a := ⟨false, 2 ^ 52, -52⟩) rfl (by norm_num [value, signed])

theorem valueOf?_two : valueOf? 2.0 = some 2 :=
  valueOf?_eq_some (a := ⟨false, 2 ^ 52, -51⟩) rfl (by norm_num [value, signed])

theorem onGrid_natCast {n : Nat} (short : n < 2 ^ 53) : OnGrid n :=
  onGrid_intCast (n := n) (by rw [abs_of_nonneg (Int.natCast_nonneg n)]; omega)

/-- A natural number with no more digits than the format has is converted as it is. -/
theorem valueOf?_toUInt64 {n : Nat} (short : n < 2 ^ 53) :
    valueOf? n.toUInt64.toFloat = some (n : ℚ) := by
  have hn : n.toUInt64.toNat = n := Nat.mod_eq_of_lt (by omega)
  have h := nearest_normalize (n.toUInt64.toNat : Int) 0 .positive
  rw [zpow_zero, mul_one, hn, Int.cast_natCast] at h
  refine Near.valueOf?_eq ?_ (onGrid_natCast short)
  show Rounds (UnpackedFloat.normalize Format.binary64 n.toUInt64.toNat 0 .positive) n
  rw [hn]
  exact h.rounds

theorem valueOf?_ofNat {n : Nat} (short : n < 2 ^ 53) :
    valueOf? (Float.ofNat n) = some (n : ℚ) := by
  have hunit : Float.ofNat n = n.toUInt64.toFloat * 1.0 := by
    show Float.ofScientific n false 0 = _
    rw [Float.ofScientific, dif_pos ⟨short, Nat.zero_le _⟩]
    rfl
  rw [hunit]
  have h := near_mul (valueOf?_toUInt64 short) valueOf?_one
  rw [mul_one] at h
  exact h.valueOf?_eq (onGrid_natCast short)

end Binary64

end Calculator
