import Calculator.Proofs.Composition
import Calculator.Proofs.Numerals

/-!
# Results read back

What a finite result is shown as is a numeral, and the number of the format nearest to what the numeral
denotes is the result. A whole number is shown with all its digits. A result that is not negative and
not tiny is shown as a literal, so that it can be put into an expression as it stands.

Results:
1. `Decimal.isNearest_shortest`: the fewest digits that read back do read back, and stay within the
   powers of ten between which the number lies.
2. `exists_numeral`: every finite result is shown as a numeral.
3. `exists_literal`: a result that is whole or not tiny is shown as a literal.
4. `resultText_reads_back`: results read back.
-/

namespace Calculator

open Binary64 Grammar Parsing

/-! ## Shortest digits -/

namespace Decimal

theorem digitCount_spec {n : Nat} (pos : 0 < n) :
    10 ^ (digitCount n - 1) ≤ n ∧ n < 10 ^ digitCount n := by
  unfold digitCount
  have hlength : 0 < (Nat.toDigits 10 n).length := Nat.length_toDigits_pos
  refine ⟨?_, (Nat.length_toDigits_le_iff (by decide) hlength).mp le_rfl⟩
  rcases Nat.eq_or_lt_of_le hlength with one | more
  · rw [← one]
    exact pos
  · by_contra! less
    have := (Nat.length_toDigits_le_iff (by decide) (by omega)).mpr less
    omega

/-- The magnitude of a fraction says between which powers of ten it lies. -/
theorem magnitude_spec {num den : Nat} (hnum : 0 < num) (hden : 0 < den) :
    (10 : ℚ) ^ (magnitude num den - 1) ≤ num / den ∧ (num / den : ℚ) < 10 ^ magnitude num den := by
  have hnum' : (0 : ℚ) < num := by exact_mod_cast hnum
  have hden' : (0 : ℚ) < den := by exact_mod_cast hden
  unfold magnitude
  by_cases large : den ≤ num
  · obtain ⟨above, below⟩ := digitCount_spec (Nat.div_pos large hden)
    have hcount : 0 < digitCount (num / den) := Nat.length_toDigits_pos
    rw [if_pos large]
    constructor
    · rw [← Nat.cast_pred hcount, zpow_natCast, le_div_iff₀ hden']
      exact_mod_cast (Nat.le_div_iff_mul_le hden).mp above
    · rw [zpow_natCast, div_lt_iff₀ hden']
      exact_mod_cast (Nat.div_lt_iff_lt_mul hden).mp below
  · have hquotient : 0 < (den - 1) / num := Nat.div_pos (by omega) hnum
    obtain ⟨above, below⟩ := digitCount_spec hquotient
    have hcount : 0 < digitCount ((den - 1) / num) := Nat.length_toDigits_pos
    rw [Nat.le_div_iff_mul_le hnum] at above
    rw [Nat.div_lt_iff_lt_mul hnum] at below
    rw [if_neg large]
    constructor
    · rw [sub_sub_cancel_left, zpow_neg, zpow_natCast, inv_le_iff_one_le_mul₀ (by positivity),
        div_mul_eq_mul_div, le_div_iff₀ hden', one_mul, mul_comm]
      exact_mod_cast (by omega : den ≤ 10 ^ digitCount ((den - 1) / num) * num)
    · rw [← neg_sub, ← Nat.cast_pred hcount, zpow_neg, zpow_natCast, lt_inv_comm₀ (by positivity)
        (by positivity), inv_div, lt_div_iff₀ hnum']
      exact_mod_cast (by omega : 10 ^ (digitCount ((den - 1) / num) - 1) * num < den)

/-- Zeros at the end of the digits count as powers of ten. -/
theorem value_stripZeros (count : Nat) (d : Decimal) : (stripZeros count d).value = d.value := by
  induction count generalizing d with
  | zero => rfl
  | succ count ih =>
    unfold stripZeros
    by_cases zero : d.digits % 10 = 0
    · have hdigits : (d.digits : ℚ) = (d.digits / 10 : Nat) * 10 := by
        exact_mod_cast (Nat.div_mul_cancel (Nat.dvd_of_mod_eq_zero zero)).symm
      rw [if_pos zero, ih, value, value, hdigits, zpow_add_one₀ (by norm_num)]
      ring
    · rw [if_neg zero]

theorem value_exact (num places : Nat) : (exact num places).value = num / 2 ^ places := by
  have hten : (10 : ℚ) ^ places = 2 ^ places * 5 ^ places := by
    rw [← mul_pow]
    norm_num
  have hfive : Nat.pow 5 places = 5 ^ places := rfl
  rw [value, exact, hfive, zpow_neg, zpow_natCast, hten]
  push_cast
  field_simp

/-- What is found on a grid reads back, and it is one of the neighbours there. -/
theorem onGrid_spec {x : Float} {num den : Nat} {grid : Int} {d : Decimal}
    (h : onGrid x num den grid = some d) : d.toFloat = x ∧ d.exponent = grid ∧
      num * 10 ^ (-grid).toNat / (den * 10 ^ grid.toNat) ≤ d.digits := by
  unfold onGrid at h
  dsimp only at h
  have read {d : Decimal} (h : (d.toFloat.toBits == x.toBits) = true) : d.toFloat = x :=
    Float.toBits_inj.mp (eq_of_beq h)
  split at h
  · next below above =>
    split at h <;> [skip; skip; split_ifs at h] <;> cases h
    · exact ⟨read below, rfl, le_rfl⟩
    · exact ⟨read above, rfl, Nat.le_succ _⟩
    · exact ⟨read below, rfl, le_rfl⟩
    · exact ⟨read above, rfl, Nat.le_succ _⟩
  · next below _ =>
    cases h
    exact ⟨read below, rfl, le_rfl⟩
  · next _ above =>
    cases h
    exact ⟨read above, rfl, Nat.le_succ _⟩
  · cases h

/-- What is found on a grid that is fine enough does not lie below a power of ten below the number. -/
theorem le_value_of_onGrid {x : Float} {num den : Nat} {grid k : Int} {d : Decimal}
    (hden : 0 < den) (h : onGrid x num den grid = some d) (fine : grid ≤ k)
    (above : (10 : ℚ) ^ k ≤ num / den) : 10 ^ k ≤ d.value := by
  obtain ⟨-, hexponent, hdigits⟩ := onGrid_spec h
  have hden' : (0 : ℚ) < den := by exact_mod_cast hden
  obtain ⟨n, rfl⟩ : ∃ n : Nat, k = grid + n := ⟨(k - grid).toNat, by omega⟩
  have hten : (10 : ℚ) ^ grid = 10 ^ grid.toNat / 10 ^ (-grid).toNat := by
    conv_lhs => rw [← Int.toNat_sub_toNat_neg grid]
    rw [zpow_sub₀ (by norm_num), zpow_natCast, zpow_natCast]
  have hcount : 10 ^ n ≤ num * 10 ^ (-grid).toNat / (den * 10 ^ grid.toNat) := by
    rw [Nat.le_div_iff_mul_le (by positivity)]
    rw [zpow_add₀ (by norm_num), zpow_natCast, hten, le_div_iff₀ hden', div_mul_eq_mul_div,
      div_mul_eq_mul_div, div_le_iff₀ (by positivity)] at above
    have : (10 : ℚ) ^ n * (den * 10 ^ grid.toNat) ≤ num * 10 ^ (-grid).toNat := by linarith
    exact_mod_cast this
  have hdigits : (10 : ℚ) ^ n ≤ d.digits := by exact_mod_cast hcount.trans hdigits
  rw [value, hexponent, zpow_add₀ (by norm_num), zpow_natCast, mul_comm]
  exact mul_le_mul_of_nonneg_right hdigits (by positivity)

variable {x : Float} {v : ℚ}

/-- What reads back to a number has it as its nearest number. -/
theorem isNearest_of_toFloat_eq {d : Decimal} (hx : valueOf? x = some v) (h : d.toFloat = x) :
    IsNearest d.value v :=
  d.rounded_toFloat.isNearest (h ▸ hx)

/-- What reads back to a number is read as a number of the same value. -/
theorem valueOf?_toFloat {d : Decimal} (hx : valueOf? x = some v) (h : IsNearest d.value v) :
    valueOf? d.toFloat = some v := by
  obtain ⟨w, nearest, hw⟩ := d.rounded_toFloat
  obtain rfl := nearest.unique h
  rw [hw, if_pos (onGrid_of_valueOf? hx).abs_lt]

/-- The fewest digits that read back do read back, and no power of ten below the number is above
them. -/
theorem isNearest_shortest {a : Scaled} (hx : valueOf? x = some v)
    (hv : v = a.fraction.1 / a.fraction.2) (pos : 0 < v) :
    IsNearest (shortest x a).value v ∧ ∀ k : Int, 10 ^ k ≤ v → 10 ^ k ≤ (shortest x a).value := by
  have hden : 0 < a.fraction.2 := Nat.pow_pos two_pos
  have hnum : 0 < a.fraction.1 := by
    rw [hv] at pos
    exact_mod_cast (div_pos_iff_of_pos_right (by exact_mod_cast hden)).mp pos
  obtain ⟨above, below⟩ := magnitude_spec hnum hden
  unfold shortest
  dsimp only
  rw [value_stripZeros]
  cases hfound : (List.range 17).findSome? fun (k : Nat) =>
      onGrid x a.fraction.1 a.fraction.2 (magnitude a.fraction.1 a.fraction.2 - (k + 1)) with
  | none =>
    have hexact : (exact a.fraction.1 (-a.exponent).toNat).value = v := by
      have hpower : (a.fraction.2 : ℚ) = 2 ^ (-a.exponent).toNat := Nat.cast_pow 2 _
      rw [value_exact, hv, hpower]
    rw [Option.getD_none, hexact]
    exact ⟨isNearest_self (onGrid_of_valueOf? hx).onOpenGrid, fun _ => id⟩
  | some d =>
    obtain ⟨n, -, hd⟩ := List.exists_of_findSome?_eq_some hfound
    rw [Option.getD_some]
    refine ⟨isNearest_of_toFloat_eq hx (onGrid_spec hd).1, fun k hk => ?_⟩
    have least := le_value_of_onGrid hden hd (by omega) above
    have hk : k < magnitude a.fraction.1 a.fraction.2 :=
      (zpow_lt_zpow_iff_right₀ (by norm_num)).mp (hk.trans_lt (hv ▸ below))
    exact (zpow_le_zpow_right₀ (by norm_num) (by omega)).trans least

/-- A decimal number between these powers of ten is written as a literal. -/
theorem exists_literal_of_between {d : Decimal} (above : 1 / 10 ^ 4 ≤ d.value)
    (below : d.value < 10 ^ 16) :
    ∃ l : NumberLiteral, d.text = l.chars ∧ l.decimal.value = d.value := by
  have hpos : (0 : ℚ) < 10 ^ d.exponent := zpow_pos (by norm_num) _
  have pos : 0 < d.digits := by
    have hvalue : (0 : ℚ) < d.value := lt_of_lt_of_le (by norm_num) above
    exact_mod_cast (mul_pos_iff_of_pos_right hpos).mp hvalue
  obtain ⟨least, most⟩ := digitCount_spec pos
  have hcount : 0 < digitCount d.digits := Nat.length_toDigits_pos
  have low : (10 : ℚ) ^ (-4 : Int) < 10 ^ (digitCount d.digits + d.exponent) := calc
    (10 : ℚ) ^ (-4 : Int) = 1 / 10 ^ 4 := by norm_num
    _ ≤ d.digits * 10 ^ d.exponent := above
    _ < 10 ^ digitCount d.digits * 10 ^ d.exponent := by
      gcongr
      exact_mod_cast most
    _ = 10 ^ (digitCount d.digits + d.exponent) := by rw [zpow_add₀ (by norm_num), zpow_natCast]
  have high : (10 : ℚ) ^ (digitCount d.digits - 1 + d.exponent) < 10 ^ (16 : Int) := calc
    (10 : ℚ) ^ (digitCount d.digits - 1 + d.exponent) =
        10 ^ (digitCount d.digits - 1) * 10 ^ d.exponent := by
      rw [← Nat.cast_pred hcount, zpow_add₀ (by norm_num), zpow_natCast]
    _ ≤ d.digits * 10 ^ d.exponent := by
      gcongr
      exact_mod_cast least
    _ < 10 ^ 16 := below
    _ = 10 ^ (16 : Int) := by norm_num
  rw [zpow_lt_zpow_iff_right₀ (by norm_num)] at low high
  unfold text
  obtain ⟨l, hchars, hvalue⟩ := exists_literal
    (fun c (hc : c ∈ Nat.toDigits 10 d.digits) => Literal.isDigit_of_mem_toDigits hc) low
    (show (digitCount d.digits : Int) + d.exponent ≤ 16 by omega)
  refine ⟨l, hchars, ?_⟩
  rw [hvalue, Nat.ofDigitChars_ten_toDigits]
  show (d.digits : ℚ) * 10 ^ ((digitCount d.digits : Int) + d.exponent - digitCount d.digits) = _
  rw [add_sub_cancel_left]
  rfl

end Decimal

/-! ## Whole numbers -/

namespace Scaled

variable {a : Scaled}

/-- A whole number is its integer part. -/
theorem value_eq_truncate (h : a.isWhole = true) : value a = a.truncate := by
  have hwhole : (a.fraction.1 : ℚ) = (a.fraction.1 / a.fraction.2 : Nat) * a.fraction.2 := by
    exact_mod_cast (Nat.div_mul_cancel (Nat.dvd_of_mod_eq_zero (beq_iff_eq.mp h))).symm
  rw [value_eq_div, truncate, cast_signed, cast_signed, div_eq_iff a.fraction_pos.ne', hwhole]
  cases a.negative with
  | false => rfl
  | true => exact (neg_mul _ _).symm

/-- What has an integer as its value is whole. -/
theorem isWhole_of_value_eq {n : Int} (h : value a = n) : a.isWhole = true := by
  have habs : (a.fraction.1 : ℚ) / a.fraction.2 = n.natAbs := by
    rw [← abs_value, h, Nat.cast_natAbs, Int.cast_abs]
  rw [div_eq_iff a.fraction_pos.ne'] at habs
  have hproduct : a.fraction.1 = n.natAbs * a.fraction.2 := by exact_mod_cast habs
  rw [isWhole, hproduct, Nat.mul_mod_left]
  rfl

theorem mantissa_ne_zero_of_not_isWhole (h : ¬a.isWhole = true) : a.mantissa ≠ 0 := by
  intro zero
  refine h (isWhole_of_value_eq (n := 0) ?_)
  rw [value, zero, Nat.cast_zero, zero_mul, signed_zero, Int.cast_zero]

/-- The value has the sign, and the magnitude of the fraction. -/
theorem value_eq_signed (a : Scaled) :
    value a = Binary64.signed (if a.negative then .negative else .positive)
      (a.fraction.1 / a.fraction.2) := by
  rw [value_eq_div, cast_signed]
  cases a.negative with
  | false => rfl
  | true => exact neg_div _ _

/-- A positive number has no minus sign. -/
theorem negative_eq_false (pos : 0 < value a) : a.negative = false := by
  have hfraction : (0 : ℚ) ≤ a.fraction.1 / a.fraction.2 := a.abs_value ▸ abs_nonneg _
  rw [value_eq_signed] at pos
  cases hnegative : a.negative with
  | false => rfl
  | true =>
    rw [hnegative] at pos
    exact absurd pos (neg_nonpos.mpr hfraction).not_gt

end Scaled

/-- All digits of a natural number. -/
def NumberLiteral.ofNat (n : Nat) : NumberLiteral where
  whole := Nat.toDigits 10 n
  fraction := none
  isDigit := fun c hc => Literal.isDigit_of_mem_toDigits (List.append_nil _ ▸ hc)
  nonempty := by simp

theorem NumberLiteral.text_ofNat (n : Nat) : (NumberLiteral.ofNat n).text = toString n := by
  rw [Nat.toString_eq_ofList_toDigits]
  exact congrArg String.ofList (List.append_nil _)

theorem NumberLiteral.value_ofNat (n : Nat) : (NumberLiteral.ofNat n).decimal.value = n := by
  show (Decimal.ofDigits (Nat.toDigits 10 n) []).value = n
  rw [Decimal.value_ofDigits, List.append_nil, Nat.ofDigitChars_ten_toDigits]
  simp

namespace Numeral

theorem value?_text (l : NumberLiteral) : value? l.text.toList = some l.decimal.value := by
  rw [NumberLiteral.text, String.toList_ofList]
  exact value?_of_magnitude? (magnitude?_literal l)

/-- An integer is written as a numeral. -/
theorem value?_int (n : Int) : value? (toString n).toList = some (n : ℚ) := by
  cases n with
  | ofNat n =>
    show value? (toString n).toList = _
    rw [← NumberLiteral.text_ofNat, value?_text, NumberLiteral.value_ofNat, Int.ofNat_eq_natCast,
      Int.cast_natCast]
  | negSucc n =>
    have hmagnitude : magnitude? (toString (n + 1)).toList = some ((n + 1 : Nat) : ℚ) := by
      rw [← NumberLiteral.text_ofNat, NumberLiteral.text, String.toList_ofList, magnitude?_literal,
        NumberLiteral.value_ofNat]
    show value? ("-" ++ toString (n + 1)).toList = _
    rw [String.toList_append]
    show (magnitude? (toString (n + 1)).toList).map _ = _
    rw [hmagnitude, Option.map_some, Int.cast_negSucc]

end Numeral

/-! ## Results -/

section

variable {x : Float} {v : ℚ}

/-- A number that is not whole is shown with the fewest digits that read back. -/
theorem resultText_of_not_isWhole {a : Scaled} (ha : Scaled.ofFloat? x = some a)
    (fractional : ¬a.isWhole = true) :
    resultText x = String.ofList
      (if a.negative then '-' :: (Decimal.shortest x.abs a).text
        else (Decimal.shortest x.abs a).text) := by
  unfold resultText floatText
  rw [ha]
  dsimp only
  rw [if_neg fractional, if_neg (Scaled.mantissa_ne_zero_of_not_isWhole fractional)]

theorem resultText_of_isWhole {a : Scaled} (ha : Scaled.ofFloat? x = some a)
    (whole : a.isWhole = true) : resultText x = toString a.truncate := by
  unfold resultText
  rw [ha]
  dsimp only
  rw [if_pos whole]

/-- The digits of the magnitude of a number that is not whole. -/
theorem isNearest_shortest_abs {a : Scaled} (ha : Scaled.ofFloat? x = some a)
    (fractional : ¬a.isWhole = true) :
    IsNearest (Decimal.shortest x.abs a).value |value a| ∧
      ∀ k : Int, 10 ^ k ≤ |value a| → 10 ^ k ≤ (Decimal.shortest x.abs a).value := by
  have nonzero : value a ≠ 0 := fun zero =>
    fractional (Scaled.isWhole_of_value_eq (n := 0) (by rw [zero, Int.cast_zero]))
  exact Decimal.isNearest_shortest (valueOf?_abs (valueOf?_eq_some ha rfl)) a.abs_value
    (abs_pos.mpr nonzero)

/-- Every finite result is shown as a numeral. -/
theorem exists_numeral (hx : valueOf? x = some v) :
    ∃ q, Numeral.value? (resultText x).toList = some q ∧ IsNearest q v := by
  have grid := onGrid_of_valueOf? hx
  rw [valueOf?_eq] at hx
  obtain ⟨a, ha, rfl⟩ := Option.map_eq_some_iff.mp hx
  by_cases whole : a.isWhole = true
  · rw [resultText_of_isWhole ha whole]
    refine ⟨_, Numeral.value?_int _, ?_⟩
    rw [← Scaled.value_eq_truncate whole]
    exact isNearest_self grid.onOpenGrid
  · obtain ⟨nearest, -⟩ := isNearest_shortest_abs ha whole
    have hread := Decimal.magnitude?_text (Decimal.shortest x.abs a)
    rw [resultText_of_not_isWhole ha whole, String.toList_ofList]
    rw [a.abs_value] at nearest
    refine ⟨signed (if a.negative then .negative else .positive) (Decimal.shortest x.abs a).value,
      ?_, by rw [a.value_eq_signed]; exact nearest.signed _⟩
    cases a.negative with
    | false => exact Numeral.value?_of_magnitude? hread
    | true => exact congrArg (Option.map fun q => -q) hread

/-- What is not whole has digits behind the point, so few before it. -/
theorem abs_lt_of_not_isWhole {a : Scaled} (grid : OnGrid (value a)) (fractional : ¬a.isWhole = true) :
    |value a| < 2 ^ 53 := by
  obtain ⟨b, f, short, -, -, hb⟩ := grid
  have hf : f < 0 := by
    by_contra! nonneg
    refine fractional (Scaled.isWhole_of_value_eq (n := b * 2 ^ f.toNat) ?_)
    rw [hb]
    push_cast
    rw [← zpow_natCast, Int.toNat_of_nonneg nonneg]
  calc |value a| < 2 ^ (53 + f) := hb ▸ abs_mul_two_zpow_lt short
    _ ≤ 2 ^ (53 : Int) := zpow_le_zpow_right₀ one_le_two (by omega)
    _ = 2 ^ 53 := by norm_num

/-- A whole number that is not negative is shown as a literal of all its digits. -/
theorem exists_literal_of_isWhole {a : Scaled} (ha : Scaled.ofFloat? x = some a)
    (whole : a.isWhole = true) (grid : OnGrid (value a)) (nonneg : 0 ≤ value a) :
    ∃ l : NumberLiteral, resultText x = l.text ∧ IsNearest l.decimal.value (value a) := by
  rw [Scaled.value_eq_truncate whole] at grid nonneg ⊢
  obtain ⟨n, hn⟩ := Int.eq_ofNat_of_zero_le (Int.cast_nonneg_iff.mp nonneg)
  rw [hn, Int.cast_natCast] at grid ⊢
  refine ⟨.ofNat n, ?_, ?_⟩
  · rw [resultText_of_isWhole ha whole, hn, NumberLiteral.text_ofNat]
    rfl
  · rw [NumberLiteral.value_ofNat]
    exact isNearest_self grid.onOpenGrid

/-- The digits of a number that is not whole do not reach far before the point. -/
theorem lt_of_isNearest_of_not_isWhole {a : Scaled} {q : ℚ} (grid : OnGrid (value a))
    (fractional : ¬a.isWhole = true) (nearest : IsNearest q (value a)) : q < 10 ^ 16 := by
  by_contra! large
  have hten : OnOpenGrid (10 ^ 16) := ⟨5 ^ 16, 16, by decide, by decide, by norm_num⟩
  have ge := nearest.ge hten large
  have less := (le_abs_self _).trans_lt (abs_lt_of_not_isWhole grid fractional)
  norm_num at ge less
  linarith

/-- A number that is neither whole nor tiny is shown as a literal of the fewest digits. -/
theorem exists_literal_of_not_isWhole {a : Scaled} (ha : Scaled.ofFloat? x = some a)
    (fractional : ¬a.isWhole = true) (grid : OnGrid (value a)) (least : 1 / 10 ^ 4 ≤ value a) :
    ∃ l : NumberLiteral, resultText x = l.text ∧ IsNearest l.decimal.value (value a) := by
  have pos : 0 < value a := lt_of_lt_of_le (by norm_num) least
  obtain ⟨nearest, bounds⟩ := isNearest_shortest_abs ha fractional
  rw [abs_of_pos pos] at nearest bounds
  have above : 1 / 10 ^ 4 ≤ (Decimal.shortest x.abs a).value := by
    have := bounds (-4) (by norm_num at least ⊢; exact least)
    norm_num at this ⊢
    exact this
  obtain ⟨l, hchars, hvalue⟩ := Decimal.exists_literal_of_between above
    (lt_of_isNearest_of_not_isWhole grid fractional nearest)
  refine ⟨l, ?_, hvalue ▸ nearest⟩
  rw [resultText_of_not_isWhole ha fractional, Scaled.negative_eq_false pos, hchars]
  rfl

/-- A result that is whole or not tiny is shown as a literal. -/
theorem exists_literal (hx : valueOf? x = some v) (nonneg : 0 ≤ v)
    (shown : (∃ n : Int, v = n) ∨ 1 / 10 ^ 4 ≤ v) :
    ∃ l : NumberLiteral, resultText x = l.text ∧ IsNearest l.decimal.value v := by
  have grid := onGrid_of_valueOf? hx
  rw [valueOf?_eq] at hx
  obtain ⟨a, ha, rfl⟩ := Option.map_eq_some_iff.mp hx
  by_cases whole : a.isWhole = true
  · exact exists_literal_of_isWhole ha whole grid nonneg
  · have least : 1 / 10 ^ 4 ≤ value a :=
      shown.resolve_left fun ⟨_, hn⟩ => whole (Scaled.isWhole_of_value_eq hn)
    exact exists_literal_of_not_isWhole ha whole grid least

/-- A literal is one token, and it comes to the number of the format nearest to what it denotes. -/
theorem NumberLiteral.evaluate_text (l : NumberLiteral) :
    Token.ofText l.text = [⟨.number, l.text, some (.real l.decimal.toFloat)⟩, Token.endOfInput] ∧
      (evaluate l.text).outcome = .ok (some (.real l.decimal.toFloat)) := by
  have htokens : Token.inside l.text = [⟨.number, l.text, some (.real l.decimal.toFloat)⟩] := by
    rw [Token.inside_word l.isWord, l.ofFragment_eq]
  refine ⟨by rw [Token.ofText_eq, htokens]; rfl, ?_⟩
  have hread : Tree.ofTokens (Token.ofText l.text) =
      .ok (.number (some (.real l.decimal.toFloat))) := by
    refine Token.ofTokens_of_reads ?_ ?_ <;> rw [htokens]
    · exact reads_expression (reads_number rfl)
    · exact nestsWithin_of_openings_le (by simp)
  rw [evaluate_of_read hread (Nat.zero_le _)]
  rfl

/-- Results read back. What a finite number is shown as denotes a number to which it is the nearest
number of the format; a whole one is shown as its integer; and if it is not negative, and whole or not
tiny, then what is shown is a literal that evaluates to it. -/
theorem resultText_reads_back (finite : valueOf? x = some v) :
    (∃ q, Numeral.value? (resultText x).toList = some q ∧ IsNearest q v) ∧
      (∀ n : Int, v = n → resultText x = toString n) ∧
      (0 ≤ v → (∃ n : Int, v = n) ∨ 1 / 10 ^ 4 ≤ v → ∃ y,
        Token.ofText (resultText x) =
          [⟨.number, resultText x, some (.real y)⟩, Token.endOfInput] ∧
        (evaluate (resultText x)).outcome = .ok (some (.real y)) ∧ (y == x) = true) := by
  refine ⟨exists_numeral finite, ?_, ?_⟩
  · intro n hn
    rw [valueOf?_eq] at finite
    obtain ⟨a, ha, rfl⟩ := Option.map_eq_some_iff.mp finite
    have whole := Scaled.isWhole_of_value_eq hn
    have htruncate : a.truncate = n := by
      rw [Scaled.value_eq_truncate whole] at hn
      exact_mod_cast hn
    rw [resultText_of_isWhole ha whole, htruncate]
  · intro nonneg shown
    obtain ⟨l, htext, nearest⟩ := exists_literal finite nonneg shown
    obtain ⟨tokens, outcome⟩ := l.evaluate_text
    rw [htext]
    exact ⟨_, tokens, outcome,
      (beq_iff (Decimal.valueOf?_toFloat finite nearest) finite).mpr rfl⟩

/-- A tenth is not a number of the format, and what is shown of the nearest one evaluates to it; a
power of ten that is one is shown with all its digits. -/
theorem resultText_reads_back_tenth :
    (valueOf? 0.1 = some (3602879701896397 / 2 ^ 55) ∧
      (∃ q, Numeral.value? (resultText 0.1).toList = some q ∧
        IsNearest q (3602879701896397 / 2 ^ 55)) ∧
      ∃ y, Token.ofText (resultText 0.1) =
          [⟨.number, resultText 0.1, some (.real y)⟩, Token.endOfInput] ∧
        (evaluate (resultText 0.1)).outcome = .ok (some (.real y)) ∧ (y == 0.1) = true) ∧
    valueOf? 1e22 = some (10 ^ 22) ∧ resultText 1e22 = toString (10 ^ 22 : Int) := by
  have tenth : valueOf? 0.1 = some (3602879701896397 / 2 ^ 55) :=
    valueOf?_eq_some (a := ⟨false, 7205759403792794, -56⟩) (by decide +kernel)
      (by norm_num [value, signed])
  have power : valueOf? 1e22 = some (10 ^ 22) :=
    valueOf?_eq_some (a := ⟨false, 4768371582031250, 21⟩) (by decide +kernel)
      (by norm_num [value, signed])
  obtain ⟨numeral, -, literal⟩ := resultText_reads_back tenth
  refine ⟨⟨tenth, numeral, literal (by norm_num) (.inr (by norm_num))⟩, power, ?_⟩
  exact (resultText_reads_back power).2.1 (10 ^ 22) (by norm_num)

end

end Calculator
