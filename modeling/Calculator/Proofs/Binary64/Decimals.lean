import Calculator.Decimal
import Calculator.Proofs.Binary64.Order

/-!
# Reading decimal numbers

A decimal number is read as the number of the format nearest to it, however many digits it has and
however great its power of ten is.

Results:
1. `Decimal.rounded_toFloat`: reading rounds once.
2. `rounded_ofNat`, `near_ofInt`: so does the conversion of an integer of any size.
-/

namespace Calculator

open Binary64 Float.Model UnpackedFloat

namespace Decimal

/-- The exact value of a decimal number. -/
def value (d : Decimal) : ℚ := d.digits * 10 ^ d.exponent

/-- The powers of ten that are numbers of the format are kept in a table. -/
theorem valueOf?_powersOfTen {k : Nat} (h : k < Float.exactlyRepresentablePowersOfTen.size) :
    valueOf? (Float.exactlyRepresentablePowersOfTen[k]) = some (10 ^ k) := by
  have all : ∀ k : Fin 23, (Scaled.ofFloat? (Float.exactlyRepresentablePowersOfTen[k])).map
      (·.compareInt (10 ^ k.val)) = some .eq := by decide +kernel
  obtain ⟨a, ha, hcompare⟩ := Option.map_eq_some_iff.mp (all ⟨k, h⟩)
  refine valueOf?_eq_some ha ?_
  rw [compareInt_eq, compare_eq_iff_eq] at hcompare
  rw [hcompare]
  push_cast
  rfl

/-- Few digits and a small power of ten are converted each, and then one operation rounds. -/
theorem rounded_short {m k : Nat} (short : m < 2 ^ 53)
    (small : k < Float.exactlyRepresentablePowersOfTen.size) :
    Rounded (m.toUInt64.toFloat * Float.exactlyRepresentablePowersOfTen[k]) (m * 10 ^ k) ∧
      Rounded (m.toUInt64.toFloat / Float.exactlyRepresentablePowersOfTen[k]) (m / 10 ^ k) := by
  have hm := valueOf?_toUInt64 short
  have hpower := valueOf?_powersOfTen small
  exact ⟨rounded_mul hm hpower, rounded_div hm hpower (by positivity)⟩

/-- Beyond the range the nearest number is not a number of the format. -/
theorem nearest_infinity {m : Nat} (s : Sign) (huge : 2 ^ 1024 ≤ m) :
    Nearest (.infinity s) m := by
  obtain ⟨w, nearest, -⟩ := nearest_round .positive m 0
  rw [zpow_zero, mul_one, signed] at nearest
  have grid : OnOpenGrid (2 ^ 1024) := ⟨1, 1024, by decide, by decide, by norm_num⟩
  have hw : 2 ^ 1024 ≤ w := nearest.ge grid (by exact_mod_cast huge)
  refine ⟨w, nearest, ?_⟩
  rw [stored_infinity, if_neg (not_lt.mpr (hw.trans (le_abs_self w)))]
  rfl

/-- Less than half the least positive number is next to zero. -/
theorem nearest_zero_of_lt {v : ℚ} (s : Sign) (nonneg : 0 ≤ v) (small : v < 2 ^ (-1075 : Int)) :
    Nearest (.zero s) v := by
  have pos : (0 : ℚ) < 2 ^ (-1074 : Int) := zpow_pos two_pos _
  have half : v / 2 ^ (-1074 : Int) < 1 / 2 := by
    rw [div_lt_iff₀ pos, one_div, ← zpow_neg_one, ← zpow_add₀ two_ne_zero]
    exact small
  have counts : Counts 0 (v / 2 ^ (-1074 : Int)) := by
    rw [← abs_of_nonneg (div_nonneg nonneg pos.le)] at half
    refine ⟨?_, fun _ => Even.zero⟩
    rw [Nat.cast_zero, sub_zero]
    exact half.le
  have nearest := counts.isNearest (by norm_num) le_rfl (.inl rfl)
  rw [Nat.cast_zero, zero_mul] at nearest
  exact ⟨0, nearest, by rw [stored_zero, if_pos (by rw [abs_zero]; positivity)]; rfl⟩

/-- A whole number of many digits, times a power of ten. -/
theorem nearest_mul_power {m k : Nat} (pos : 0 < m <<< 53) (pos' : 0 < 10 ^ k) :
    Nearest (UnpackedFloat.mul Format.binary64 (.finite .positive (m <<< 53) (-53) pos)
      (.finite .positive (10 ^ k) 0 pos')) (m * 10 ^ k) := by
  have hproduct : ((m <<< 53 * 10 ^ k : Nat) : ℚ) * 2 ^ (-53 : Int) = m * 10 ^ k := by
    rw [Nat.shiftLeft_eq]
    push_cast
    rw [mul_right_comm, mul_assoc (m : ℚ)]
    norm_num
  have fine : (-53 : Int) ≤ unit (m <<< 53 * 10 ^ k) (-53) := by
    have hlog : 53 ≤ (m <<< 53 * 10 ^ k).log2 := by
      refine (Nat.le_log2 (Nat.mul_pos pos pos').ne').mpr ?_
      have hm : 2 ^ 53 ≤ m <<< 53 := by
        rw [Nat.shiftLeft_eq] at pos ⊢
        exact Nat.le_mul_of_pos_left _ (Nat.pos_of_mul_pos_right pos)
      exact hm.trans (Nat.le_mul_of_pos_right _ pos')
    rw [unit_eq]
    omega
  have holds : Holds (.ofMantissaAndAccuracy (m <<< 53 * 10 ^ k) .exact)
      ((m : ℚ) * 10 ^ k / 2 ^ (-53 : Int)) := by
    rw [← hproduct, mul_div_cancel_right₀ _ (zpow_ne_zero _ two_ne_zero)]
    exact holds_exact _
  exact nearest_roundWithAccuracy (.positive * .positive) holds fine

/-- Ten to a great power is great … -/
theorem two_pow_le_mul {m n k : Nat} (pos : 1 ≤ m) (h : n ≤ k) : 2 ^ n ≤ m * 10 ^ k :=
  calc 2 ^ n ≤ 10 ^ n := Nat.pow_le_pow_left (by norm_num) n
    _ ≤ 10 ^ k := Nat.pow_le_pow_right (by norm_num) h
    _ ≤ m * 10 ^ k := Nat.le_mul_of_pos_left _ pos

/-- … and to a negative one small. -/
theorem mul_power_lt {m : Nat} {e : Int} (low : e < -(2048 + m.log2)) :
    (m : ℚ) * 10 ^ e < 2 ^ (-1075 : Int) := by
  have hm : (m : ℚ) < 2 ^ (m.log2 + 1) := by exact_mod_cast Nat.lt_log2_self
  have hpower : (10 : ℚ) ^ e ≤ 2 ^ e := by
    obtain ⟨k, rfl⟩ : ∃ k : Nat, e = -k := ⟨(-e).toNat, by omega⟩
    rw [zpow_neg, zpow_neg, zpow_natCast, zpow_natCast]
    gcongr
    norm_num
  calc (m : ℚ) * 10 ^ e ≤ m * 2 ^ e := by gcongr
    _ < 2 ^ (m.log2 + 1) * 2 ^ e := mul_lt_mul_of_pos_right hm (zpow_pos two_pos e)
    _ = 2 ^ (((m.log2 + 1 : Nat) : Int) + e) := two_pow_mul _ e
    _ ≤ 2 ^ (-1075 : Int) := zpow_le_zpow_right₀ one_le_two (by push_cast; omega)

theorem nearest_ofScientific (m : Nat) (e : Int) :
    Nearest (UnpackedFloat.ofScientific Format.binary64 m e) (m * 10 ^ e) := by
  unfold UnpackedFloat.ofScientific
  by_cases zero : m = 0
  · rw [dif_pos zero, zero, Nat.cast_zero, zero_mul]
    exact nearest_zero _
  rw [dif_neg zero]
  have pos : 1 ≤ m := Nat.pos_of_ne_zero zero
  change Nearest (if (2048 : Int) < e then _ else if e < -(2048 + (m.log2 : Int)) then _ else
    if 0 ≤ e then _ else _) _
  by_cases high : (2048 : Int) < e
  · rw [if_pos high]
    obtain ⟨k, rfl⟩ := Int.eq_ofNat_of_zero_le (show 0 ≤ e by omega)
    rw [zpow_natCast]
    have huge : 2 ^ 1024 ≤ m * 10 ^ k := two_pow_le_mul pos (by omega)
    exact_mod_cast nearest_infinity .positive huge
  rw [if_neg high]
  by_cases low : e < -(2048 + (m.log2 : Int))
  · rw [if_pos low]
    exact nearest_zero_of_lt _ (by positivity) (mul_power_lt low)
  rw [if_neg low]
  by_cases nonneg : 0 ≤ e
  · rw [if_pos nonneg]
    obtain ⟨k, rfl⟩ := Int.eq_ofNat_of_zero_le nonneg
    exact_mod_cast nearest_mul_power _ _
  · rw [if_neg nonneg]
    have hvalue : (m : ℚ) * 10 ^ e = signed .positive (m * 2 ^ (0 : Int)) /
        signed .positive ((10 ^ (-e).toNat : Nat) * 2 ^ (0 : Int)) := by
      obtain ⟨k, rfl⟩ : ∃ k : Nat, e = -k := ⟨(-e).toNat, by omega⟩
      simp [signed, zpow_neg, div_eq_mul_inv]
    rw [hvalue]
    exact nearest_div_finite .positive .positive 0 0 _ _

/-- Reading rounds once. -/
theorem rounded_toFloat (d : Decimal) : Rounded d.toFloat d.value := by
  obtain ⟨m, e⟩ := d
  unfold toFloat value Float.ofScientific
  dsimp only
  by_cases short : m < 2 ^ 53 ∧ e.natAbs ≤ 22
  · rw [dif_pos short]
    obtain ⟨product, quotient⟩ := rounded_short short.1 (Nat.lt_succ_of_le short.2)
    by_cases neg : e < 0
    · have hexponent : e = -(e.natAbs : Int) := by omega
      have hvalue : (m : ℚ) * 10 ^ e = m / 10 ^ e.natAbs := by
        conv_lhs => rw [hexponent]
        rw [zpow_neg, zpow_natCast, ← div_eq_mul_inv]
      rw [decide_eq_true neg, if_pos rfl, hvalue]
      exact quotient
    · have hexponent : e = (e.natAbs : Int) := by omega
      have hvalue : (m : ℚ) * 10 ^ e = m * 10 ^ e.natAbs := by
        conv_lhs => rw [hexponent]
        rw [zpow_natCast]
      rw [decide_eq_false neg, if_neg Bool.false_ne_true, hvalue]
      exact product
  · rw [dif_neg short]
    have hexponent : (if decide (e < 0) = true then Int.negOfNat e.natAbs
        else Int.ofNat e.natAbs) = e := by
      by_cases neg : e < 0
      · rw [if_pos (decide_eq_true neg), Int.negOfNat_eq, Int.ofNat_eq_natCast]
        omega
      · rw [if_neg (by simpa using neg), Int.ofNat_eq_natCast]
        omega
    rw [hexponent]
    exact (nearest_ofScientific m e).rounded

end Decimal

namespace Binary64

/-- A natural number of any size is converted as a decimal number. -/
theorem rounded_ofNat (n : Nat) : Rounded (Float.ofNat n) n := by
  have h := Decimal.rounded_toFloat ⟨n, 0⟩
  rwa [Decimal.value, zpow_zero, mul_one] at h

/-- The conversion of an integer rounds, and a negative one takes its sign afterwards. -/
theorem near_ofInt (n : Int) : Near (Float.ofInt n) n := by
  cases n with
  | ofNat n => exact (rounded_ofNat n).near
  | negSucc n =>
    have h := (rounded_ofNat (n + 1)).near.neg
    rw [Int.cast_negSucc]
    exact h

end Binary64

end Calculator
