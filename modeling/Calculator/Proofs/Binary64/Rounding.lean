import Calculator.Proofs.Binary64.Packed

/-!
# Rounding counts units

An exact number is counted in units of a power of two, to the nearest count and of two equally near
ones to the even one, and the count is written with the digits of the format. What is cut off on the
way is kept in two digits: whether half a unit was reached, and whether anything stands beyond it.

Results:
1. `Holds.counts`: the digits that are kept and the two that are not determine the count.
2. `roundWithAccuracy_eq_place`: rounding counts units of some power of two, fine enough for all
   digits of the format, and places the count.
-/

namespace Calculator

namespace Binary64

open Float.Model UnpackedFloat

/-! ## Counting units -/

/-- The count `M` of units stands for `x`: no whole number is nearer, and if another is as near then
`M` is even. -/
structure Counts (M : Nat) (x : ℚ) : Prop where
  near : |x - M| ≤ 1 / 2
  even : |x - M| = 1 / 2 → Even M

/-- The digits that are kept and the two that are not say in which half of a unit `x` lies, and
whether it is where that half begins. -/
structure Holds (em : ExtendedMantissa) (x : ℚ) : Prop where
  above : em.mantissa + (em.roundBit.toNat : ℚ) / 2 ≤ x
  below : x < em.mantissa + (em.roundBit.toNat + 1 : ℚ) / 2
  exact_iff : x = em.mantissa + (em.roundBit.toNat : ℚ) / 2 ↔ em.stickyBit = false

theorem holds_exact (m : Nat) : Holds (.ofMantissaAndAccuracy m .exact) m := by
  refine ⟨?_, ?_, iff_of_true ?_ rfl⟩ <;> simp [ExtendedMantissa.ofMantissaAndAccuracy]

variable {em : ExtendedMantissa} {x : ℚ}

namespace Holds

theorem mantissa_le (h : Holds em x) : (em.mantissa : ℚ) ≤ x := by
  have : (0 : ℚ) ≤ em.roundBit.toNat := Nat.cast_nonneg _
  linarith [h.above]

theorem lt_mantissa_add_one (h : Holds em x) : x < em.mantissa + 1 := by
  have : (em.roundBit.toNat : ℚ) ≤ 1 := by exact_mod_cast Bool.toNat_le em.roundBit
  linarith [h.below]

/-- Nothing was cut off. -/
theorem eq_mantissa_iff (h : Holds em x) :
    x = em.mantissa ↔ em.roundBit = false ∧ em.stickyBit = false := by
  obtain ⟨m, r, s⟩ := em
  obtain ⟨above, -, exact_iff⟩ := h
  dsimp only at above exact_iff ⊢
  cases r with
  | false =>
    rw [← exact_iff]
    simp
  | true =>
    refine iff_of_false (fun heq => ?_) (by simp)
    rw [heq, Bool.toNat_true, Nat.cast_one] at above
    linarith

/-- A digit less is kept. -/
theorem shiftRightOne (h : Holds em x) : Holds em.shiftRightOne (x / 2) := by
  have digit : ((em.mantissa % 2 != 0).toNat : ℚ) = (em.mantissa % 2 : Nat) := by
    rcases Nat.mod_two_eq_zero_or_one em.mantissa with hm | hm <;> rw [hm] <;> rfl
  have split : (em.mantissa : ℚ) = (em.mantissa / 2 : Nat) * 2 + (em.mantissa % 2 : Nat) := by
    exact_mod_cast (Nat.div_add_mod' em.mantissa 2).symm
  have whole : x / 2 = (em.mantissa / 2 : Nat) + ((em.mantissa % 2 : Nat) : ℚ) / 2 ↔
      x = em.mantissa := by
    rw [split]
    constructor <;> intro heq <;> linarith
  refine ⟨?_, ?_, ?_⟩ <;> unfold ExtendedMantissa.shiftRightOne <;> dsimp only <;> rw [digit]
  · linarith [h.mantissa_le]
  · linarith [h.lt_mantissa_add_one]
  · rw [whole, h.eq_mantissa_iff, Bool.or_eq_false_iff]

theorem shiftRight (h : Holds em x) (n : Nat) : Holds (em >>> n) (x / 2 ^ n) := by
  show Holds (n.repeat ExtendedMantissa.shiftRightOne em) (x / 2 ^ n)
  induction n with
  | zero => rwa [pow_zero, div_one]
  | succ n ih =>
    rw [pow_succ, ← div_div]
    exact ih.shiftRightOne

/-- Whatever the digits that are not kept, rounding counts. -/
theorem counts (h : Holds em x) : Counts em.roundedMantissa x := by
  obtain ⟨m, r, s⟩ := em
  obtain ⟨above, below, exact_iff⟩ := h
  dsimp only at above below exact_iff
  cases r <;> cases s <;>
    simp only [Bool.toNat_false, Bool.toNat_true, Nat.cast_zero, Nat.cast_one, zero_div, add_zero,
      zero_add, iff_true, Bool.true_eq_false, iff_false] at above below exact_iff
  case false.false =>
    show Counts m x
    rw [exact_iff]
    constructor <;> norm_num
  case false.true =>
    show Counts m x
    have strict : |x - m| < 1 / 2 := by
      rw [abs_lt]
      constructor <;> linarith
    exact ⟨strict.le, fun heq => absurd heq strict.ne⟩
  case true.false =>
    -- half a unit: the even one of the two neighbours
    show Counts (m + m % 2) x
    rw [exact_iff]
    rcases Nat.mod_two_eq_zero_or_one m with hm | hm <;> rw [hm] <;>
      refine ⟨?_, fun _ => by grind⟩
    · norm_num
    · rw [abs_le]
      push_cast
      constructor <;> linarith
  case true.true =>
    show Counts (m + 1) x
    have strict : |x - (m + 1 : Nat)| < 1 / 2 := by
      rw [abs_lt]
      push_cast
      constructor
      · linarith [lt_of_le_of_ne above fun heq => exact_iff heq.symm]
      · linarith
    exact ⟨strict.le, fun heq => absurd heq strict.ne⟩

end Holds

namespace Counts

variable {M : Nat} {K : Int}

theorem one_le_abs_add_abs (other : K ≠ M) : 1 ≤ |x - K| + |x - M| := by
  have apart : (1 : ℚ) ≤ |((M : Int) - K : Int)| := by
    exact_mod_cast Int.one_le_abs (sub_ne_zero.mpr other.symm)
  calc (1 : ℚ) ≤ |(M : ℚ) - K| := by exact_mod_cast apart
    _ = |(x - K) - (x - M)| := by rw [sub_sub_sub_cancel_left]
    _ ≤ |x - K| + |x - M| := abs_sub _ _

/-- No other whole number is nearer than the count … -/
theorem abs_sub_le (h : Counts M x) (K : Int) : |x - M| ≤ |x - K| := by
  by_cases same : K = M
  · rw [same, Int.cast_natCast]
  · have := one_le_abs_add_abs (x := x) same
    linarith [h.near]

/-- … and where one is as near the count is even. -/
theorem even_of_abs_sub_eq (h : Counts M x) (other : K ≠ M) (equal : |x - K| = |x - M|) :
    Even M := by
  have := one_le_abs_add_abs (x := x) other
  exact h.even (le_antisymm h.near (by linarith))

/-- Counting does not lead beyond a whole number from above … -/
theorem le_of_le (h : Counts M x) (le : x ≤ K) : (M : Int) ≤ K := by
  have near := h.abs_sub_le K
  rw [abs_sub_comm x K, abs_of_nonneg (sub_nonneg.mpr le)] at near
  have : (M : ℚ) ≤ K := by linarith [neg_abs_le (x - M)]
  exact_mod_cast this

/-- … nor from below. -/
theorem ge_of_ge (h : Counts M x) (ge : K ≤ x) : K ≤ M := by
  have near := h.abs_sub_le K
  rw [abs_of_nonneg (sub_nonneg.mpr ge)] at near
  have : (K : ℚ) ≤ M := by linarith [le_abs_self (x - M)]
  exact_mod_cast this

end Counts

/-! ## Placing a count -/

/-- So many units of `2 ^ t`, written with the digits of the format. -/
def place (s : Sign) (M : Nat) (t : Int) : UnpackedFloat :=
  if pos : M = 0 then .zero s
  else if M = 2 ^ 53 then .finite s (2 ^ 52) (t + 1) (by decide)
  else .finite s M t (Nat.pos_of_ne_zero pos)

/-- The unit in which a number with the given digits is counted. -/
def unit (m : Nat) (e : Int) : Int := Format.binary64.targetExponent (totalExponent m e)

theorem unit_eq (m : Nat) (e : Int) : unit m e = max (m.log2 + e - 52) (-1074) := by
  show max ((m.log2 : Int) + 1 + e - 53) (-1074) = _
  omega

theorem unit_least (m : Nat) (e : Int) : -1074 ≤ unit m e := by
  rw [unit_eq]
  exact le_max_right _ _

/-- The digits behind the unit are cut off. -/
def cut (m : Nat) (acc : Accuracy) (n : Nat) : ExtendedMantissa :=
  ExtendedMantissa.ofMantissaAndAccuracy m acc >>> n

theorem shiftToTargetExponent_eq (m : Nat) (e : Int) (acc : Accuracy) :
    shiftToTargetExponent Format.binary64 m e acc =
      (cut m acc (unit m e - e).toNat, e + (unit m e - e).toNat) := rfl

/-- A count that fits is not shifted a second time. -/
theorem shift_short {M : Nat} {t : Int} (least : -1074 ≤ t) (short : M < 2 ^ 53) :
    shiftToTargetExponent Format.binary64 M t .exact = (⟨M, false, false⟩, t) := by
  have coarse : unit M t ≤ t := by
    have : M.log2 ≤ 52 := by
      rcases Nat.eq_zero_or_pos M with rfl | pos
      · decide
      · exact Nat.le_of_lt_succ ((Nat.log2_lt pos.ne').mpr short)
    rw [unit_eq]
    omega
  rw [shiftToTargetExponent_eq, Int.toNat_of_nonpos (by omega), Nat.cast_zero, add_zero]
  rfl

theorem shift_full {t : Int} (least : -1074 ≤ t) :
    shiftToTargetExponent Format.binary64 (2 ^ 53) t .exact = (⟨2 ^ 52, false, false⟩, t + 1) := by
  have hunit : unit (2 ^ 53) t = t + 1 := by
    rw [unit_eq, Nat.log2_two_pow]
    omega
  rw [shiftToTargetExponent_eq, hunit, show (t + 1 - t).toNat = 1 by omega]
  rfl

/-- After rounding, the count is placed. -/
theorem roundWithAccuracy_eq {s : Sign} {m : Nat} {e : Int} {acc : Accuracy} (fine : e ≤ unit m e)
    (few : (cut m acc (unit m e - e).toNat).roundedMantissa ≤ 2 ^ 53) :
    roundWithAccuracy Format.binary64 s m e acc =
      place s (cut m acc (unit m e - e).toNat).roundedMantissa (unit m e) := by
  have least := unit_least m e
  have hfirst : e + ((unit m e - e).toNat : Int) = unit m e := by
    rw [Int.toNat_of_nonneg (by omega)]
    omega
  unfold roundWithAccuracy
  rw [shiftToTargetExponent_eq, hfirst]
  dsimp only
  generalize (cut m acc (unit m e - e).toNat).roundedMantissa = M at few ⊢
  rcases Nat.lt_or_eq_of_le few with short | rfl
  · rw [shift_short least short]
    simp only [place, short.ne, if_false]
  · rw [shift_full least]
    rfl

theorem holds_cut {m : Nat} {e t : Int} {acc : Accuracy} {v : ℚ}
    (holds : Holds (.ofMantissaAndAccuracy m acc) (v / 2 ^ e)) (fine : e ≤ t) :
    Holds (cut m acc (t - e).toNat) (v / 2 ^ t) := by
  have shifted := holds.shiftRight (t - e).toNat
  rw [← zpow_natCast, Int.toNat_of_nonneg (by omega), div_div, ← zpow_add₀ two_ne_zero,
    add_sub_cancel] at shifted
  exact shifted

/-- The unit is so coarse that a number with its digits has no more than the format keeps. -/
theorem lt_of_digits {m : Nat} {e : Int} {v : ℚ} (below : v / 2 ^ e < m + 1) :
    v < 2 ^ 53 * 2 ^ unit m e := by
  have hlog : ((m : ℚ) + 1) ≤ 2 ^ (m.log2 + 1) := by exact_mod_cast Nat.lt_log2_self
  have hunit : ((m.log2 + 1 : Nat) : Int) + e ≤ 53 + unit m e := by
    rw [unit_eq]
    omega
  calc v < (m + 1) * 2 ^ e := (div_lt_iff₀ (zpow_pos two_pos e)).mp below
    _ ≤ 2 ^ (m.log2 + 1) * 2 ^ e := by gcongr
    _ = 2 ^ (((m.log2 + 1 : Nat) : Int) + e) := by rw [zpow_add₀ two_ne_zero, zpow_natCast]
    _ ≤ 2 ^ (53 + unit m e) := zpow_le_zpow_right₀ one_le_two hunit
    _ = 2 ^ 53 * 2 ^ unit m e := by
      rw [zpow_add₀ two_ne_zero]
      norm_num

/-- The unit is so fine that a number with its digits has all that the format keeps, unless it is the
least there is. -/
theorem le_of_digits {m : Nat} {e : Int} {v : ℚ} (fine : e ≤ unit m e) (above : m ≤ v / 2 ^ e) :
    unit m e = -1074 ∨ 2 ^ 52 * 2 ^ unit m e ≤ v := by
  by_cases hleast : unit m e = -1074
  · exact .inl hleast
  have hunit : 52 + unit m e = m.log2 + e := by
    rw [unit_eq] at hleast ⊢
    omega
  have hm : m ≠ 0 := by
    rintro rfl
    rw [Nat.log2_zero] at hunit
    omega
  have hlog : (2 : ℚ) ^ m.log2 ≤ m := by exact_mod_cast Nat.log2_self_le hm
  right
  calc (2 : ℚ) ^ 52 * 2 ^ unit m e = 2 ^ (52 + unit m e) := by
        rw [zpow_add₀ two_ne_zero]
        norm_num
    _ = 2 ^ m.log2 * 2 ^ e := by rw [hunit, zpow_add₀ two_ne_zero, zpow_natCast]
    _ ≤ m * 2 ^ e := by gcongr
    _ ≤ v := (le_div_iff₀ (zpow_pos two_pos e)).mp above

/-- Rounding counts units of a power of two that is fine enough for the number to have all digits
of the format, or the least there is. -/
theorem roundWithAccuracy_eq_place (s : Sign) {m : Nat} {e : Int} {acc : Accuracy} {v : ℚ}
    (holds : Holds (.ofMantissaAndAccuracy m acc) (v / 2 ^ e)) (fine : e ≤ unit m e) :
    ∃ M, Counts M (v / 2 ^ unit m e) ∧ M ≤ 2 ^ 53 ∧
      (unit m e = -1074 ∨ 2 ^ 52 * 2 ^ unit m e ≤ v) ∧
      roundWithAccuracy Format.binary64 s m e acc = place s M (unit m e) := by
  have hmantissa : (ExtendedMantissa.ofMantissaAndAccuracy m acc).mantissa = m := by
    rcases acc with _ | _ | _ | _ <;> rfl
  have above := holds.mantissa_le
  have below := holds.lt_mantissa_add_one
  rw [hmantissa] at above below
  have counts := (holds_cut holds fine).counts
  have few : (cut m acc (unit m e - e).toNat).roundedMantissa ≤ 2 ^ 53 := by
    have hv : v / 2 ^ unit m e ≤ ((2 ^ 53 : Int) : ℚ) := by
      rw [div_le_iff₀ (zpow_pos two_pos _)]
      exact_mod_cast (lt_of_digits below).le
    exact_mod_cast counts.le_of_le hv
  exact ⟨_, counts, few, le_of_digits fine above, roundWithAccuracy_eq fine few⟩

end Binary64

end Calculator
