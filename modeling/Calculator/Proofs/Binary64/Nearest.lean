import Calculator.Proofs.Binary64.Rounding

/-!
# The nearest number of the format

What an operation stores is the number of the format nearest to the exact result, and of two equally
near ones the one with an even mantissa. Were there no greatest exponent, this would hold of every
result; as there is one, it holds of those in range, and beyond the range no number is stored.

It follows that rounding never crosses a number of the format, so a bound that is itself such a number
holds after rounding if it held before.

Results:
1. `IsNearest.unique`: there is only one nearest number.
2. `nearest_roundWithAccuracy`: it is stored, if it is in range.
3. `Nearest.rounds`: a rounded number keeps within bounds that are numbers of the format.
4. `nearest_round`, `nearest_normalize`: so do a number written with any mantissa and exponent, and a
   sum of mantissas.
-/

namespace Calculator

namespace Binary64

open Float.Model UnpackedFloat

/-! ## Definitions -/

/-- The magnitude with its sign. -/
def signed : Sign → ℚ → ℚ
  | .positive, v => v
  | .negative, v => -v

/-- The exact value of a finite number. -/
def value? : UnpackedFloat → Option ℚ
  | .zero _ => some 0
  | .finite s m e _ => some (signed s (m * 2 ^ e))
  | .infinity _ => none
  | .notANumber => none

/-- A number of the format, zero included. -/
def OnGrid (B : ℚ) : Prop :=
  ∃ b f : Int, |b| < 2 ^ 53 ∧ -1074 ≤ f ∧ f ≤ greatest ∧ B = b * 2 ^ f

/-- A number of the format, were there no greatest exponent. -/
def OnOpenGrid (B : ℚ) : Prop :=
  ∃ b f : Int, |b| < 2 ^ 53 ∧ -1074 ≤ f ∧ B = b * 2 ^ f

/-- The mantissa of the number is even. -/
def HasEvenMantissa (w : ℚ) : Prop :=
  ∃ (m : Nat) (e : Int), Canonical m e ∧ Even m ∧ |w| = m * 2 ^ e

/-- No number of the format is nearer to `v` than `w`, and if another is as near then `w` is the one
with the even mantissa. -/
structure IsNearest (v w : ℚ) : Prop where
  grid : OnOpenGrid w
  near : ∀ g, OnOpenGrid g → |v - w| ≤ |v - g|
  even : ∀ g, OnOpenGrid g → g ≠ w → |v - g| = |v - w| → HasEvenMantissa w

/-- The number nearest to `v` is stored if it is in range, and none otherwise. -/
def Nearest (u : UnpackedFloat) (v : ℚ) : Prop :=
  ∃ w, IsNearest v w ∧ value? (stored u) = if |w| < 2 ^ 1024 then some w else none

/-- What is stored lies between the numbers of the format between which the exact number `v` lies. -/
def Rounds (u : UnpackedFloat) (v : ℚ) : Prop :=
  ∀ lo hi, OnGrid lo → OnGrid hi → lo ≤ v → v ≤ hi →
    ∃ w, value? (stored u) = some w ∧ lo ≤ w ∧ w ≤ hi

/-! ## Numbers of the format -/

variable {M m : Nat} {e t : Int} {v w B : ℚ} {u : UnpackedFloat}

@[simp] theorem signed_zero (s : Sign) : signed s 0 = 0 := by
  cases s with
  | positive => rfl
  | negative => exact neg_zero

@[simp] theorem abs_signed (s : Sign) (v : ℚ) : |signed s v| = |v| := by
  cases s with
  | positive => rfl
  | negative => exact abs_neg v

theorem two_pow_mul (n : Nat) (t : Int) : (2 : ℚ) ^ n * 2 ^ t = 2 ^ (n + t) := by
  rw [zpow_add₀ two_ne_zero, zpow_natCast]

theorem OnGrid.onOpenGrid (h : OnGrid B) : OnOpenGrid B := by
  obtain ⟨b, f, short, least, -, rfl⟩ := h
  exact ⟨b, f, short, least, rfl⟩

theorem onOpenGrid_zero : OnOpenGrid 0 := ⟨0, 0, by decide, by decide, by norm_num⟩

theorem OnGrid.neg (h : OnGrid B) : OnGrid (-B) := by
  obtain ⟨b, f, short, least, most, rfl⟩ := h
  exact ⟨-b, f, by rwa [abs_neg], least, most, by push_cast; ring⟩

theorem OnOpenGrid.neg (h : OnOpenGrid B) : OnOpenGrid (-B) := by
  obtain ⟨b, f, short, least, rfl⟩ := h
  exact ⟨-b, f, by rwa [abs_neg], least, by push_cast; ring⟩

/-- A number of the format is a whole number of units of a power of two, fewer than the format has
digits for. -/
theorem abs_mul_two_zpow_lt {b f : Int} (short : |b| < 2 ^ 53) :
    |(b : ℚ) * 2 ^ f| < 2 ^ (53 + f) := by
  have pos : (0 : ℚ) < 2 ^ f := zpow_pos two_pos f
  have hb : |(b : ℚ)| < 2 ^ 53 := by exact_mod_cast short
  calc |(b : ℚ) * 2 ^ f| = |(b : ℚ)| * 2 ^ f := by rw [abs_mul, abs_of_pos pos]
    _ < 2 ^ 53 * 2 ^ f := mul_lt_mul_of_pos_right hb pos
    _ = 2 ^ (53 + f) := two_pow_mul 53 f

theorem OnGrid.abs_lt (h : OnGrid B) : |B| < 2 ^ 1024 := by
  obtain ⟨b, f, short, -, most, rfl⟩ := h
  calc |(b : ℚ) * 2 ^ f| < 2 ^ (53 + f) := abs_mul_two_zpow_lt short
    _ ≤ 2 ^ (1024 : Int) := zpow_le_zpow_right₀ one_le_two (by unfold greatest at most; omega)
    _ = 2 ^ 1024 := zpow_natCast 2 1024

/-- The greatest number of the format. -/
theorem OnGrid.abs_le (h : OnGrid B) : |B| ≤ (2 ^ 53 - 1) * 2 ^ greatest := by
  obtain ⟨b, f, short, -, most, rfl⟩ := h
  have hb : |(b : ℚ)| ≤ 2 ^ 53 - 1 := by
    rw [le_sub_iff_add_le]
    exact_mod_cast short
  rw [abs_mul, abs_of_pos (zpow_pos two_pos f : (0 : ℚ) < 2 ^ f)]
  exact mul_le_mul hb (zpow_le_zpow_right₀ one_le_two most) (zpow_pos two_pos f).le (by norm_num)

/-- A coarser unit is a whole number of finer ones. -/
theorem exists_count {b f t : Int} (h : t ≤ f) : ∃ K : Int, (b : ℚ) * 2 ^ f = K * 2 ^ t := by
  refine ⟨b * 2 ^ (f - t).toNat, ?_⟩
  push_cast
  rw [mul_assoc, two_pow_mul, Int.toNat_of_nonneg (by omega), sub_add_cancel]

/-- A number of the format that is at least a power of two counts whole units of the digits behind. -/
theorem OnGrid.exists_units {k : Int} (h : OnGrid B) (large : 2 ^ k ≤ |B|) :
    ∃ K : Int, B = K * 2 ^ (k - 52) := by
  obtain ⟨b, f, short, -, -, rfl⟩ := h
  have less : (2 : ℚ) ^ k < 2 ^ (53 + f) := large.trans_lt (abs_mul_two_zpow_lt short)
  have := (zpow_lt_zpow_iff_right₀ one_lt_two).mp less
  exact exists_count (by omega)

/-- A number of the format that is not tiny is halved exactly. -/
theorem OnGrid.div_two (h : OnGrid B) (large : 2 ^ (-1021 : Int) ≤ |B|) : OnGrid (B / 2) := by
  obtain ⟨b, f, short, -, most, rfl⟩ := h
  have less : (2 : ℚ) ^ (-1021 : Int) < 2 ^ (53 + f) := large.trans_lt (abs_mul_two_zpow_lt short)
  have := (zpow_lt_zpow_iff_right₀ one_lt_two).mp less
  refine ⟨b, f - 1, short, by omega, by omega, ?_⟩
  rw [zpow_sub_one₀ two_ne_zero, mul_div_assoc]
  rfl

/-- A positive number of the format is the least one, or at least twice as great. -/
theorem OnGrid.eq_least_or_ge (h : OnGrid B) (pos : 0 < B) :
    B = 2 ^ (-1074 : Int) ∨ 2 ^ (-1073 : Int) ≤ B := by
  obtain ⟨b, f, -, least, -, rfl⟩ := h
  obtain ⟨K, hK⟩ := exists_count (b := b) least
  rw [hK] at pos ⊢
  have unit : (0 : ℚ) < 2 ^ (-1074 : Int) := zpow_pos two_pos _
  have hpos : 0 < K := by exact_mod_cast pos_of_mul_pos_left pos unit.le
  obtain rfl | more : K = 1 ∨ 2 ≤ K := by omega
  · exact .inl (by rw [Int.cast_one, one_mul])
  · have more : (2 : ℚ) ≤ K := by exact_mod_cast more
    rw [show (-1073 : Int) = 1 + -1074 from rfl, zpow_add₀ two_ne_zero, zpow_one]
    exact .inr (mul_le_mul_of_nonneg_right more unit.le)

/-- The integer part of a number of the format is one, too. -/
theorem OnGrid.floor (h : OnGrid B) (nonneg : 0 ≤ B) : OnGrid ⌊B⌋₊ := by
  obtain ⟨b, f, short, least, most, rfl⟩ := h
  rcases le_or_gt 0 f with whole | fraction
  · obtain ⟨K, hK⟩ := exists_count (b := b) whole
    rw [zpow_zero, mul_one] at hK
    have hnonneg : 0 ≤ K := by exact_mod_cast nonneg.trans_eq hK
    obtain ⟨n, rfl⟩ := Int.eq_ofNat_of_zero_le hnonneg
    exact ⟨b, f, short, least, most, by rw [hK, Int.cast_natCast, Nat.floor_natCast]⟩
  · refine ⟨⌊(b : ℚ) * 2 ^ f⌋₊, 0, ?_, by decide, by decide, by simp⟩
    have unit : (2 : ℚ) ^ f ≤ 1 := zpow_le_one_of_nonpos₀ one_le_two fraction.le
    have hb : (0 : ℚ) ≤ b := nonneg_of_mul_nonneg_left nonneg (zpow_pos two_pos f)
    have le : (⌊(b : ℚ) * 2 ^ f⌋₊ : ℚ) ≤ b :=
      (Nat.floor_le nonneg).trans (mul_le_of_le_one_right hb unit)
    have le : ((⌊(b : ℚ) * 2 ^ f⌋₊ : Nat) : Int) ≤ b := by exact_mod_cast le
    rw [Nat.abs_cast]
    exact le.trans_lt ((le_abs_self b).trans_lt short)

/-- What is written canonically is in range if and only if its exponent is. -/
theorem Canonical.lt_iff (h : Canonical m e) : (m : ℚ) * 2 ^ e < 2 ^ 1024 ↔ e ≤ greatest := by
  have hpow : (2 : ℚ) ^ 1024 = 2 ^ (1024 : Int) := (zpow_natCast 2 1024).symm
  have short : (m : ℚ) < 2 ^ 53 := by exact_mod_cast h.short
  constructor
  · intro less
    by_contra! more
    unfold greatest at more
    have full : (2 : ℚ) ^ 52 ≤ m := by exact_mod_cast h.full.resolve_right (by omega)
    have : (2 : ℚ) ^ 1024 ≤ m * 2 ^ e := calc
      (2 : ℚ) ^ 1024 = 2 ^ (1024 : Int) := hpow
      _ ≤ 2 ^ ((52 : Nat) + e) := zpow_le_zpow_right₀ one_le_two (by push_cast; omega)
      _ = 2 ^ 52 * 2 ^ e := (two_pow_mul 52 e).symm
      _ ≤ m * 2 ^ e := mul_le_mul_of_nonneg_right full (zpow_pos two_pos e).le
    exact absurd less this.not_gt
  · intro most
    unfold greatest at most
    calc (m : ℚ) * 2 ^ e < 2 ^ 53 * 2 ^ e := mul_lt_mul_of_pos_right short (zpow_pos two_pos e)
      _ = 2 ^ ((53 : Nat) + e) := two_pow_mul 53 e
      _ ≤ 2 ^ (1024 : Int) := zpow_le_zpow_right₀ one_le_two (by push_cast; omega)
      _ = 2 ^ 1024 := hpow.symm

/-- Of numbers written canonically the one with the greater exponent is greater. -/
theorem mul_lt_of_exponent_lt {m m' : Nat} {e e' : Int} (h : Canonical m e) (h' : Canonical m' e')
    (less : e < e') : (m : ℚ) * 2 ^ e < m' * 2 ^ e' := by
  have hshort : (m : ℚ) < 2 ^ 53 := by exact_mod_cast h.short
  have hfull : (2 : ℚ) ^ 52 ≤ m' := by
    have := h.least
    exact_mod_cast h'.full.resolve_right (by omega)
  calc (m : ℚ) * 2 ^ e < 2 ^ 53 * 2 ^ e := mul_lt_mul_of_pos_right hshort (zpow_pos two_pos e)
    _ = 2 ^ ((53 : Nat) + e) := two_pow_mul 53 e
    _ ≤ 2 ^ ((52 : Nat) + e') := zpow_le_zpow_right₀ one_le_two (by push_cast; omega)
    _ = 2 ^ 52 * 2 ^ e' := (two_pow_mul 52 e').symm
    _ ≤ m' * 2 ^ e' := mul_le_mul_of_nonneg_right hfull (zpow_pos two_pos e').le

theorem Canonical.onOpenGrid (h : Canonical m e) : OnOpenGrid (m * 2 ^ e) := by
  refine ⟨m, e, ?_, h.least, by rw [Int.cast_natCast]⟩
  rw [abs_of_nonneg (Int.natCast_nonneg m)]
  exact_mod_cast h.short

/-- A number with an exponent beyond the greatest is stored as an infinity. -/
theorem stored_finite_of_greatest_lt (s : Sign) (pos : 0 < m) (more : greatest < e) :
    stored (.finite s m e pos) = .infinity s := by
  unfold greatest at more
  rw [stored, pack_finite, if_pos (by omega)]
  cases s <;> rfl

/-- What is written canonically is stored as it is if it is in range. -/
theorem value?_stored_finite (s : Sign) (pos : 0 < m) (h : Canonical m e) :
    value? (stored (.finite s m e pos)) =
      if (m : ℚ) * 2 ^ e < 2 ^ 1024 then some (signed s (m * 2 ^ e)) else none := by
  by_cases most : e ≤ greatest
  · rw [if_pos (h.lt_iff.mpr most), stored_finite pos h most]
    rfl
  · rw [if_neg (mt h.lt_iff.mp most), stored_finite_of_greatest_lt s pos (not_le.mp most)]
    rfl

/-! ## Nearest numbers -/

theorem HasEvenMantissa.neg (h : HasEvenMantissa w) : HasEvenMantissa (-w) := by
  unfold HasEvenMantissa
  rwa [abs_neg]

theorem IsNearest.neg (h : IsNearest v w) : IsNearest (-v) (-w) := by
  have flip (g : ℚ) : |-v - g| = |v - -g| := by
    rw [← abs_neg]
    congr 1
    ring
  refine ⟨h.grid.neg, ?_, ?_⟩
  · intro g hg
    rw [flip, flip, neg_neg]
    exact h.near _ hg.neg
  · intro g hg other equal
    rw [flip, flip, neg_neg] at equal
    exact (h.even _ hg.neg (fun heq => other (by rw [← heq, neg_neg])) equal).neg

theorem IsNearest.signed (s : Sign) (h : IsNearest v w) :
    IsNearest (signed s v) (Binary64.signed s w) := by
  cases s with
  | positive => exact h
  | negative => exact h.neg

/-- A number of the format is its own nearest. -/
theorem isNearest_self (h : OnOpenGrid w) : IsNearest w w := by
  refine ⟨h, fun g _ => ?_, fun g _ other equal => ?_⟩
  · rw [sub_self, abs_zero]
    exact abs_nonneg _
  · rw [sub_self, abs_zero, abs_eq_zero, sub_eq_zero] at equal
    exact absurd equal.symm other

/-- The nearest number does not lie beyond a number of the format. -/
theorem IsNearest.le (h : IsNearest v w) (grid : OnOpenGrid B) (le : v ≤ B) : w ≤ B := by
  have near := h.near B grid
  rw [abs_sub_comm v B, abs_of_nonneg (sub_nonneg.mpr le)] at near
  linarith [neg_abs_le (v - w)]

theorem IsNearest.ge (h : IsNearest v w) (grid : OnOpenGrid B) (ge : B ≤ v) : B ≤ w :=
  neg_le_neg_iff.mp (h.neg.le grid.neg (neg_le_neg ge))

/-- Between numbers with even mantissas there is another. -/
theorem HasEvenMantissa.exists_between {w' : ℚ} (h : HasEvenMantissa w) (h' : HasEvenMantissa w')
    (nonneg : 0 ≤ w) (less : w < w') : ∃ g, OnOpenGrid g ∧ w < g ∧ g < w' := by
  obtain ⟨m, e, canonical, even, hw⟩ := h
  obtain ⟨m', e', canonical', even', hw'⟩ := h'
  rw [abs_of_nonneg nonneg] at hw
  rw [abs_of_nonneg (nonneg.trans less.le)] at hw'
  have exponents : e ≤ e' := by
    by_contra! more
    exact less.not_gt (by rw [hw, hw']; exact mul_lt_of_exponent_lt canonical' canonical more)
  have pos : (0 : ℚ) < 2 ^ e := zpow_pos two_pos e
  -- both count an even number of the smaller unit, so one more than the smaller count is between
  obtain ⟨c, evenCount, hcount⟩ : ∃ c : Nat, Even c ∧ w' = c * 2 ^ e := by
    obtain ⟨n, rfl⟩ : ∃ n : Nat, e' = e + n := ⟨(e' - e).toNat, by omega⟩
    refine ⟨m' * 2 ^ n, even'.mul_right _, ?_⟩
    rw [hw', zpow_add₀ two_ne_zero, zpow_natCast]
    push_cast
    ring
  have counts : m < c := by
    rw [hw, hcount, mul_lt_mul_iff_of_pos_right pos] at less
    exact_mod_cast less
  rw [Nat.even_iff] at even evenCount
  refine ⟨(m + 1 : Nat) * 2 ^ e, ⟨(m + 1 : Nat), e, ?_, canonical.least, by norm_cast⟩, ?_, ?_⟩
  · have := canonical.short
    rw [abs_of_nonneg (Int.natCast_nonneg _)]
    omega
  · rw [hw, mul_lt_mul_iff_of_pos_right pos]
    exact_mod_cast Nat.lt_succ_self m
  · rw [hcount, mul_lt_mul_iff_of_pos_right pos]
    exact_mod_cast (by omega : m + 1 < c)

theorem IsNearest.not_lt {w' : ℚ} (h : IsNearest v w) (h' : IsNearest v w') : ¬ w < w' := by
  intro less
  have equal : |v - w| = |v - w'| := le_antisymm (h.near w' h'.grid) (h'.near w h.grid)
  have middle : v - w = w' - v := by
    rcases abs_eq_abs.mp equal with same | opposite <;> linarith
  have even := h.even w' h'.grid less.ne' equal.symm
  have even' := h'.even w h.grid less.ne equal
  have between : ∃ g, OnOpenGrid g ∧ w < g ∧ g < w' := by
    rcases le_or_gt 0 w with nonneg | neg
    · exact even.exists_between even' nonneg less
    rcases le_or_gt w' 0 with nonpos' | pos'
    · obtain ⟨g, grid, above, below⟩ := even'.neg.exists_between even.neg (neg_nonneg.mpr nonpos')
        (neg_lt_neg less)
      exact ⟨-g, grid.neg, lt_neg_of_lt_neg below, neg_lt_of_neg_lt above⟩
    · exact ⟨0, onOpenGrid_zero, neg, pos'⟩
  obtain ⟨g, grid, above, below⟩ := between
  have nearer : |v - g| < v - w := by
    rw [abs_lt]
    constructor <;> linarith
  have far := h.near g grid
  rw [abs_of_pos (by linarith)] at far
  linarith

/-- There is only one nearest number. -/
theorem IsNearest.unique {w' : ℚ} (h : IsNearest v w) (h' : IsNearest v w') : w = w' :=
  le_antisymm (le_of_not_gt (h'.not_lt h)) (le_of_not_gt (h.not_lt h'))

/-- A count that fits is written with a canonical mantissa, and with an even one if it is even. -/
theorem exists_canonical (few : M ≤ 2 ^ 53) (least : -1074 ≤ t) (full : t = -1074 ∨ 2 ^ 52 ≤ M) :
    ∃ m e, Canonical m e ∧ (Even M → Even m) ∧ (M : ℚ) * 2 ^ t = m * 2 ^ e := by
  rcases few.lt_or_eq with short | rfl
  · exact ⟨M, t, ⟨short, least, full.symm⟩, id, rfl⟩
  · refine ⟨2 ^ 52, t + 1, ⟨by norm_num, by omega, .inl le_rfl⟩, fun _ => by decide, ?_⟩
    rw [zpow_add_one₀ two_ne_zero]
    push_cast
    ring

/-- A number of the format counts whole units, or lies below the first number with all digits. -/
theorem OnOpenGrid.exists_count_or_lt {g : ℚ} (hg : OnOpenGrid g)
    (fine : t = -1074 ∨ 2 ^ 52 * 2 ^ t ≤ v) :
    (∃ K : Int, g = K * 2 ^ t) ∨ 2 ^ 52 * 2 ^ t ≤ v ∧ g < 2 ^ 52 * 2 ^ t := by
  obtain ⟨b, f, short, hf, rfl⟩ := hg
  by_cases coarse : t ≤ f
  · exact .inl (exists_count coarse)
  · refine .inr ⟨fine.resolve_left (by omega), ?_⟩
    calc (b : ℚ) * 2 ^ f < 2 ^ (53 + f) := (le_abs_self _).trans_lt (abs_mul_two_zpow_lt short)
      _ ≤ 2 ^ ((52 : Nat) + t) := zpow_le_zpow_right₀ one_le_two (by push_cast; omega)
      _ = 2 ^ 52 * 2 ^ t := (two_pow_mul 52 t).symm

/-- Distances are counted in units, too. -/
theorem abs_sub_mul_unit (v x : ℚ) (t : Int) : |v - x * 2 ^ t| = |v / 2 ^ t - x| * 2 ^ t := by
  have pos : (0 : ℚ) < 2 ^ t := zpow_pos two_pos t
  rw [← abs_of_pos pos, ← abs_mul, abs_of_pos pos, sub_mul, div_mul_cancel₀ _ pos.ne']

/-- A number below the first one with all digits is farther than the nearest count. -/
theorem Counts.abs_sub_lt {g : ℚ} (counts : Counts M (v / 2 ^ t)) (above : 2 ^ 52 * 2 ^ t ≤ v)
    (below : g < 2 ^ 52 * 2 ^ t) : |v - M * 2 ^ t| < |v - g| :=
  calc |v - M * 2 ^ t| = |v / 2 ^ t - M| * 2 ^ t := abs_sub_mul_unit v M t
    _ ≤ |v / 2 ^ t - (2 ^ 52 : Int)| * 2 ^ t :=
      mul_le_mul_of_nonneg_right (counts.abs_sub_le _) (zpow_pos two_pos t).le
    _ = |v - 2 ^ 52 * 2 ^ t| := by
      rw [← abs_sub_mul_unit]
      norm_cast
    _ = v - 2 ^ 52 * 2 ^ t := abs_of_nonneg (sub_nonneg.mpr above)
    _ < v - g := sub_lt_sub_left below v
    _ ≤ |v - g| := le_abs_self _

/-- Counting to the nearest count leads to the nearest number. -/
theorem Counts.isNearest (counts : Counts M (v / 2 ^ t)) (few : M ≤ 2 ^ 53) (least : -1074 ≤ t)
    (fine : t = -1074 ∨ 2 ^ 52 * 2 ^ t ≤ v) : IsNearest v (M * 2 ^ t) := by
  have pos : (0 : ℚ) < 2 ^ t := zpow_pos two_pos t
  have long (h : (2 : ℚ) ^ 52 * 2 ^ t ≤ v) : (((2 ^ 52 : Int)) : ℚ) ≤ v / 2 ^ t := by
    rw [le_div_iff₀ pos]
    exact_mod_cast h
  have full : t = -1074 ∨ 2 ^ 52 ≤ M := fine.imp_right fun h => by
    exact_mod_cast counts.ge_of_ge (long h)
  obtain ⟨m, e, canonical, even, hvalue⟩ := exists_canonical few least full
  refine ⟨hvalue ▸ canonical.onOpenGrid, ?_, ?_⟩
  · intro g hg
    rcases hg.exists_count_or_lt fine with ⟨K, rfl⟩ | ⟨above, below⟩
    · rw [abs_sub_mul_unit, abs_sub_mul_unit]
      exact mul_le_mul_of_nonneg_right (counts.abs_sub_le K) pos.le
    · exact (counts.abs_sub_lt above below).le
  · intro g hg other equal
    rcases hg.exists_count_or_lt fine with ⟨K, rfl⟩ | ⟨above, below⟩
    · rw [abs_sub_mul_unit, abs_sub_mul_unit, mul_left_inj' pos.ne'] at equal
      have hK : K ≠ M := fun heq => other (by rw [heq, Int.cast_natCast])
      refine ⟨m, e, canonical, even (counts.even_of_abs_sub_eq hK equal), ?_⟩
      rw [hvalue, abs_of_nonneg (by positivity)]
    · exact absurd equal (counts.abs_sub_lt above below).ne'

/-! ## What is stored -/

theorem value?_stored_place (s : Sign) (few : M ≤ 2 ^ 53) (least : -1074 ≤ t)
    (full : t = -1074 ∨ 2 ^ 52 ≤ M) :
    value? (stored (place s M t)) =
      if (M : ℚ) * 2 ^ t < 2 ^ 1024 then some (signed s (M * 2 ^ t)) else none := by
  unfold place
  by_cases hzero : M = 0
  · rw [dif_pos hzero, stored_zero, hzero, Nat.cast_zero, zero_mul, signed_zero,
      if_pos (by positivity)]
    rfl
  rw [dif_neg hzero]
  by_cases hfull : M = 2 ^ 53
  · have hvalue : (M : ℚ) * 2 ^ t = (2 ^ 52 : Nat) * 2 ^ (t + 1) := by
      rw [hfull, zpow_add_one₀ two_ne_zero]
      push_cast
      ring
    rw [if_pos hfull, hvalue]
    exact value?_stored_finite s (by decide) ⟨by decide, by omega, .inl le_rfl⟩
  · rw [if_neg hfull]
    exact value?_stored_finite s _ ⟨by omega, least, full.symm⟩

theorem nearest_zero (s : Sign) : Nearest (.zero s) 0 := by
  refine ⟨0, isNearest_self onOpenGrid_zero, ?_⟩
  rw [stored_zero, if_pos (by rw [abs_zero]; positivity)]
  rfl

/-- The nearest number is stored, if it is in range. -/
theorem nearest_roundWithAccuracy (s : Sign) {m : Nat} {e : Int} {acc : Accuracy} {v : ℚ}
    (holds : Holds (.ofMantissaAndAccuracy m acc) (v / 2 ^ e)) (fine : e ≤ unit m e) :
    Nearest (roundWithAccuracy Format.binary64 s m e acc) (signed s v) := by
  obtain ⟨M, counts, few, small, hplace⟩ := roundWithAccuracy_eq_place s holds fine
  have least := unit_least m e
  have full : unit m e = -1074 ∨ 2 ^ 52 ≤ M := by
    refine small.imp_right fun h => ?_
    have hM : (2 ^ 52 : Int) ≤ M := counts.ge_of_ge (by
      rw [le_div_iff₀ (zpow_pos two_pos _)]
      exact_mod_cast h)
    exact_mod_cast hM
  have nonneg : (0 : ℚ) ≤ M * 2 ^ unit m e := by positivity
  refine ⟨signed s (M * 2 ^ unit m e), (counts.isNearest few least small).signed s, ?_⟩
  rw [hplace, value?_stored_place s few least full, abs_signed, abs_of_nonneg nonneg]

/-- A rounded number keeps within bounds that are numbers of the format. -/
theorem Nearest.rounds (h : Nearest u v) : Rounds u v := by
  obtain ⟨w, nearest, hstored⟩ := h
  intro lo hi hlo hhi above below
  have hlow := nearest.ge hlo.onOpenGrid above
  have hhigh := nearest.le hhi.onOpenGrid below
  have range : |w| < 2 ^ 1024 :=
    abs_lt.mpr ⟨(abs_lt.mp hlo.abs_lt).1.trans_le hlow, hhigh.trans_lt (abs_lt.mp hhi.abs_lt).2⟩
  exact ⟨w, by rw [hstored, if_pos range], hlow, hhigh⟩

/-! ## Rounding -/

theorem cut_zero (n : Nat) : cut 0 .exact n = ⟨0, false, false⟩ := by
  show n.repeat ExtendedMantissa.shiftRightOne ⟨0, false, false⟩ = _
  induction n with
  | zero => rfl
  | succ n ih =>
    rw [Nat.repeat, ih]
    rfl

/-- Nothing is rounded to nothing. -/
theorem roundWithAccuracy_zero (s : Sign) (e : Int) :
    roundWithAccuracy Format.binary64 s 0 e .exact = .zero s := by
  unfold roundWithAccuracy
  rw [shiftToTargetExponent_eq, cut_zero]
  dsimp only
  rw [show (⟨0, false, false⟩ : ExtendedMantissa).roundedMantissa = 0 from rfl,
    shiftToTargetExponent_eq, cut_zero]
  rfl

theorem log2_shiftLeft {m : Nat} (pos : 0 < m) (n : Nat) : (m <<< n).log2 = m.log2 + n := by
  rw [Nat.shiftLeft_eq]
  refine (Nat.log2_eq_iff (by positivity)).mpr ⟨?_, ?_⟩
  · rw [pow_add]
    exact Nat.mul_le_mul_right _ (Nat.log2_self_le pos.ne')
  · rw [add_right_comm, pow_add _ _ n]
    exact Nat.mul_lt_mul_of_pos_right Nat.lt_log2_self (by positivity)

/-- Writing a number with a smaller exponent. -/
theorem shiftLeft_mul (m n : Nat) (e : Int) : ((m <<< n : Nat) : ℚ) * 2 ^ (e - n) = m * 2 ^ e := by
  rw [Nat.shiftLeft_eq]
  push_cast
  rw [mul_assoc, two_pow_mul, add_sub_cancel]

theorem nearest_round (s : Sign) (m : Nat) (e : Int) :
    Nearest (UnpackedFloat.round Format.binary64 s m e) (signed s (m * 2 ^ e)) := by
  rcases Nat.eq_zero_or_pos m with rfl | pos
  · have hround : UnpackedFloat.round Format.binary64 s 0 e = .zero s := by
      simp only [UnpackedFloat.round, decreaseExponent, Nat.zero_shiftLeft]
      exact roundWithAccuracy_zero s _
    rw [hround, Nat.cast_zero, zero_mul, signed_zero]
    exact nearest_zero s
  · set n := (e - unit m e).toNat with hn
    have hround : UnpackedFloat.round Format.binary64 s m e =
        roundWithAccuracy Format.binary64 s (m <<< n) (e - n) .exact := rfl
    have hunit : unit (m <<< n) (e - n) = unit m e := by
      rw [unit_eq, unit_eq, log2_shiftLeft pos]
      push_cast
      omega
    rw [hround]
    refine nearest_roundWithAccuracy s ?_ (by omega)
    rw [← shiftLeft_mul m n e, mul_div_cancel_right₀ _ (zpow_ne_zero _ two_ne_zero)]
    exact holds_exact _

theorem rounds_round (s : Sign) (m : Nat) (e : Int) :
    Rounds (UnpackedFloat.round Format.binary64 s m e) (signed s (m * 2 ^ e)) :=
  (nearest_round s m e).rounds

/-- A sum of mantissas is rounded. -/
theorem nearest_normalize (m : Int) (e : Int) (s : Sign) :
    Nearest (UnpackedFloat.normalize Format.binary64 m e s) (m * 2 ^ e) := by
  unfold UnpackedFloat.normalize
  rcases lt_trichotomy m 0 with neg | rfl | pos
  · rw [show compare m 0 = .lt from compare_lt_iff_lt.mpr neg]
    have habs : (((-m).toNat : Nat) : ℚ) = -m := by
      exact_mod_cast Int.toNat_of_nonneg (a := -m) (by omega)
    have h := nearest_round .negative (-m).toNat e
    rw [habs, signed, neg_mul, neg_neg] at h
    exact h
  · rw [Int.cast_zero, zero_mul]
    exact nearest_zero s
  · rw [show compare m 0 = .gt from compare_gt_iff_gt.mpr pos]
    have habs : ((m.toNat : Nat) : ℚ) = m := by
      exact_mod_cast Int.toNat_of_nonneg pos.le
    have h := nearest_round .positive m.toNat e
    rw [habs, signed] at h
    exact h

end Binary64

end Calculator
