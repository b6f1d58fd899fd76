import Calculator.Proofs.Binary64.Rank

/-!
# Arithmetic and negation

Rounding does not favour a sign: a negated factor negates the product, a negated operand the quotient,
and negated summands the sum, unless that is zero. A zero sum has the sign of its summands only if they
agree, so sums are negated as numbers: two numbers are opposite if one is the negation of the other, or
if both are zero.

Results:
1. `neg_mul_eq`, `mul_neg_eq`, `neg_div_eq`, `div_neg_eq`: negated factors and operands.
2. `Opposite.add`, `Opposite.sub`, `Opposite.mul`: sums, differences and products of opposite numbers.
3. `opposite_sub`: a difference the other way round.
4. `Number.less_neg`, `Number.less_abs_neg`: comparisons of negated numbers and of magnitudes.
-/

namespace Calculator

open Float.Model UnpackedFloat

namespace Binary64

/-! ## Definitions -/

/-- One number is the negation of the other, but for the sign of a zero. -/
inductive Opposite (x : Float) : Float → Prop
  | neg : Opposite x (-x)
  | zero {y : Float} (hx : valueOf? x = some 0) (hy : valueOf? y = some 0) : Opposite x y

/-- Where the negation stands of what stands here. -/
def Rank.opposite : Rank → Rank
  | none => ⊤
  | some none => ⊥
  | some (some v) => ((-v : ℚ) : Rank)

variable {x x' y y' : Float} {u w : UnpackedFloat} {s : Sign} {v : ℚ}

/-! ## Negation -/

theorem unpacked_neg_neg (u : UnpackedFloat) : u.neg.neg = u := by
  cases u with
  | notANumber => rfl
  | infinity s | zero s | finite s => cases s <;> rfl

theorem neg_neg_eq (x : Float) : - -x = x := by
  apply eq_of_unpack_eq
  rw [unpack_neg, unpack_neg, unpacked_neg_neg]

theorem unpack_abs (x : Float) : x.abs.toModel.unpack = x.toModel.unpack.abs :=
  stored_eq (isStored_abs (isStored_unpack _))

theorem abs_neg_eq (x : Float) : (-x).abs = x.abs := by
  apply eq_of_unpack_eq
  rw [unpack_abs, unpack_abs, unpack_neg]
  cases x.toModel.unpack <;> rfl

theorem isNaN_neg (x : Float) : (-x).isNaN = x.isNaN := by
  show (-x).toModel.unpack.isNaN = x.toModel.unpack.isNaN
  rw [unpack_neg]
  cases x.toModel.unpack <;> rfl

/-! ## Products and quotients -/

theorem unpack_mul (x y : Float) :
    (x * y).toModel.unpack =
      stored (UnpackedFloat.mul Format.binary64 x.toModel.unpack y.toModel.unpack) := rfl

theorem unpack_div (x y : Float) :
    (x / y).toModel.unpack =
      stored (UnpackedFloat.div Format.binary64 x.toModel.unpack y.toModel.unpack) := rfl

theorem sign_neg_mul (s s' : Sign) : -s * s' = -(s * s') := by cases s <;> cases s' <;> rfl

theorem sign_mul_neg (s s' : Sign) : s * -s' = -(s * s') := by cases s <;> cases s' <;> rfl

theorem sign_neg_div (s s' : Sign) : -s / s' = -(s / s') := by cases s <;> cases s' <;> rfl

theorem sign_div_neg (s s' : Sign) : s / -s' = -(s / s') := by cases s <;> cases s' <;> rfl

theorem roundWithAccuracy_neg (s : Sign) (m : Nat) (e : Int) (acc : Accuracy) :
    roundWithAccuracy Format.binary64 (-s) m e acc =
      (roundWithAccuracy Format.binary64 s m e acc).neg := by
  unfold roundWithAccuracy
  dsimp only
  split <;> rfl

/-- A negated factor negates the product. -/
theorem unpacked_mul_neg (u w : UnpackedFloat) :
    UnpackedFloat.mul Format.binary64 u.neg w = (UnpackedFloat.mul Format.binary64 u w).neg ∧
      UnpackedFloat.mul Format.binary64 u w.neg = (UnpackedFloat.mul Format.binary64 u w).neg := by
  cases u with
  | notANumber => cases w <;> exact ⟨rfl, rfl⟩
  | infinity s | zero s =>
    cases w with
    | notANumber => exact ⟨rfl, rfl⟩
    | infinity s' | zero s' | finite s' => cases s <;> cases s' <;> exact ⟨rfl, rfl⟩
  | finite s m e pos =>
    cases w with
    | notANumber => exact ⟨rfl, rfl⟩
    | infinity s' | zero s' => cases s <;> cases s' <;> exact ⟨rfl, rfl⟩
    | finite s' m' e' pos' =>
      constructor
      · show roundWithAccuracy _ (-s * s') _ _ _ = (roundWithAccuracy _ (s * s') _ _ _).neg
        rw [sign_neg_mul, roundWithAccuracy_neg]
      · show roundWithAccuracy _ (s * -s') _ _ _ = (roundWithAccuracy _ (s * s') _ _ _).neg
        rw [sign_mul_neg, roundWithAccuracy_neg]

theorem neg_mul_eq (x y : Float) : -x * y = -(x * y) := by
  apply eq_of_unpack_eq
  rw [unpack_mul, unpack_neg, unpack_neg, (unpacked_mul_neg _ _).1, stored_neg, unpack_mul]

theorem mul_neg_eq (x y : Float) : x * -y = -(x * y) := by
  apply eq_of_unpack_eq
  rw [unpack_mul, unpack_neg, unpack_neg, (unpacked_mul_neg _ _).2, stored_neg, unpack_mul]

theorem neg_mul_neg_eq (x y : Float) : -x * -y = x * y := by
  rw [neg_mul_eq, mul_neg_eq, neg_neg_eq]

/-- A negated operand negates the quotient. -/
theorem unpacked_div_neg (u w : UnpackedFloat) :
    UnpackedFloat.div Format.binary64 u.neg w = (UnpackedFloat.div Format.binary64 u w).neg ∧
      UnpackedFloat.div Format.binary64 u w.neg = (UnpackedFloat.div Format.binary64 u w).neg := by
  cases u with
  | notANumber => cases w <;> exact ⟨rfl, rfl⟩
  | infinity s | zero s =>
    cases w with
    | notANumber => exact ⟨rfl, rfl⟩
    | infinity s' | zero s' | finite s' => cases s <;> cases s' <;> exact ⟨rfl, rfl⟩
  | finite s m e pos =>
    cases w with
    | notANumber => exact ⟨rfl, rfl⟩
    | infinity s' | zero s' => cases s <;> cases s' <;> exact ⟨rfl, rfl⟩
    | finite s' m' e' pos' =>
      constructor
      · show roundWithAccuracy _ (-s / s') _ _ _ = (roundWithAccuracy _ (s / s') _ _ _).neg
        rw [sign_neg_div, roundWithAccuracy_neg]
      · show roundWithAccuracy _ (s / -s') _ _ _ = (roundWithAccuracy _ (s / s') _ _ _).neg
        rw [sign_div_neg, roundWithAccuracy_neg]

theorem neg_div_eq (x y : Float) : -x / y = -(x / y) := by
  apply eq_of_unpack_eq
  rw [unpack_div, unpack_neg, unpack_neg, (unpacked_div_neg _ _).1, stored_neg, unpack_div]

theorem div_neg_eq (x y : Float) : x / -y = -(x / y) := by
  apply eq_of_unpack_eq
  rw [unpack_div, unpack_neg, unpack_neg, (unpacked_div_neg _ _).2, stored_neg, unpack_div]

/-! ## Sums -/

theorem unpack_add (x y : Float) :
    (x + y).toModel.unpack =
      stored (UnpackedFloat.add Format.binary64 x.toModel.unpack y.toModel.unpack) := rfl

theorem sub_eq_add_neg_eq (x y : Float) : x - y = x + -y := by
  apply eq_of_unpack_eq
  rw [unpack_add, unpack_neg, ← sub_eq_add]
  rfl

/-- The sign of the count goes over to the number. -/
theorem normalize_neg {n : Int} (nonzero : n ≠ 0) (e : Int) (s : Sign) :
    UnpackedFloat.normalize Format.binary64 (-n) e s =
      (UnpackedFloat.normalize Format.binary64 n e s).neg := by
  unfold UnpackedFloat.normalize
  rcases lt_or_gt_of_ne nonzero with neg | pos
  · rw [compare_gt_iff_gt.mpr (neg_pos.mpr neg), compare_lt_iff_lt.mpr neg]
    exact roundWithAccuracy_neg .negative _ _ _
  · rw [compare_lt_iff_lt.mpr (neg_neg_of_pos pos), compare_gt_iff_gt.mpr pos, neg_neg]
    exact roundWithAccuracy_neg .positive _ _ _

/-- Negated summands negate the sum, or it is zero. -/
theorem unpacked_add_neg (u w : UnpackedFloat) :
    UnpackedFloat.add Format.binary64 u.neg w.neg = (UnpackedFloat.add Format.binary64 u w).neg ∨
      ∃ s s', UnpackedFloat.add Format.binary64 u w = .zero s ∧
        UnpackedFloat.add Format.binary64 u.neg w.neg = .zero s' := by
  cases u with
  | notANumber => exact .inl rfl
  | infinity s =>
    cases w with
    | infinity s' => cases s <;> cases s' <;> exact .inl rfl
    | notANumber | zero | finite => exact .inl rfl
  | zero s =>
    cases w with
    | zero s' => cases s <;> cases s' <;> exact .inr ⟨_, _, rfl, rfl⟩
    | notANumber | infinity | finite => exact .inl rfl
  | finite s m e pos =>
    cases w with
    | notANumber | infinity | zero => exact .inl rfl
    | finite s' m' e' pos' =>
      show UnpackedFloat.normalize _ ((-s).apply _ + (-s').apply _) _ _ =
          (UnpackedFloat.normalize _ (s.apply _ + s'.apply _) _ _).neg ∨
        ∃ t t', UnpackedFloat.normalize _ (s.apply _ + s'.apply _) _ _ = .zero t ∧
          UnpackedFloat.normalize _ ((-s).apply _ + (-s').apply _) _ _ = .zero t'
      rw [sign_apply_neg, sign_apply_neg, ← neg_add]
      by_cases zero : s.apply (m <<< (e - min e e').toNat : Nat) +
          s'.apply (m' <<< (e' - min e e').toNat : Nat) = 0
      · refine .inr ⟨.positive, .positive, ?_, ?_⟩
        · exact congrArg (UnpackedFloat.normalize _ · _ _) zero
        · exact congrArg (fun n => UnpackedFloat.normalize _ (-n) _ _) zero
      · exact .inl (normalize_neg zero _ _)

theorem unpacked_add_comm (u w : UnpackedFloat) :
    UnpackedFloat.add Format.binary64 u w = UnpackedFloat.add Format.binary64 w u := by
  cases u with
  | notANumber => cases w <;> rfl
  | infinity s =>
    cases w with
    | infinity s' => cases s <;> cases s' <;> rfl
    | notANumber | zero | finite => rfl
  | zero s =>
    cases w with
    | zero s' => cases s <;> cases s' <;> rfl
    | notANumber | infinity | finite => rfl
  | finite s m e pos =>
    cases w with
    | notANumber | infinity | zero => rfl
    | finite s' m' e' pos' =>
      show UnpackedFloat.normalize _ (s.apply (m <<< (e - min e e').toNat : Nat) +
          s'.apply (m' <<< (e' - min e e').toNat : Nat)) (min e e') _ =
        UnpackedFloat.normalize _ (s'.apply (m' <<< (e' - min e' e).toNat : Nat) +
          s.apply (m <<< (e - min e' e).toNat : Nat)) (min e' e) _
      rw [min_comm e e', add_comm]

theorem add_comm_eq (x y : Float) : x + y = y + x := by
  apply eq_of_unpack_eq
  rw [unpack_add, unpack_add, unpacked_add_comm]

/-- A zero makes no difference to a sum that is not zero. -/
theorem add_eq_of_zero (hx : valueOf? x = some 0) (hy : valueOf? y ≠ some 0) : x + y = y := by
  obtain ⟨s, hs⟩ := exists_zero hx
  have hstored : stored y.toModel.unpack = y.toModel.unpack := stored_eq (isStored_unpack _)
  apply eq_of_unpack_eq
  rw [unpack_add, hs]
  unfold valueOf? at hy
  generalize y.toModel.unpack = u at hy hstored ⊢
  cases u with
  | zero => exact absurd rfl hy
  | notANumber | infinity | finite => exact hstored

theorem add_eq_zero (hx : valueOf? x = some 0) (hy : valueOf? y = some 0) :
    valueOf? (x + y) = some 0 := by
  have near := near_add hx hy
  rw [add_zero] at near
  exact near.valueOf?_eq onGrid_zero

/-! ## Opposite numbers -/

theorem valueOf?_neg_eq_zero_iff : valueOf? (-x) = some 0 ↔ valueOf? x = some 0 := by
  constructor
  · intro h
    have := valueOf?_neg h
    rwa [neg_neg_eq, neg_zero] at this
  · intro h
    have := valueOf?_neg h
    rwa [neg_zero] at this

theorem opposite_of_isNaN (hx : x.isNaN = true) (hy : y.isNaN = true) : Opposite x y := by
  rw [eq_of_isNaN hy ((isNaN_neg x).trans hx)]
  exact .neg

namespace Opposite

theorem negated (h : Opposite x x') : Opposite (-x) (-x') := by
  cases h with
  | neg => exact .neg
  | zero hx hx' => exact .zero (valueOf?_neg_eq_zero_iff.mpr hx) (valueOf?_neg_eq_zero_iff.mpr hx')

theorem zero_add (hx : valueOf? x = some 0) (hx' : valueOf? x' = some 0) (h : Opposite y y') :
    Opposite (x + y) (x' + y') := by
  cases h with
  | zero hy hy' => exact .zero (add_eq_zero hx hy) (add_eq_zero hx' hy')
  | neg =>
    by_cases hy : valueOf? y = some 0
    · exact .zero (add_eq_zero hx hy) (add_eq_zero hx' (valueOf?_neg_eq_zero_iff.mpr hy))
    · rw [add_eq_of_zero hx hy, add_eq_of_zero hx' (mt valueOf?_neg_eq_zero_iff.mp hy)]
      exact .neg

theorem add (h : Opposite x x') (h' : Opposite y y') : Opposite (x + y) (x' + y') := by
  cases h with
  | zero hx hx' => exact zero_add hx hx' h'
  | neg =>
    cases h' with
    | zero hy hy' =>
      rw [add_comm_eq x, add_comm_eq (-x)]
      exact zero_add hy hy' .neg
    | neg =>
      have sums := unpacked_add_neg x.toModel.unpack y.toModel.unpack
      rw [← unpack_neg, ← unpack_neg] at sums
      rcases sums with negated | ⟨s, s', hs, hs'⟩
      · have sum : -x + -y = -(x + y) := by
          apply eq_of_unpack_eq
          rw [unpack_add, negated, stored_neg, unpack_neg, unpack_add]
        rw [sum]
        exact .neg
      · have value {a b : Float} {t : Sign}
            (h : UnpackedFloat.add Format.binary64 a.toModel.unpack b.toModel.unpack = .zero t) :
            valueOf? (a + b) = some 0 := by
          rw [valueOf?, unpack_add, h, stored_zero]
          rfl
        exact .zero (value hs) (value hs')

theorem sub (h : Opposite x x') (h' : Opposite y y') : Opposite (x - y) (x' - y') := by
  rw [sub_eq_add_neg_eq, sub_eq_add_neg_eq]
  exact h.add h'.negated

/-- The other factor may be any number, also what makes the products NaN. -/
theorem mul (x : Float) (h : Opposite y y') : Opposite (x * y) (x * y') := by
  cases h with
  | neg =>
    rw [mul_neg_eq]
    exact .neg
  | zero hy hy' =>
    obtain ⟨s, hs⟩ := exists_zero hy
    obtain ⟨s', hs'⟩ := exists_zero hy'
    have product {z : Float} {t : Sign} (hz : z.toModel.unpack = .zero t) :
        (x * z).toModel.unpack =
          stored (UnpackedFloat.mul Format.binary64 x.toModel.unpack (.zero t)) := by
      rw [unpack_mul, hz]
    have hproduct := product hs
    have hproduct' := product hs'
    generalize x.toModel.unpack = u at hproduct hproduct'
    cases u with
    | notANumber | infinity =>
      exact opposite_of_isNaN (congrArg UnpackedFloat.isNaN (hproduct.trans stored_notANumber))
        (congrArg UnpackedFloat.isNaN (hproduct'.trans stored_notANumber))
    | zero | finite =>
      exact .zero (congrArg value? (hproduct.trans (stored_zero _)))
        (congrArg value? (hproduct'.trans (stored_zero _)))

end Opposite

theorem opposite_sub (x y : Float) : Opposite (x - y) (y - x) := by
  have hy : Opposite (-y) y := by
    have := Opposite.neg (x := -y)
    rwa [neg_neg_eq] at this
  rw [sub_eq_add_neg_eq, sub_eq_add_neg_eq, add_comm_eq y]
  exact Opposite.add .neg hy

/-! ## Comparisons -/

namespace Rank

theorem opposite_lt_iff (r s : Rank) : r.opposite < s.opposite ↔ s < r := by
  have above (v : ℚ) : (v : Rank) < ⊤ := coe_lt_top v
  have below (v : ℚ) : ⊥ < (v : Rank) := WithBot.bot_lt_coe _
  have coe (v w : ℚ) : (v : Rank) < (w : Rank) ↔ v < w :=
    WithBot.coe_lt_coe.trans WithTop.coe_lt_coe
  match r, s with
  | none, none => exact iff_of_false (lt_irrefl _) (lt_irrefl _)
  | none, some none => exact iff_of_false not_top_lt not_lt_bot
  | none, some (some w) => exact iff_of_false not_top_lt not_lt_bot
  | some none, none => exact iff_of_true bot_lt_top bot_lt_top
  | some none, some none => exact iff_of_false (lt_irrefl _) (lt_irrefl _)
  | some none, some (some w) => exact iff_of_true (below (-w)) (above w)
  | some (some v), none => exact iff_of_true (above (-v)) (below v)
  | some (some v), some none => exact iff_of_false not_lt_bot not_top_lt
  | some (some v), some (some w) => exact (coe (-v) (-w)).trans (neg_lt_neg_iff.trans (coe w v).symm)

theorem opposite_opposite (r : Rank) : r.opposite.opposite = r := by
  match r with
  | none | some none => rfl
  | some (some v) => exact congrArg (fun v : ℚ => (v : Rank)) (neg_neg v)

theorem compare_opposite (r s : Rank) : compare r.opposite s.opposite = compare s r := by
  rcases lt_trichotomy s r with less | rfl | more
  · rw [compare_lt_iff_lt.mpr less, compare_lt_iff_lt.mpr ((opposite_lt_iff r s).mpr less)]
  · rw [compare_eq_iff_eq.mpr rfl, compare_eq_iff_eq.mpr rfl]
  · rw [compare_gt_iff_gt.mpr more, compare_gt_iff_gt.mpr ((opposite_lt_iff s r).mpr more)]

end Rank

theorem rank?_neg (u : UnpackedFloat) : rank? u.neg = (rank? u).map Rank.opposite := by
  cases u with
  | notANumber => rfl
  | infinity s => cases s <;> rfl
  | zero s => exact congrArg some (congrArg (fun v : ℚ => (v : Rank)) neg_zero.symm)
  | finite s m e pos =>
    cases s with
    | positive => rfl
    | negative => exact congrArg some (congrArg (fun v : ℚ => (v : Rank)) (neg_neg _).symm)

/-- Zero is its own negation. -/
theorem beq_neg_zero (x : Float) : (-x == 0.0) = (x == 0.0) := by
  cases hx : valueOf? x with
  | some v =>
    rw [Bool.eq_iff_iff, beq_iff (valueOf?_neg hx) valueOf?_zero, beq_iff hx valueOf?_zero]
    exact neg_eq_zero
  | none =>
    have hneg : valueOf? (-x) = none := by
      by_contra some
      obtain ⟨v, hv⟩ := Option.ne_none_iff_exists'.mp some
      have := valueOf?_neg hv
      rw [neg_neg_eq, hx] at this
      cases this
    rw [beq_eq_false hx valueOf?_zero, beq_eq_false hneg valueOf?_zero]

end Binary64

namespace Number

open Binary64

variable {x : Float}

theorem rank?_neg (a : Number) : a.neg.rank? = a.rank?.map Rank.opposite := by
  cases a with
  | int n => exact congrArg some (congrArg (fun v : ℚ => (v : Rank)) (Int.cast_neg n))
  | real x =>
    show Binary64.rank? (-x).toModel.unpack = _
    rw [unpack_neg, Binary64.rank?_neg]
    rfl

/-- Negation turns comparisons around. -/
theorem less_neg (a b : Number) : a.neg.less b.neg = b.less a := by
  unfold Number.less
  rw [compare_rank, compare_rank, rank?_neg, rank?_neg]
  cases a.rank? with
  | none => cases b.rank? <;> rfl
  | some r =>
    cases b.rank? with
    | none => rfl
    | some s => simp only [Option.map_some, Option.bind_some, Rank.compare_opposite]

theorem rank?_abs (a : Number) : a.abs.rank? = a.rank?.map fun r => max r r.opposite := by
  have zero : Rank.opposite ((0 : ℚ) : Rank) = ((0 : ℚ) : Rank) :=
    congrArg (fun v : ℚ => (v : Rank)) neg_zero
  have hzero : (int 0).rank? = some ((0 : ℚ) : Rank) := by rw [rank?, Int.cast_zero]
  unfold Number.abs
  cases hr : a.rank? with
  | none =>
    have hneg : a.neg.rank? = none := by rw [rank?_neg, hr, Option.map_none]
    split <;> assumption
  | some r =>
    have test : (int 0).atMost a = true ↔ ((0 : ℚ) : Rank) ≤ r := by
      rw [atMost_iff_rank, hzero, hr]
      simp
    rw [Option.map_some]
    rcases le_or_gt ((0 : ℚ) : Rank) r with nonneg | neg
    · have below : r.opposite ≤ ((0 : ℚ) : Rank) :=
        zero ▸ le_of_not_gt (mt (Rank.opposite_lt_iff _ _).mp nonneg.not_gt)
      rw [if_pos (test.mpr nonneg), hr, max_eq_left (below.trans nonneg)]
    · have above : ((0 : ℚ) : Rank) < r.opposite :=
        zero ▸ (Rank.opposite_lt_iff _ _).mpr neg
      rw [if_neg (mt test.mp neg.not_ge), rank?_neg, hr, max_eq_right (neg.trans above).le,
        Option.map_some]

/-- A number and its negation have magnitudes of the same standing. -/
theorem less_abs_neg (a : Number) (x : Float) :
    a.less (real (-x)).abs = a.less (real x).abs := by
  have hneg : (real (-x)).rank? = (real x).rank?.map Rank.opposite := rank?_neg (real x)
  have same : (real (-x)).abs.rank? = (real x).abs.rank? := by
    rw [rank?_abs, rank?_abs, hneg]
    cases (real x).rank? with
    | none => rfl
    | some r => simp only [Option.map_some, Rank.opposite_opposite, max_comm]
  unfold Number.less
  rw [compare_rank, compare_rank, same]

/-- A number lies beyond one where its negation lies beyond minus one. -/
theorem less_one_neg (x : Float) :
    (real (-x)).less (int (-1)) = (int 1).less (real x) ∧
      (int 1).less (real (-x)) = (real x).less (int (-1)) :=
  ⟨less_neg (real x) (int 1), by simpa only [neg, neg_neg] using less_neg (int (-1)) (real x)⟩

theorem exists_rank (number : x.isNaN = false) : ∃ r, (real x).rank? = some r := by
  cases hx : valueOf? x with
  | some v => exact ⟨_, rank?_of_value? hx⟩
  | none =>
    obtain ⟨s, hs⟩ := exists_infinity hx number
    rw [rank?, hs]
    cases s with
    | positive | negative => exact ⟨_, rfl⟩

/-- What is neither NaN nor zero and not above zero has its negation above. -/
theorem less_zero_neg (number : x.isNaN = false) (nonzero : valueOf? x ≠ some 0) :
    (int 0).less (real (-x)) = !(int 0).less (real x) := by
  have side : (int 0).less (real (-x)) = (real x).less (int 0) :=
    less_neg (int 0) (real x)
  have hzero : (int 0).rank? = some ((0 : ℚ) : Rank) := by rw [rank?, Int.cast_zero]
  obtain ⟨r, hr⟩ := exists_rank number
  have other : r ≠ ((0 : ℚ) : Rank) := by
    rintro rfl
    exact nonzero (rank?_eq_coe_iff.mp hr)
  rw [side, Bool.eq_iff_iff, Bool.not_eq_true', ← Bool.not_eq_true, less_iff_rank, less_iff_rank,
    hzero, hr]
  simp only [Option.some_inj, exists_and_left, exists_eq_left', not_lt]
  exact ⟨le_of_lt, fun le => lt_of_le_of_ne le other⟩

end Number

end Calculator
