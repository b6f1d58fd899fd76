import Calculator.Evaluation
import Calculator.Proofs.Binary64.Decimals
import Calculator.Proofs.Computations
import Calculator.Proofs.Folding
import Calculator.Proofs.RootSafety
import Calculator.Proofs.TangentSums

/-!
# Functions that have a value everywhere

The functions that every expression can call have a value at all floating-point numbers, infinities
and what is not a number included. No guess for a root is zero when something is divided by it, no
argument of an arcsine is folded twice, the sums that have no cap come to an end, no inverse of zero
is taken, and what is converted to an integer is finite.

Results:
1. `squareRoot_total`: roots.
2. `Inverse.arcsine_total`: the arcsine is folded once at most.
3. `Builtin.uncapped_total`: sine, cosine and arctangent with any tolerance that is not negative.
4. `Registry.functionValue_total`: a call of the default registry.
-/

namespace Calculator

open Binary64 Logging

/-! ## Conversions -/

namespace Number

/-- There is a floating-point number nearest to the number. -/
def Converts (a : Number) : Prop := ∃ y, a.toFloat = .ok y

theorem converts_real (x : Float) : (real x).Converts := ⟨x, rfl⟩

/-- A difference of numbers one of which is a floating-point number. -/
theorem sub_real {a b : Number} {x y : Float} (ha : a.toFloat = .ok x) (hb : b.toFloat = .ok y)
    (mixed : a = .real x ∨ b = .real y) : a.sub b = .ok (.real (x - y)) := by
  have general : a.sub b = (do
      let x ← a.toFloat
      let y ← b.toFloat
      pure (real (x - y))) := by
    rcases mixed with rfl | rfl
    · cases b <;> rfl
    · cases a <;> rfl
  rw [general, ha, hb]
  rfl

/-- A quotient of numbers one of which is a floating-point number. -/
theorem div_real {a b : Number} {x y : Float} (ha : a.toFloat = .ok x) (hb : b.toFloat = .ok y)
    (mixed : a = .real x ∨ b = .real y) (nonzero : (y == 0.0) = false) :
    a.div b = .ok (x / y) := by
  have general : a.div b = (do
      let x ← a.toFloat
      let y ← b.toFloat
      if y == 0.0 then throw Fault.zeroDivision else pure (x / y)) := by
    rcases mixed with rfl | rfl
    · cases b <;> rfl
    · cases a <;> rfl
  rw [general, ha, hb]
  show (if y == 0.0 then throw Fault.zeroDivision else pure (x / y)) = Except.ok (x / y)
  rw [nonzero]
  rfl

end Number

/-- A sum is zero, or one term that is an integer, or a floating-point number. -/
theorem seriesTotal_converts {first : Number} (h : first.Converts) (sum : Float) (count : Nat) :
    (seriesTotal first sum count).Converts := by
  unfold seriesTotal
  split
  · exact ⟨_, Number.toFloat_int onGrid_zero (by rw [Int.cast_zero, abs_zero])⟩
  · exact h
  · exact Number.converts_real sum

/-! ## Roots -/

theorem squareRoot_total (x : Float) :
    (squareRoot defaultCap (.real x) (some (.real coarseTolerance))).Gives Number.Converts := by
  unfold squareRoot
  refine ensures_ite (fun _ => ensures_pure (Number.converts_real x)) fun zero => ?_
  refine ensures_ite (fun _ => ensures_pure (Number.converts_real nan)) fun negative => ?_
  refine ensures_ite (fun _ => ensures_pure (Number.converts_real infinity)) fun infinite => ?_
  obtain ⟨v, hv, pos, -⟩ := exists_pos_of_tests zero negative infinite
  have regular : ¬Underflows x (.real coarseTolerance) := by
    rintro ⟨-, hzero⟩
    have nonzero : (7378697629483821 : ℚ) * 2 ^ (-66 : Int) ≠ 0 := by norm_num
    exact nonzero (Option.some.inj (valueOf?_coarseTolerance.symm.trans hzero))
  have hroot : (Root.newton defaultCap (.real x) (some (.real coarseTolerance))).Gives
      (Within 0 (2 ^ (1023 : Int))) :=
    (Root.newton_ensures (by decide) hv pos rfl).mono (fun root h => h.2) fun fault h => regular h.1
  refine hroot.bind fun root hroot => (Root.rounded_ensures hroot).mono ?_ fun _ => id
  rintro _ ⟨y, -, rfl, -⟩
  exact Number.converts_real y

/-! ## Sums without a cap -/

section Sums

variable {tolerance : Number}

theorem sumSeries_total {ratio : Nat → Float} {first : Number} {start : Float}
    (hfirst : first.toFloat = .ok start)
    (stops : (Series.run ratio tolerance longestSum start).2 = true) :
    (sumSeries ratio first (some tolerance)).Gives Number.Converts := by
  refine ensures_lift_bind rfl (ensures_lift_bind hfirst (ensures_ite (fun _ => ?_) fun h => ?_))
  · exact ensures_pure (seriesTotal_converts ⟨start, hfirst⟩ _ _)
  · exact absurd stops h

theorem sine_total (x : Float) (nonneg : (Number.int 0).atMost tolerance = true) :
    (sine (.real x) (some tolerance)).Gives Number.Converts := by
  refine ensures_ite (fun finite => ?_) fun _ => ensures_pure (Number.converts_real nan)
  exact ensures_lift_bind rfl
    (sumSeries_total rfl (Series.sine_stops (small_withinTurn finite) nonneg))

theorem cosine_total (x : Float) (nonneg : (Number.int 0).atMost tolerance = true) :
    (cosine (.real x) (some tolerance)).Gives Number.Converts := by
  refine ensures_ite (fun finite => ?_) fun _ => ensures_pure (Number.converts_real nan)
  have hone : (Number.int 1).toFloat = .ok 1.0 := rfl
  exact ensures_lift_bind rfl
    (sumSeries_total hone (Series.cosine_stops (small_withinTurn finite) valueOf?_one nonneg))

end Sums

theorem tangent_total (x : Float) (tolerance : Number) :
    (tangent defaultCap (.real x) (some tolerance)).Gives Number.Converts := by
  have hreal (y : Float) (_ : True) : (Number.real y).Converts := Number.converts_real y
  unfold tangent Tangent.withTable
  split
  · next finite =>
    have hangle := Tangent.within_withinHalfTurn (x := x) finite
    exact (Tangent.ofReduced_total hangle TangentTable.isInitial_initial tolerance
      (by decide)).map hreal
  · exact (ensures_pure trivial).map hreal

/-! ## Between minus one and one -/

section Beyond

variable {x : Float}

theorem value?_one : (Number.int 1).value? = some 1 := Number.value?_int (by norm_num)

theorem value?_neg_one : (Number.int (-1)).value? = some (-1) := Number.value?_int (by norm_num)

/-- An infinity lies beyond one on its side. -/
theorem beyond_of_infinite (h : valueOf? x = none) (number : x.isNaN = false) :
    ((Number.int 1).less (.real x) || (Number.real x).less (.int (-1))) = true := by
  obtain ⟨s, hs⟩ := exists_infinity h number
  have hrank : (Number.real x).rank? = rank? (.infinity s) := congrArg rank? hs
  rw [Bool.or_eq_true, Number.less_iff_rank, Number.less_iff_rank, hrank]
  cases s with
  | positive => exact .inl ⟨_, ⊤, rfl, rfl, coe_lt_top _⟩
  | negative => exact .inr ⟨⊥, _, rfl, rfl, WithBot.bot_lt_coe _⟩

theorem within_one_of_inside (number : x.isNaN = false)
    (inside : ¬((Number.int 1).less (.real x) || (Number.real x).less (.int (-1))) = true) :
    Within (-1) 1 x := by
  cases hx : valueOf? x with
  | none => exact absurd (beyond_of_infinite hx number) inside
  | some v =>
    rw [Bool.or_eq_true, Number.less_iff (b := .real x) value?_one hx,
      Number.less_iff (a := .real x) hx value?_neg_one] at inside
    exact ⟨v, hx, by linarith [not_or.mp inside], by linarith [not_or.mp inside]⟩

theorem one_lt_abs_of_beyond {v : ℚ} (hx : valueOf? x = some v)
    (beyond : ((Number.int 1).less (.real x) || (Number.real x).less (.int (-1))) = true) :
    1 < |v| := by
  rw [Bool.or_eq_true, Number.less_iff (b := .real x) value?_one hx,
    Number.less_iff (a := .real x) hx value?_neg_one] at beyond
  rw [lt_abs]
  exact beyond.imp id fun h => by linarith

theorem beq_zero_of_beyond
    (beyond : ((Number.int 1).less (.real x) || (Number.real x).less (.int (-1))) = true) :
    (x == 0.0) = false := by
  cases hx : valueOf? x with
  | none => exact beq_eq_false hx valueOf?_zero
  | some v =>
    rw [← Bool.not_eq_true, beq_iff hx valueOf?_zero]
    exact abs_pos.mp (zero_lt_one.trans (one_lt_abs_of_beyond hx beyond))

/-- The inverse of a number beyond one, and that of an infinity is zero. -/
theorem within_one_of_beyond (number : x.isNaN = false)
    (beyond : ((Number.int 1).less (.real x) || (Number.real x).less (.int (-1))) = true) :
    Within (-1) 1 (1.0 / x) := by
  cases hx : valueOf? x with
  | none =>
    obtain ⟨s, hs⟩ := exists_infinity hx number
    exact ⟨0, valueOf?_div_infinity valueOf?_one hs, by norm_num, by norm_num⟩
  | some v =>
    have large := one_lt_abs_of_beyond hx beyond
    have nonzero : v ≠ 0 := abs_pos.mp (zero_lt_one.trans large)
    have h : |1 / v| ≤ 1 := by
      rw [abs_div, abs_one]
      exact (div_le_one (zero_lt_one.trans large)).mpr large.le
    exact (near_div valueOf?_one hx nonzero).within onGrid_one.neg onGrid_one (neg_le_of_abs_le h)
      (le_of_abs_le h)

end Beyond

/-! ## Arcsine -/

namespace Inverse

variable {cap : Int} {tolerance : Number}

/-- Where the number is zero, and the first guess, so is the root. -/
theorem newton_of_zero {Q : Float → Prop} {x : Number} {start target : Float}
    (hdiv : x.div (.int 2) = .ok start) (htarget : x.toFloat = .ok target)
    (hs : valueOf? start = some 0) (ht : valueOf? target = some 0) (zero : Q start) :
    (Root.newton cap x (some (.real 0.0))).Gives Q := by
  refine Root.newton_of_close hdiv htarget ?_ zero
  refine (Root.close_iff (Root.valueOf?_sub_of_zero hs ht) valueOf?_zero).mpr ?_
  rw [neg_zero, abs_zero]

/-- Beyond the root of one half, but not beyond one, there is only one integer on either side. -/
theorem legSquare_int {n : Int} (beyond : Root.half < |(n : ℚ)|) (le : |(n : ℚ)| ≤ 1) :
    legSquare (.int n) = .int 0 := by
  have half_pos : 0 < Root.half := Root.half_ge.trans_lt' (by norm_num)
  have more : 0 < |n| := by exact_mod_cast half_pos.trans beyond
  have less : |n| ≤ 1 := by exact_mod_cast le
  have square : n * n = 1 := by rw [← abs_mul_abs_self, show |n| = 1 by omega, one_mul]
  rw [legSquare, square, sub_self]

/-- The other leg has every property that zero has and what the iteration for the square of a leg may
end in. -/
theorem newton_legSquare {Q : Float → Prop} {x : Number} {v : ℚ} (hx : x.value? = some v)
    (beyond : Root.half < |v|) (le : |v| ≤ 1) (zero : ∀ root, valueOf? root = some 0 → Q root)
    (other : ∀ y t, Root.IsLegSquare y t →
      Q (Root.run cap.toNat y (.real 0.0) (y / 2.0)).1.value) :
    (Root.newton cap (legSquare x) (some (.real 0.0))).Gives Q := by
  cases x with
  | int n =>
    cases hx
    rw [legSquare_int beyond le]
    exact newton_of_zero rfl rfl valueOf?_zero valueOf?_zero (zero _ valueOf?_zero)
  | real x =>
    rcases Root.legSquare_spec hx beyond le with ht | ⟨t, ht⟩
    · have near := near_div ht valueOf?_two two_ne_zero
      rw [zero_div] at near
      have hstart := near.valueOf?_eq onGrid_zero
      exact newton_of_zero rfl rfl hstart ht (zero _ hstart)
    · obtain ⟨r, hr, pos⟩ := ht.run_pos cap.toNat
      exact Root.newton_gives rfl rfl (Root.stuck_eq_false hr pos) (other _ t ht)

/-- After six steps or more the other leg is not beyond the root of one half. -/
theorem newton_leg (enough : 6 ≤ cap) {x : Number} {v : ℚ} (hx : x.value? = some v)
    (beyond : Root.half < |v|) (le : |v| ≤ 1) :
    (Root.newton cap (legSquare x) (some (.real 0.0))).Gives (Within 0 Root.half) := by
  have half_nonneg : 0 ≤ Root.half := Root.half_ge.trans' (by norm_num)
  refine newton_legSquare hx beyond le (fun root hroot => ⟨0, hroot, le_rfl, half_nonneg⟩)
    fun y t ht => ht.run_leg (by omega)

theorem arcsineSeries_total {x : Number} (h : x.Converts) :
    (arcsineSeries cap x (some tolerance)).Gives Number.Converts := by
  obtain ⟨start, hstart⟩ := h
  refine ensures_lift_bind rfl (ensures_lift_bind hstart ?_)
  exact ensures_converged (seriesTotal_converts ⟨start, hstart⟩ _ _)

/-- An argument that is not beyond the root of one half is not folded. -/
theorem arcsine_small {x : Number} (h : x.Converts) (folds : Nat)
    (small : (Number.real rootHalf).less x.abs = false) :
    (arcsine cap (some tolerance) (folds + 1) x).Gives Number.Converts := by
  unfold arcsine
  rw [small]
  exact ensures_ite (fun _ => ensures_pure (Number.converts_real nan)) fun _ => arcsineSeries_total h

/-- Behind the tests of the arcsine the number lies between minus one and one. -/
theorem exists_of_tests {x : Number}
    (inside : ¬(x.isNaN || x.less (.int (-1)) || (Number.int 1).less x) = true) :
    ∃ v, x.value? = some v ∧ |v| ≤ 1 ∧ x.Converts := by
  cases x with
  | int n =>
    have hvalue : (Number.int n).value? = some (n : ℚ) := rfl
    rw [Bool.or_eq_true, Bool.or_eq_true, Number.less_iff hvalue value?_neg_one,
      Number.less_iff value?_one hvalue, or_assoc, not_or, not_or, not_lt, not_lt] at inside
    have le : |(n : ℚ)| ≤ 1 := abs_le.mpr inside.2
    exact ⟨n, hvalue, le, _, Number.toFloat_int onGrid_one le⟩
  | real x =>
    rw [Bool.or_eq_true, Bool.or_eq_true, or_assoc, not_or] at inside
    obtain ⟨v, hv, above, below⟩ := within_one_of_inside (Bool.not_eq_true _ ▸ inside.1)
      (by rw [Bool.or_eq_true, or_comm]; exact inside.2)
    exact ⟨v, hv, abs_le.mpr ⟨above, below⟩, Number.converts_real x⟩

/-- An argument has an arcsine if the other leg has, and fails as that does. -/
theorem arcsine_of_leg {E : Fault → Prop} {Q : Float → Prop} {x : Number} {folds : Nat}
    (root : ∀ v, x.value? = some v → Root.half < |v| → |v| ≤ 1 →
      (Root.newton cap (legSquare x) (some (.real 0.0))).Gives Q)
    (folded : ∀ leg, Q leg →
      (arcsine cap (some tolerance) folds (.real leg)).Ensures Number.Converts E) :
    (arcsine cap (some tolerance) (folds + 1) x).Ensures Number.Converts E := by
  have hroot : (Number.real rootHalf).value? = some Root.half := Root.valueOf?_rootHalf
  unfold arcsine
  refine ensures_ite (fun _ => ensures_pure (Number.converts_real nan)) fun inside => ?_
  obtain ⟨v, hv, le, converts⟩ := exists_of_tests inside
  refine ensures_ite (fun beyond => ?_) fun _ =>
    (arcsineSeries_total converts).mono (fun _ => id) fun _ => False.elim
  rw [Number.less_iff hroot (Number.value?_abs hv)] at beyond
  refine ((root v hv beyond le).mono (fun _ => id) fun _ => False.elim).bind fun leg hleg => ?_
  refine (folded leg hleg).bind fun reduced hreduced => ?_
  obtain ⟨y, hy⟩ := hreduced
  refine ensures_ite ?_ ?_ <;> intro _
  · exact ensures_lift_of_ok (Number.sub_real rfl hy (.inl rfl)) (Number.converts_real _)
  · exact ensures_lift_of_ok (Number.sub_real hy rfl (.inr rfl)) (Number.converts_real _)

/-- Where the roots may be iterated six times an argument is folded once at most, and has an
arcsine. -/
theorem arcsine_total (enough : 6 ≤ cap) (x : Number) (folds : Nat) :
    (arcsine cap (some tolerance) (folds + 2) x).Gives Number.Converts := by
  refine arcsine_of_leg (fun v => newton_leg enough) fun leg hleg => ?_
  refine arcsine_small (Number.converts_real leg) folds ?_
  have hroot : (Number.real rootHalf).value? = some Root.half := Root.valueOf?_rootHalf
  obtain ⟨r, hr, r_ge, r_le⟩ := hleg
  have hleg : (Number.real leg).value? = some r := hr
  rw [← Bool.not_eq_true, Number.less_iff hroot (Number.value?_abs hleg), not_lt, abs_of_nonneg r_ge]
  exact r_le

/-- Wherever the roots are cut off, an argument has an arcsine unless it is folded too often. -/
theorem arcsine_value_or_deep (x : Number) (folds : Nat) :
    (arcsine cap (some tolerance) folds x).Ensures Number.Converts (· = .tooDeep) := by
  induction folds generalizing x with
  | zero => exact ensures_throw rfl
  | succ folds ih =>
    refine arcsine_of_leg (Q := fun _ => True) (fun v hv beyond le => ?_) fun leg _ => ih _
    exact newton_legSquare hv beyond le (fun _ _ => trivial) fun _ _ _ => trivial

end Inverse

theorem arccosine_total (x tolerance : Number) :
    (arccosine defaultCap x (some tolerance)).Gives Number.Converts := by
  refine (Inverse.arcsine_total (by decide) x _).bind fun s hs => ?_
  obtain ⟨y, hy⟩ := hs
  exact ensures_lift_of_ok (Number.sub_real rfl hy (.inl rfl)) (Number.converts_real _)

/-! ## Arctangent -/

namespace Inverse

variable {cap : Int} {x : Float} {tolerance : Number}

/-- The roots on the way to the arctangent. -/
theorem newton_hypotenuse (hx : Within (-1) 1 x) :
    (Root.newton cap (hypotenuseSquare (.real x)) (some (.real 0.0))).Gives
      (Within (1 / 2) 16) := by
  have hroot := (within_root (within_hypotenuse hx) cap.toNat (.real 0.0)).2
  obtain ⟨r, hr, r_ge, -⟩ := id hroot
  exact Root.newton_gives rfl rfl (Root.stuck_eq_false hr (by linarith)) hroot

/-- After a halving, or without one, the tangent is small, and the angle was divided by no more than a
power of two. -/
theorem halve_gives (rounds : Nat) (scale : Nat) (hx : Within (-1) 1 x)
    (small : rounds ≠ 0 ∨ Within (-(11 / 16)) (11 / 16) x) :
    (halve cap rounds (.real x) scale).Gives fun result =>
      (∃ y, result.1 = .real y ∧ Within (-(11 / 16)) (11 / 16) y) ∧
        result.2 ≤ scale * 2 ^ rounds := by
  induction rounds generalizing x scale with
  | zero => exact ensures_pure ⟨⟨x, rfl, small.resolve_left fun h => h rfl⟩, by simp⟩
  | succ rounds ih =>
    unfold halve
    refine ensures_ite (fun _ => ?_) fun hsmall => ?_
    · refine (newton_hypotenuse hx).bind fun root hroot => ?_
      have hhalf := within_halfTangent hx hroot
      have nonzero : (1.0 + root == 0.0) = false := by
        obtain ⟨w, hw, w_ge, -⟩ := within_one_add_root hroot
        rw [← Bool.not_eq_true, beq_iff hw valueOf?_zero]
        exact (by linarith : w ≠ 0)
      refine ensures_lift_bind (Number.div_real rfl rfl (.inl rfl) nonzero) ?_
      -- the first halving makes the tangent small, and the others keep it so
      refine (ih _ (hhalf.mono (by norm_num) (by norm_num)) (.inr hhalf)).mono (fun result h => ?_)
        fun _ => id
      exact ⟨h.1, h.2.trans_eq (by ring)⟩
    · obtain ⟨v, hv, -, -⟩ := hx
      have habs : (Number.real x).abs.value? = some |v| := Number.value?_abs hv
      have hquarter : (Number.real 0.25).value? = some (1 / 4) := valueOf?_quarter
      rw [Number.less_iff hquarter habs, not_lt, abs_le] at hsmall
      refine ensures_pure ⟨⟨x, rfl, v, hv, by linarith, by linarith⟩, ?_⟩
      exact Nat.le_mul_of_pos_right scale (Nat.pow_pos two_pos)

/-- A sum that starts with a floating-point number is such a number or the integer zero, and either
can be multiplied by what the angle was divided by. -/
theorem scaled_total (y sum : Float) (count : Nat) {scale : Nat} (few : scale ≤ 2 ^ 16) :
    (liftM ((Number.int scale).mul (seriesTotal (.real y) sum count)) : Numeric Number).Gives
      Number.Converts := by
  have grid : OnGrid (2 ^ (16 : Int)) := onGrid_two_zpow (by decide) (by decide)
  have hscale : (Number.int scale).toFloat = .ok (Float.ofInt scale) := by
    refine Number.toFloat_int grid ?_
    rw [Int.cast_natCast, Nat.abs_cast]
    exact_mod_cast few
  have hreal : (Number.int scale).mul (.real sum) = .ok (.real (Float.ofInt scale * sum)) := by
    show (do
      let x ← (Number.int scale).toFloat
      pure (Number.real (x * sum))) = Except.ok _
    rw [hscale]
    rfl
  match count with
  | 0 =>
    have hzero : (Number.int scale).mul (.int 0) = .ok (.int 0) := congrArg _ (congrArg _ (mul_zero _))
    exact ensures_lift_of_ok hzero ⟨0.0, rfl⟩
  | 1 | _ + 2 => exact ensures_lift_of_ok hreal (Number.converts_real _)

theorem arctangentWithinOne_total (hx : Within (-1) 1 x)
    (nonneg : (Number.int 0).atMost tolerance = true) :
    (arctangentWithinOne cap (.real x) (some tolerance)).Gives Number.Converts := by
  unfold arctangentWithinOne
  refine (halve_gives 16 1 hx (.inl (by decide))).bind ?_
  rintro ⟨_, scale⟩ ⟨⟨y, rfl, hy⟩, few⟩
  refine ensures_lift_bind rfl (ensures_lift_bind rfl ?_)
  refine ensures_ite (fun _ => ?_) fun h => absurd (runOddPowers_stops hy nonneg) h
  exact scaled_total y _ _ (few.trans_eq (one_mul _))

end Inverse

theorem arctangent_total (cap : Int) (x : Float) {tolerance : Number}
    (nonneg : (Number.int 0).atMost tolerance = true) :
    (arctangent cap (.real x) (some tolerance)).Gives Number.Converts := by
  unfold arctangent
  refine ensures_ite (fun _ => ensures_pure (Number.converts_real nan)) fun number => ?_
  rw [Bool.not_eq_true] at number
  refine ensures_ite (fun beyond => ?_) fun inside => ?_
  · have hinverse := within_one_of_beyond number beyond
    have hone : (Number.int 1).toFloat = .ok 1.0 := rfl
    refine ensures_lift_bind (Number.div_real hone rfl (.inr rfl) (beq_zero_of_beyond beyond)) ?_
    refine (Inverse.arctangentWithinOne_total hinverse nonneg).bind fun reduced hreduced => ?_
    obtain ⟨y, hy⟩ := hreduced
    exact ensures_lift_of_ok (Number.sub_real rfl hy (.inl rfl)) (Number.converts_real _)
  · exact Inverse.arctangentWithinOne_total (within_one_of_inside number inside) nonneg

/-! ## Power -/

/-- Powers of floating-point numbers are such numbers, or the integer one. -/
theorem power_eq_ok (base exponent : Float) :
    ∃ y, power (some (.real base)) (some (.real exponent)) = .ok y ∧ y.Converts := by
  by_cases finite : (Number.real exponent).isFinite = true
  · obtain ⟨v, hv⟩ := exists_valueOf? finite
    by_cases zero : v = 0
    · exact ⟨_, power_of_zero (e := .real exponent) (zero ▸ hv) _, 1.0, rfl⟩
    rw [power_eq (e := .real exponent) hv zero]
    unfold powerOfCount
    split
    · split
      · exact ⟨_, rfl, Number.converts_real infinity⟩
      · next nonzero =>
        rw [Number.div_real (x := 1.0) rfl rfl (.inr rfl)
          (Bool.not_eq_true _ ▸ mt Number.equals_zero_of_beq nonzero)]
        exact ⟨_, rfl, Number.converts_real _⟩
    · exact ⟨_, rfl, Number.converts_real _⟩
  · rw [power_eq_ite, if_neg finite]
    split
    · exact ⟨_, rfl, 1.0, rfl⟩
    · exact ⟨_, rfl, Number.converts_real nan⟩

/-! ## Calls -/

/-- The functions whose sums have no cap, with any tolerance that is not negative. -/
theorem Builtin.uncapped_total {f : Builtin} (h : f ∈ [Builtin.sin, .cos, .atan]) (cap : Int)
    (x : Float) {tolerance : Number} (nonneg : (Number.int 0).atMost tolerance = true) :
    (f.approximate cap (.real x) (some tolerance)).Gives Number.Converts := by
  cases f with
  | abs | factorial | pow | sqrt | tan | asin | acos => exact absurd h (by decide)
  | sin => exact sine_total x nonneg
  | cos => exact cosine_total x nonneg
  | atan => exact arctangent_total cap x nonneg

/-- The functions of one number, each at its own tolerance. -/
theorem Builtin.apply_total {f : Builtin}
    (h : f ∈ [Builtin.cos, .acos, .sin, .asin, .tan, .atan, .sqrt]) (x : Float) :
    (f.apply defaultCap [some (.real x)] none).Gives Number.Converts := by
  cases f with
  | abs | factorial | pow => exact absurd h (by decide)
  | sqrt => exact ensures_lift_bind rfl (squareRoot_total x)
  | sin | cos | atan =>
    exact ensures_lift_bind rfl (Builtin.uncapped_total (by decide) defaultCap x rfl)
  | tan => exact ensures_lift_bind rfl (tangent_total x _)
  | asin => exact ensures_lift_bind rfl (Inverse.arcsine_total (by decide) (.real x) _)
  | acos => exact ensures_lift_bind rfl (arccosine_total (.real x) _)

namespace Registry

/-- A call of the default registry with floating-point numbers, as many as the function takes, has a
value. -/
theorem functionValue_total {name : String} {entry : Entry} {arguments : List Value}
    (h : Registry.default.find? name = some entry) (arity : entry.arity = arguments.length)
    (reals : ∀ a ∈ arguments, ∃ x, a = some (.real x)) :
    (Evaluation.functionValue entry arguments).Gives fun _ => True := by
  have hcall : (entry.apply arguments).Gives fun value => ∃ a, value = some a ∧ a.Converts := by
    rcases default_cases h with ⟨f, hf, rfl⟩ | rfl
    · have single : arguments.length = 1 := Int.ofNat.inj arity.symm
      obtain ⟨a, rfl⟩ := List.length_eq_one_iff.mp single
      obtain ⟨x, rfl⟩ := reals a List.mem_cons_self
      exact (Builtin.apply_total hf x).map fun a ha => ⟨a, rfl, ha⟩
    · have both : arguments.length = 2 := Int.ofNat.inj arity.symm
      obtain ⟨a, b, rfl⟩ := List.length_eq_two.mp both
      obtain ⟨x, rfl⟩ := reals a List.mem_cons_self
      obtain ⟨y, rfl⟩ := reals b (List.mem_cons_of_mem _ List.mem_cons_self)
      obtain ⟨z, hz, converts⟩ := power_eq_ok x y
      exact (ensures_lift_of_ok hz converts).map fun a ha => ⟨a, rfl, ha⟩
  refine hcall.bind fun value hvalue => ?_
  obtain ⟨a, rfl, y, hy⟩ := hvalue
  exact ensures_lift_bind rfl (ensures_lift_of_ok hy trivial)

end Registry

end Calculator
