import Calculator.Proofs.Binary64.Symmetry
import Calculator.Proofs.Recording
import Calculator.Proofs.Totality

/-!
# Arcsine and arctangent are odd

The calls for a number and for its negation are run side by side. They take the same branches, because
these are chosen by the magnitude; where a sign chooses, the two branches are the negations of each
other. The roots on the way are taken of squares, so they are the same, and all that follows from the
number by products and quotients is negated exactly. Only the sums, which start from zero on both sides,
are negated as numbers: a sum of zero may have either sign.

Results:
1. `Series.run_opposite`, `Series.runOddPowers_opposite`: the sums.
2. `Inverse.arcsine_opposite`, `Inverse.halve_opposite`: the folds and the halvings.
3. `arcsine_arctangent_odd`: the calls.
-/

namespace Calculator

open Binary64

/-! ## Definitions -/

/-- Two outcomes are related values, or the same error. -/
inductive Matches {ε α β : Type} (R : α → β → Prop) : Except ε α → Except ε β → Prop
  | values {a : α} {b : β} (h : R a b) : Matches R (.ok a) (.ok b)
  | errors (e : ε) : Matches R (.error e) (.error e)

theorem Matches.mono {ε α β : Type} {R R' : α → β → Prop} {m : Except ε α} {m' : Except ε β}
    (h : Matches R m m') (implies : ∀ a b, R a b → R' a b) : Matches R' m m' := by
  cases h with
  | values hab => exact .values (implies _ _ hab)
  | errors e => exact .errors e

/-- Whatever was recorded before either, the outcomes of two computations match. -/
def Logging.Mirrors {ε α β : Type} (R : α → β → Prop) (m : Logging ε α) (m' : Logging ε β) : Prop :=
  ∀ log log', Matches R (m.outcome log).1 (m'.outcome log').1

namespace Number

/-- The numbers are equal up to the sign, or both are NaN. -/
def IsNegation (a b : Number) : Prop :=
  a.isNaN = true ∧ b.isNaN = true ∨ b.equals a.neg = true

/-- Opposite floating-point numbers, or the integer zero on both sides. -/
inductive Opposite : Number → Number → Prop
  | zero : Opposite (.int 0) (.int 0)
  | real {x y : Float} (h : Binary64.Opposite x y) : Opposite (.real x) (.real y)

end Number

/-- The function has opposite results at opposite numbers, and fails at both alike. -/
def IsOdd (f : Float → Numeric Number) : Prop := ∀ x, (f x).Mirrors Number.IsNegation (f (-x))

/-! ## Two computations side by side -/

namespace Logging

variable {ε α α' β β' : Type} {R : α → α' → Prop} {S : β → β' → Prop}

theorem mirrors_pure {a : α} {b : α'} (h : R a b) :
    Mirrors R (pure a : Logging ε α) (pure b) := fun _ _ => .values h

theorem mirrors_throw (e : ε) : Mirrors R (throw e : Logging ε α) (throw e) := fun _ _ => .errors e

theorem mirrors_lift {m : Except ε α} {m' : Except ε α'} (h : Matches R m m') :
    Mirrors R (liftM m : Logging ε α) (liftM m') := by
  cases h with
  | values h => exact mirrors_pure h
  | errors e => exact mirrors_throw e

theorem mirrors_lift_bind {m : Except ε α} {m' : Except ε α'} {f : α → Logging ε β}
    {f' : α' → Logging ε β'} {a : α} {a' : α'} (h : m = .ok a) (h' : m' = .ok a')
    (hf : Mirrors S (f a) (f' a')) : Mirrors S (liftM m >>= f) (liftM m' >>= f') := by
  rw [h, h']
  exact hf

/-- A computation by the side of itself. -/
theorem Appends.mirrors {m : Logging ε α} (h : m.Appends) : Mirrors Eq m m := by
  intro log log'
  rw [h log, h log']
  cases (m.outcome []).1 with
  | ok a => exact .values rfl
  | error e => exact .errors e

theorem Mirrors.bind {m : Logging ε α} {m' : Logging ε α'} {f : α → Logging ε β}
    {f' : α' → Logging ε β'} (h : Mirrors R m m') (hf : ∀ a b, R a b → Mirrors S (f a) (f' b)) :
    Mirrors S (m >>= f) (m' >>= f') := by
  intro log log'
  have first := h log log'
  rw [outcome_bind, outcome_bind]
  generalize m.outcome log = r at first ⊢
  generalize m'.outcome log' = r' at first ⊢
  obtain ⟨r, log⟩ := r
  obtain ⟨r', log'⟩ := r'
  cases first with
  | values hab => exact hf _ _ hab log log'
  | errors e => exact .errors e

theorem mirrors_ite {c c' : Prop} [Decidable c] [Decidable c'] {m n : Logging ε α}
    {m' n' : Logging ε α'} (same : c ↔ c') (h : c → c' → Mirrors R m m')
    (h' : ¬c → ¬c' → Mirrors R n n') : Mirrors R (if c then m else n) (if c' then m' else n') := by
  by_cases hc : c
  · rw [if_pos hc, if_pos (same.mp hc)]
    exact h hc (same.mp hc)
  · rw [if_neg hc, if_neg (mt same.mpr hc)]
    exact h' hc (mt same.mpr hc)

theorem Mirrors.mono {R' : α → α' → Prop} {m : Logging ε α} {m' : Logging ε α'} (h : Mirrors R m m')
    (implies : ∀ a b, R a b → R' a b) : Mirrors R' m m' :=
  fun log log' => (h log log').mono implies

/-- Results that come with a warning, or both without. -/
theorem mirrors_converged {converged converged' : Bool} {w w' : Warning} {a : α} {b : α'}
    (same : converged = converged') (h : R a b) :
    Mirrors R
      (do
        unless converged do warn w
        return a : Numeric α)
      (do
        unless converged' do warn w'
        return b : Numeric α') := by
  subst same
  cases converged with
  | true => exact mirrors_pure h
  | false => exact fun _ _ => .values h

end Logging

open Logging

/-! ## Sums -/

namespace Series

variable {tolerance : Number} {x : Float}

/-- Sums side by side: the terms are negated exactly, the sums as numbers. -/
structure Opposed (p q : PartialSum Float) : Prop where
  sum : Opposite p.sum q.sum
  term : q.term = -p.term
  count : q.count = p.count

/-- Sums of powers side by side. -/
structure OpposedPowers (p q : PowerSum Float) : Prop where
  sum : Opposite p.sum q.sum
  term : q.term = -p.term
  power : q.power = -p.power
  count : q.count = p.count

theorem opposite_zero : Opposite 0.0 0.0 := .zero valueOf?_zero valueOf?_zero

theorem beyond_neg (tolerance : Number) (x : Float) : beyond tolerance (-x) = beyond tolerance x := by
  unfold beyond
  rw [abs_neg_eq]

theorem Opposed.addTerm {ratio : Nat → Float} {p q : PartialSum Float} (h : Opposed p q) :
    Opposed (addTerm ratio p) (addTerm ratio q) := by
  refine ⟨h.sum.add (h.term ▸ .neg), ?_, congrArg (· + 1) h.count⟩
  show q.term * ratio (q.count + 1) = -(p.term * ratio (p.count + 1))
  rw [h.term, h.count, neg_mul_eq]

theorem OpposedPowers.addOddPower {p q : PowerSum Float} (h : OpposedPowers p q) :
    OpposedPowers (addOddPower x p) (addOddPower (-x) q) := by
  have power : q.power * -(-x * -x) = -(p.power * -(x * x)) := by
    rw [neg_mul_neg_eq, h.power, neg_mul_eq]
  refine ⟨h.sum.add (h.term ▸ .neg), ?_, power, congrArg (· + 1) h.count⟩
  show q.power * -(-x * -x) / _ = -(p.power * -(x * x) / _)
  rw [power, h.count, neg_div_eq]

/-- A sum from the negated first term. -/
theorem run_opposite (ratio : Nat → Float) (tolerance : Number) (budget : Nat) (x : Float) :
    Opposed (run ratio tolerance budget x).1 (run ratio tolerance budget (-x)).1 ∧
      (run ratio tolerance budget x).2 = (run ratio tolerance budget (-x)).2 := by
  refine testFirst_related (fun p q h => ?_) (fun p q h => h.addTerm) budget
    ⟨opposite_zero, rfl, rfl⟩
  rw [h.term, beyond_neg]

theorem runOddPowers_opposite (x : Float) (tolerance : Number) (budget : Nat) :
    OpposedPowers (runOddPowers x tolerance budget).1 (runOddPowers (-x) tolerance budget).1 ∧
      (runOddPowers x tolerance budget).2 = (runOddPowers (-x) tolerance budget).2 := by
  refine testFirst_related (fun p q h => ?_) (fun p q h => h.addOddPower) budget
    ⟨opposite_zero, rfl, rfl, rfl⟩
  rw [h.term, beyond_neg]

end Series

/-- Sums of as many terms. -/
theorem seriesTotal_opposite {x x' sum sum' : Float} {count count' : Nat} (h : Opposite sum sum')
    (same : count' = count) :
    Number.Opposite (seriesTotal (.real x) sum count) (seriesTotal (.real x') sum' count') := by
  subst same
  match count' with
  | 0 => exact .zero
  | 1 | _ + 2 => exact .real h

/-! ## Arithmetic on numbers -/

namespace Number

/-- A difference the other way round. -/
theorem sub_swap (x : Float) (b : Number) :
    Matches Opposite ((real x).sub b) (b.sub (real x)) ∧
      Matches Opposite (b.sub (real x)) ((real x).sub b) := by
  cases b with
  | real y => exact ⟨.values (.real (opposite_sub x y)), .values (.real (opposite_sub y x))⟩
  | int n =>
    have left : (real x).sub (int n) = (int n).toFloat >>= fun y => pure (real (x - y)) := rfl
    have right : (int n).sub (real x) = (int n).toFloat >>= fun y => pure (real (y - x)) := rfl
    rw [left, right]
    cases (int n).toFloat with
    | ok y => exact ⟨.values (.real (opposite_sub x y)), .values (.real (opposite_sub y x))⟩
    | error e => exact ⟨.errors e, .errors e⟩

theorem Opposite.sub_from {b b' : Number} (x : Float) (h : Opposite b b') :
    Matches Opposite ((Number.real x).sub b) ((Number.real (-x)).sub b') := by
  cases h with
  | zero => exact .values (.real (Binary64.Opposite.neg.sub Series.opposite_zero))
  | real h => exact .values (.real (Binary64.Opposite.neg.sub h))

theorem Opposite.int_mul {b b' : Number} (n : Nat) (h : Opposite b b') :
    Matches Opposite ((int n).mul b) ((int n).mul b') := by
  cases h with
  | zero =>
    have hzero : (int n).mul (int 0) = .ok (int 0) := congrArg _ (congrArg _ (mul_zero _))
    rw [hzero]
    exact .values .zero
  | real h =>
    show Matches Opposite ((int n).toFloat >>= fun x => pure (Number.real (x * _)))
      ((int n).toFloat >>= fun x => pure (Number.real (x * _)))
    cases (int n).toFloat with
    | ok x => exact .values (.real (h.mul x))
    | error e => exact .errors e

/-- Opposite numbers are negations of each other in value. -/
theorem Opposite.isNegation {a b : Number} (h : Opposite a b) : IsNegation a b := by
  cases h with
  | zero => exact .inr (by decide)
  | @real x y h =>
    cases h with
    | neg =>
      cases nan : x.isNaN with
      | true => exact .inl ⟨nan, (isNaN_neg x).trans nan⟩
      | false =>
        obtain ⟨r, hr⟩ := exists_rank ((isNaN_neg x).trans nan)
        exact .inr (equals_iff_rank.mpr ⟨r, hr, hr⟩)
    | zero hx hy =>
      have hneg : (Number.real x).neg.value? = some 0 := valueOf?_neg_eq_zero_iff.mpr hx
      exact .inr ((equals_iff (a := .real y) hy hneg).mpr rfl)

end Number

/-! ## Arcsine -/

namespace Inverse

variable {cap : Int} {tolerance : Number}

theorem newton_mirrors (cap : Int) (x : Number) (tolerance : Value) :
    Mirrors Eq (Root.newton cap x tolerance) (Root.newton cap x tolerance) :=
  (appends_closed.newton cap x tolerance).mirrors

theorem arcsineSeries_opposite (x : Float) :
    Mirrors Number.Opposite (arcsineSeries cap (.real x) (some tolerance))
      (arcsineSeries cap (.real (-x)) (some tolerance)) := by
  have ratio : Series.arcsineRatio (-x) = Series.arcsineRatio x := by
    funext k
    unfold Series.arcsineRatio
    rw [neg_mul_neg_eq]
  obtain ⟨sums, stops⟩ :=
    Series.run_opposite (Series.arcsineRatio x) tolerance (max cap 1).toNat x
  unfold arcsineSeries
  refine mirrors_lift_bind rfl rfl (mirrors_lift_bind rfl rfl ?_)
  rw [ratio]
  exact mirrors_converged stops (seriesTotal_opposite sums.sum sums.count)

/-- The folds for the negated argument take the same leg. -/
theorem arcsine_opposite (folds : Nat) (x : Float) :
    Mirrors Number.Opposite (arcsine cap (some tolerance) folds (.real x))
      (arcsine cap (some tolerance) folds (.real (-x))) := by
  match folds with
  | 0 => exact mirrors_throw _
  | folds + 1 =>
    obtain ⟨below, above⟩ := Number.less_one_neg x
    have leg : legSquare (.real (-x)) = legSquare (.real x) := by
      unfold legSquare
      dsimp only
      rw [neg_mul_neg_eq]
    unfold arcsine
    refine mirrors_ite ?_ (fun _ _ => ?_) fun inside _ => ?_
    · rw [below, above, Number.isNaN, Number.isNaN, isNaN_neg, Bool.or_right_comm]
    · exact mirrors_pure (.real (opposite_of_isNaN rfl rfl))
    refine mirrors_ite (by rw [Number.less_abs_neg]) (fun beyond _ => ?_) fun _ _ => ?_
    · rw [leg]
      refine (newton_mirrors cap _ _).bind fun root _ h => ?_
      cases h
      refine (appends_closed.foldedArcsine (appends_throw _) cap _ folds _).mirrors.bind
        fun reduced _ h => ?_
      cases h
      rw [Bool.or_eq_true, Bool.or_eq_true, or_assoc, not_or] at inside
      have nonzero : valueOf? x ≠ some 0 := by
        intro zero
        have hroot : (Number.real rootHalf).value? = some Root.half := Root.valueOf?_rootHalf
        rw [Number.less_iff hroot (Number.value?_abs (a := .real x) zero), abs_zero] at beyond
        exact absurd beyond (by norm_num [Root.half])
      rw [Number.less_zero_neg (Bool.not_eq_true _ ▸ inside.1) nonzero]
      cases (Number.int 0).less (.real x) with
      | true => exact mirrors_lift (Number.sub_swap halfPi reduced).1
      | false => exact mirrors_lift (Number.sub_swap halfPi reduced).2
    · exact arcsineSeries_opposite x

end Inverse

/-! ## Arctangent -/

section Arctangent

variable {cap : Int} {tolerance : Number}

namespace Number

/-- A negated dividend negates the quotient. -/
theorem div_neg_dividend (x y : Float) :
    Matches (fun q q' => q' = -q) ((real x).div (real y)) ((real (-x)).div (real y)) := by
  show Matches _ (if y == 0.0 then throw Fault.zeroDivision else pure (x / y))
    (if y == 0.0 then throw Fault.zeroDivision else pure (-x / y))
  cases y == 0.0 with
  | true => exact .errors _
  | false => exact .values (neg_div_eq x y)

/-- A negated divisor negates the inverse. -/
theorem div_neg_divisor (x : Float) :
    Matches (fun q q' => q' = -q) ((int 1).div (real x)) ((int 1).div (real (-x))) := by
  show Matches _ (if x == 0.0 then throw Fault.zeroDivision else pure (1.0 / x))
    (if -x == 0.0 then throw Fault.zeroDivision else pure (1.0 / -x))
  rw [beq_neg_zero]
  cases x == 0.0 with
  | true => exact .errors _
  | false => exact .values (div_neg_eq 1.0 x)

end Number

namespace Inverse

/-- The halvings for the negated argument take the same roots. -/
theorem halve_opposite (rounds : Nat) (x : Float) (scale : Nat) :
    Mirrors (fun a b => ∃ y, a = (.real y, b.2) ∧ b.1 = .real (-y))
      (halve cap rounds (.real x) scale) (halve cap rounds (.real (-x)) scale) := by
  induction rounds generalizing x scale with
  | zero => exact mirrors_pure ⟨x, rfl, rfl⟩
  | succ rounds ih =>
    have square : hypotenuseSquare (.real (-x)) = hypotenuseSquare (.real x) := by
      unfold hypotenuseSquare
      dsimp only
      rw [neg_mul_neg_eq]
    unfold halve
    refine mirrors_ite (by rw [Number.less_abs_neg]) (fun _ _ => ?_) fun _ _ => ?_
    · rw [square]
      refine (newton_mirrors cap _ _).bind fun root _ h => ?_
      cases h
      refine (mirrors_lift (Number.div_neg_dividend x (1.0 + root))).bind fun half _ h => ?_
      cases h
      exact ih half (2 * scale)
    · exact mirrors_pure ⟨x, rfl, rfl⟩

theorem arctangentWithinOne_opposite (x : Float) :
    Mirrors Number.Opposite (arctangentWithinOne cap (.real x) (some tolerance))
      (arctangentWithinOne cap (.real (-x)) (some tolerance)) := by
  unfold arctangentWithinOne
  refine (halve_opposite 16 x 1).bind ?_
  rintro ⟨_, _⟩ ⟨_, scale⟩ ⟨y, h, rfl⟩
  cases h
  obtain ⟨sums, stops⟩ := Series.runOddPowers_opposite y tolerance longestSum
  refine mirrors_lift_bind rfl rfl (mirrors_lift_bind rfl rfl ?_)
  refine mirrors_ite (Bool.eq_iff_iff.mp stops) (fun _ _ => ?_) fun _ _ => mirrors_throw _
  exact mirrors_lift ((seriesTotal_opposite sums.sum sums.count).int_mul scale)

end Inverse

theorem arctangent_opposite (x : Float) :
    Mirrors Number.Opposite (arctangent cap (.real x) (some tolerance))
      (arctangent cap (.real (-x)) (some tolerance)) := by
  obtain ⟨below, above⟩ := Number.less_one_neg x
  unfold arctangent
  refine mirrors_ite (by rw [Number.isNaN, Number.isNaN, isNaN_neg]) (fun _ _ => ?_)
    fun number _ => ?_
  · exact mirrors_pure (.real (opposite_of_isNaN rfl rfl))
  refine mirrors_ite (by rw [below, above, Bool.or_comm]) (fun beyond _ => ?_) fun _ _ => ?_
  · refine (mirrors_lift (Number.div_neg_divisor x)).bind fun inverse _ h => ?_
    cases h
    refine (Inverse.arctangentWithinOne_opposite inverse).bind fun reduced reduced' h => ?_
    have nonzero : valueOf? x ≠ some 0 := by
      intro zero
      have := one_lt_abs_of_beyond zero beyond
      rw [abs_zero] at this
      exact this.not_gt zero_lt_one
    have turn : Inverse.quarterTurn (.real x) = .real halfPi ∧
          Inverse.quarterTurn (.real (-x)) = .real (-halfPi) ∨
        Inverse.quarterTurn (.real x) = .real (-halfPi) ∧
          Inverse.quarterTurn (.real (-x)) = .real halfPi := by
      have sides := Number.less_zero_neg (Bool.not_eq_true _ ▸ number) nonzero
      unfold Inverse.quarterTurn
      rw [sides]
      cases (Number.int 0).less (.real x) with
      | true => exact .inl ⟨rfl, rfl⟩
      | false => exact .inr ⟨rfl, rfl⟩
    rcases turn with ⟨right, left⟩ | ⟨left, right⟩
    · rw [right, left]
      exact mirrors_lift (h.sub_from halfPi)
    · have back := h.sub_from (-halfPi)
      rw [neg_neg_eq] at back
      rw [left, right]
      exact mirrors_lift back
  · exact Inverse.arctangentWithinOne_opposite x

end Arctangent

/-! ## The calls -/

/-- The arcsine and the arctangent are odd, under every cap and with every tolerance that is not
negative. The calls for the arctangent end; those for the arcsine do wherever the roots may be iterated
six times, and otherwise only the depth of the folds can be exceeded. -/
theorem arcsine_arctangent_odd (cap : Int) {tolerance : Number}
    (nonneg : (Number.int 0).atMost tolerance = true) :
    IsOdd (fun x => arcsine cap (.real x) (some tolerance)) ∧
    IsOdd (fun x => arctangent cap (.real x) (some tolerance)) ∧
    ∀ x,
      (arcsine cap (.real x) (some tolerance)).Ensures (fun _ => True)
        (fun fault => fault = .tooDeep ∧ cap < 6) ∧
      (arctangent cap (.real x) (some tolerance)).Gives fun _ => True := by
  refine ⟨fun x => ?_, fun x => ?_, fun x => ⟨?_, ?_⟩⟩
  · exact (Inverse.arcsine_opposite _ x).mono fun a b => Number.Opposite.isNegation
  · exact (arctangent_opposite x).mono fun a b => Number.Opposite.isNegation
  · rcases le_or_gt 6 cap with enough | few
    · exact (Inverse.arcsine_total enough (.real x) _).mono (fun _ _ => trivial) fun _ => False.elim
    · exact (Inverse.arcsine_value_or_deep (.real x) _).mono (fun _ _ => trivial)
        fun _ deep => ⟨deep, few⟩
  · exact (arctangent_total cap x nonneg).mono (fun _ _ => trivial) fun _ => id

/-- The roots are cut off after one step, and the sums go on until a term is zero. -/
theorem arcsine_arctangent_odd_one :
    (Number.int 0).atMost (.real 0.0) = true ∧
    IsOdd (fun x => arcsine 1 (.real x) (some (.real 0.0))) ∧
    IsOdd (fun x => arctangent 1 (.real x) (some (.real 0.0))) ∧
    ∀ x,
      (arcsine 1 (.real x) (some (.real 0.0))).Ensures (fun _ => True)
        (fun fault => fault = .tooDeep ∧ (1 : Int) < 6) ∧
      (arctangent 1 (.real x) (some (.real 0.0))).Gives fun _ => True :=
  have nonneg : (Number.int 0).atMost (.real 0.0) = true := by decide
  ⟨nonneg, arcsine_arctangent_odd 1 nonneg⟩

end Calculator
