import Calculator.Library.Builtin
import Calculator.Proofs.Iteration

/-!
# The loops of the library

Every approximation of the library is made by one of six loops. They differ in what a state is, in
the step, in the test and in whether it stands before or behind the step, in how many steps a cap
allows, and in what is reported when they are used up. All else is said of them together.

The root, the tangent and the arcsine have a cap. The other sums have none: they end because a term
is zero at last, and the budget is never used up unless the tolerance is negative.

Results:
1. `Loop.run_root` to `Loop.run_arctangent`: the loops are those of the library.
2. `Loop.run_eq_getLastD`: a loop ends in the last of the states it passes through.
3. `Loop.states_length_le`: it makes no more steps than its budget allows.
-/

namespace Calculator

/-- A loop at given arguments. -/
inductive Loop where
  /-- The root of a target from a start. What is reported is the root of `x`. -/
  | root (x : Number) (target start : Float)
  /-- The sum of the sine. -/
  | sine (angle : Float)
  /-- The sum of the cosine. -/
  | cosine (angle : Float)
  /-- The sum of the tangent. -/
  | tangent (angle : Float)
  /-- The sum of the arcsine from a first term. What is reported is the arcsine of `x`. -/
  | arcsine (x : Number) (first : Float)
  /-- The sum of the arctangent. -/
  | arctangent (first : Float)
deriving DecidableEq

namespace Loop

/-- What a loop repeats its step on. -/
@[reducible] def State : Loop → Type
  | root .. => Root.Guess
  | sine _ | cosine _ | arcsine .. => PartialSum Float
  | tangent _ => TangentSum Float
  | arctangent _ => PowerSum Float

/-- The state before the first step. -/
def start : (l : Loop) → l.State
  | root _ _ start => ⟨start, 0⟩
  | sine angle => ⟨0.0, angle, 0⟩
  | cosine _ => ⟨0.0, 1.0, 0⟩
  | tangent angle => Tangent.start angle .initial
  | arcsine _ first => ⟨0.0, first, 0⟩
  | arctangent first => ⟨0.0, first, first, 0⟩

/-- One step. -/
def step : (l : Loop) → l.State → l.State
  | root _ target _ => Root.step target
  | sine angle => Series.addTerm (Series.sineRatio angle)
  | cosine angle => Series.addTerm (Series.cosineRatio angle)
  | tangent angle => Tangent.addTerm angle
  | arcsine _ first => Series.addTerm (Series.arcsineRatio first)
  | arctangent first => Series.addOddPower first

/-- The test that ends the loop. -/
def settled (tolerance : Number) : (l : Loop) → l.State → Bool
  | root _ target _ => Root.settled target tolerance
  | tangent _ => fun s => within tolerance s.term
  | sine _ | cosine _ | arcsine .. => fun p => !beyond tolerance p.term
  | arctangent _ => fun p => !beyond tolerance p.term

/-- The test stands behind the step. -/
def stepsFirst : Loop → Bool
  | tangent _ => true
  | _ => false

/-- What a loop that has a cap reports when it is cut off: the routine and its argument. -/
def report? : Loop → Option (Routine × Number)
  | root x .. => some (.root, x)
  | tangent angle => some (.tangent, .real angle)
  | arcsine x _ => some (.arcsine, x)
  | sine _ | cosine _ | arctangent _ => none

/-- How many steps a loop may make. The first term of the tangent needs none, and the arcsine makes
one in any case. -/
def budget (cap : Int) : Loop → Nat
  | root .. => cap.toNat
  | tangent _ => (cap - 1).toNat
  | arcsine .. => (max cap 1).toNat
  | sine _ | cosine _ | arctangent _ => longestSum

variable (cap : Int) (tolerance : Number) (l : Loop)

/-- The state in which the loop ends, and whether the test held there. -/
def run : l.State × Bool :=
  if l.stepsFirst then stepFirst (l.settled tolerance) l.step (l.budget cap) l.start
  else testFirst (l.settled tolerance) l.step (l.budget cap) l.start

/-- The states after each step. -/
def states : List l.State :=
  if l.stepsFirst then stepFirstStates (l.settled tolerance) l.step (l.budget cap) l.start
  else testFirstStates (l.settled tolerance) l.step (l.budget cap) l.start

/-- Why there is no state to go on from: a root has no next guess, or a sum does not end. -/
def failure? : (l : Loop) → l.State × Bool → Option Fault
  | root _ target _ => fun (guess, converged) =>
      if converged && Root.stuck target tolerance guess then some .zeroDivision else none
  | tangent _ | arcsine .. => fun _ => none
  | sine _ | cosine _ => fun (_, converged) => if converged then none else some .endless
  | arctangent _ => fun (_, converged) => if converged then none else some .endless

/-- The state that is gone on from. -/
def outcome : Except Fault l.State :=
  match l.failure? tolerance (l.run cap tolerance) with
  | some f => throw f
  | none => return (l.run cap tolerance).1

/-- What is reported. -/
def warnings : List Warning :=
  if (l.run cap tolerance).2 then []
  else (l.report?.map fun (routine, argument) => ⟨routine, argument, cap⟩).toList

/-! ## The loops are those of the library -/

section Runs

variable {l}

theorem run_of_testsFirst (h : l.stepsFirst = false) :
    l.run cap tolerance = testFirst (l.settled tolerance) l.step (l.budget cap) l.start :=
  if_neg (Bool.eq_false_iff.mp h)

theorem run_of_stepsFirst (h : l.stepsFirst = true) :
    l.run cap tolerance = stepFirst (l.settled tolerance) l.step (l.budget cap) l.start :=
  if_pos h

theorem states_of_testsFirst (h : l.stepsFirst = false) :
    l.states cap tolerance =
      testFirstStates (l.settled tolerance) l.step (l.budget cap) l.start :=
  if_neg (Bool.eq_false_iff.mp h)

theorem states_of_stepsFirst (h : l.stepsFirst = true) :
    l.states cap tolerance =
      stepFirstStates (l.settled tolerance) l.step (l.budget cap) l.start :=
  if_pos h

end Runs

section Library

variable (x : Number) (target angle first : Float)

theorem run_root (start : Float) :
    (root x target start).run cap tolerance = Root.run cap.toNat target tolerance start :=
  (run_of_testsFirst cap tolerance rfl).trans rfl

theorem run_sine :
    (sine angle).run cap tolerance =
      Series.run (Series.sineRatio angle) tolerance longestSum angle :=
  (run_of_testsFirst cap tolerance rfl).trans rfl

theorem run_cosine :
    (cosine angle).run cap tolerance =
      Series.run (Series.cosineRatio angle) tolerance longestSum 1.0 :=
  (run_of_testsFirst cap tolerance rfl).trans rfl

theorem run_tangent :
    (tangent angle).run cap tolerance = Tangent.run angle tolerance (cap - 1).toNat .initial :=
  (run_of_stepsFirst cap tolerance rfl).trans rfl

theorem run_arcsine :
    (arcsine x first).run cap tolerance =
      Series.run (Series.arcsineRatio first) tolerance (max cap 1).toNat first :=
  (run_of_testsFirst cap tolerance rfl).trans rfl

theorem run_arctangent :
    (arctangent first).run cap tolerance = Series.runOddPowers first tolerance longestSum :=
  (run_of_testsFirst cap tolerance rfl).trans rfl

end Library

/-! ## How a loop ends -/

/-- A loop ends in the last state, or in the first one without a step. -/
theorem run_eq_getLastD : (l.run cap tolerance).1 = (l.states cap tolerance).getLastD l.start := by
  cases h : l.stepsFirst with
  | true =>
    rw [run_of_stepsFirst cap tolerance h, states_of_stepsFirst cap tolerance h]
    exact stepFirst_getLastD _ _
  | false =>
    rw [run_of_testsFirst cap tolerance h, states_of_testsFirst cap tolerance h]
    exact testFirst_getLastD _ _

theorem states_length_le : (l.states cap tolerance).length ≤ l.budget cap := by
  cases h : l.stepsFirst with
  | true =>
    rw [states_of_stepsFirst cap tolerance h]
    exact stepFirstStates_length_le _ _
  | false =>
    rw [states_of_testsFirst cap tolerance h]
    exact testFirstStates_length_le _ _

end Loop

end Calculator
