import Calculator.Number

/-!
# Iterations

Every approximation of the library repeats a step until a test holds, and makes no more than a given
number of steps. Two shapes occur: the test stands before the step, or behind it. Both say besides
the state they end in whether the test held there.

A change of the test alone never changes the states that are passed through, only where the
iteration stops among them.

A computation that is cut off by the iteration cap goes on with what it has and leaves a warning. The
numeric library therefore runs in a monad that collects warnings and may end in a fault; the warnings
given before a fault are kept.
-/

namespace Calculator

/-! ## Warnings -/

/-- The iterations that have a cap. -/
inductive Routine where
  | root
  | tangent
  | arcsine
deriving DecidableEq

/-- The name under which an iteration reports. -/
def Routine.name : Routine → String
  | root => "sqrt"
  | tangent => "tan"
  | arcsine => "asin"

/-- An iteration was cut off: which one, at which argument, by which cap. -/
structure Warning where
  routine : Routine
  argument : Number
  cap : Int
deriving DecidableEq

/-- Computations that collect warnings and may fail. -/
abbrev Logging (ε : Type) := ExceptT ε (StateM (List Warning))

/-- Computations of the numeric library. -/
abbrev Numeric := Logging Fault

/-- Leaves a warning. -/
def warn (w : Warning) : Numeric Unit := modify (· ++ [w])

/-! ## Repeating a step -/

/-- Repeats a step until the test holds, testing first; the state after the last step that the
budget allows is not tested. -/
def testFirst {σ : Type} (stop : σ → Bool) (step : σ → σ) : Nat → σ → σ × Bool
  | 0, s => (s, false)
  | budget + 1, s => if stop s then (s, true) else testFirst stop step budget (step s)

/-- Repeats a step until the test holds, stepping first. -/
def stepFirst {σ : Type} (stop : σ → Bool) (step : σ → σ) : Nat → σ → σ × Bool
  | 0, s => (s, false)
  | budget + 1, s => if stop (step s) then (step s, true) else stepFirst stop step budget (step s)

/-- The iteration cap that holds unless another is given. -/
def defaultCap : Int := 10000

/-- Sums without a cap stop after this many terms. With a tolerance that is not negative the terms
of every such sum fall below it long before. -/
def longestSum : Nat := 2048

/-- The magnitude does not exceed the tolerance. False if either is NaN. -/
def within (tolerance : Number) (x : Float) : Bool := (Number.real x.abs).atMost tolerance

/-- The magnitude exceeds the tolerance. False if either is NaN. -/
def beyond (tolerance : Number) (x : Float) : Bool := tolerance.less (.real x.abs)

end Calculator
