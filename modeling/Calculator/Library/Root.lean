import Calculator.Library.Iteration

/-!
# Square roots

The square root of `x` is approximated by Newton's iteration from `x / 2`: the next guess is the
mean of the guess and of `x` divided by it. The iteration stops when the square of the guess is within
the tolerance of `x`, and also when the guesses no longer fall: past the first step they decrease as
long as they still approach the root. A guess of zero that is not good enough has no next one, and
that is a fault. The public function then rounds to the nearest whole number, a half upwards.
-/

namespace Calculator

namespace Root

/-- A guess, and the number of steps that led to it. -/
structure Guess where
  value : Float
  count : Nat
deriving DecidableEq

/-- The guess after a given one. -/
def following (x guess : Float) : Float := (guess + x / guess) / 2.0

/-- One step of the iteration. -/
def step (x : Float) (g : Guess) : Guess := ⟨following x g.value, g.count + 1⟩

/-- The square of the guess is within the tolerance of `x`. -/
def close (x : Float) (tolerance : Number) (guess : Float) : Bool :=
  within tolerance (guess * guess - x)

/-- The next guess is the same, or past the first step higher. -/
def stalled (x : Float) (g : Guess) : Bool :=
  following x g.value == g.value || (0 < g.count && g.value < following x g.value)

/-- There is no next guess: the guess is zero and not good enough. -/
def stuck (x : Float) (tolerance : Number) (g : Guess) : Bool :=
  g.value == 0.0 && !close x tolerance g.value

/-- The test that ends the iteration. -/
def settled (x : Float) (tolerance : Number) (g : Guess) : Bool :=
  close x tolerance g.value || stuck x tolerance g || stalled x g

/-- The guess in which the iteration for `x` ends, and whether the test held there. -/
def run (cap : Nat) (x : Float) (tolerance : Number) (start : Float) : Guess × Bool :=
  testFirst (settled x tolerance) (step x) cap ⟨start, 0⟩

/-- The unrounded square root of `x`. -/
def newton (cap : Int) (x : Number) (tolerance : Value) : Numeric Float := do
  let start ← x.div (.int 2)
  if cap ≤ 0 then
    warn ⟨.root, x, cap⟩
    return start
  let target ← x.toFloat
  let tolerance ← Value.demand tolerance
  let (guess, converged) := run cap.toNat target tolerance start
  if converged && stuck target tolerance guess then throw .zeroDivision
  unless converged do warn ⟨.root, x, cap⟩
  return guess.value

end Root

/-- The square root of `x` rounded to a whole number. Zero and one are returned as they are; there is
no root of a negative number. -/
def squareRoot (cap : Int) (x : Number) (tolerance : Value) : Numeric Number := do
  if x.equals (.int 0) || x.equals (.int 1) then return x
  if x.isNaN || x.less (.int 0) then return .real nan
  if x.equals (.real infinity) then return .real infinity
  let root ← Root.newton cap x tolerance
  let whole ← (Number.real (root + 0.5)).truncate
  return .real (← (Number.int whole).toFloat)

end Calculator
