import Calculator.Library.Series
import Calculator.Library.Root

/-!
# Arcsine, arccosine, arctangent

Each argument is first moved to where its series converges fast. The arcsine of an argument near one
is a quarter turn less the arcsine of the complementary leg. The arctangent of an argument beyond one
is a quarter turn less that of the inverse, and an argument above a quarter is halved in angle as
often as needed. The roots in these steps are taken as exactly as the format allows.
-/

namespace Calculator

/-- The sine of an eighth of a turn, to the nearest. -/
def rootHalf : Float := 0.7071067811865476

namespace Inverse

/-- `1 - x * x`. An integer argument gives an integer. -/
def legSquare : Number → Number
  | .int n => .int (1 - n * n)
  | .real x => .real (1.0 - x * x)

/-- `1 + x * x`. An integer argument gives an integer. -/
def hypotenuseSquare : Number → Number
  | .int n => .int (1 + n * n)
  | .real x => .real (1.0 + x * x)

/-- The quarter turn on the side of `x`. -/
def quarterTurn (x : Number) : Number :=
  .real (if (Number.int 0).less x then halfPi else -halfPi)

/-- The arcsine series, cut off after as many terms as the cap says, but not before the first. -/
def arcsineSeries (cap : Int) (x : Number) (tolerance : Value) : Numeric Number := do
  let tolerance ← Value.demand tolerance
  let start ← x.toFloat
  let (p, converged) := Series.run (Series.arcsineRatio start) tolerance (max cap 1).toNat start
  unless converged do warn ⟨.arcsine, x, cap⟩
  return seriesTotal x p.sum p.count

/-- The arcsine, with at most so many folds. A root that was cut off may be so rough that its
arcsine is folded again. -/
def arcsine (cap : Int) (tolerance : Value) : Nat → Number → Numeric Number
  | 0, _ => throw .tooDeep
  | folds + 1, x => do
      if x.isNaN || x.less (.int (-1)) || (Number.int 1).less x then return .real nan
      if (Number.real rootHalf).less x.abs then
        let leg ← Root.newton cap (legSquare x) (some (.real 0.0))
        let reduced ← arcsine cap tolerance folds (.real leg)
        if (Number.int 0).less x then (Number.real halfPi).sub reduced
        else reduced.sub (.real halfPi)
      else
        arcsineSeries cap x tolerance

/-- The number of folds after which the arcsine gives up. It stands in for a bounded call stack, since
every fold is a call inside another. One fold is enough unless roots are cut off after fewer than six
steps. -/
def foldLimit : Nat := 1000

/-- Halves the angle whose tangent is `x` until the tangent is at most a quarter, and returns by what
the angle was divided. A halving divides the tangent by three halves or more, so a few are enough. -/
def halve (cap : Int) : Nat → Number → Nat → Numeric (Number × Nat)
  | 0, x, scale => return (x, scale)
  | rounds + 1, x, scale => do
      if (Number.real 0.25).less x.abs then
        let hypotenuse ← Root.newton cap (hypotenuseSquare x) (some (.real 0.0))
        let half ← x.div (.real (1.0 + hypotenuse))
        halve cap rounds (.real half) (2 * scale)
      else
        return (x, scale)

/-- The arctangent of an argument between minus one and one. -/
def arctangentWithinOne (cap : Int) (x : Number) (tolerance : Value) : Numeric Number := do
  let (x, scale) ← halve cap 16 x 1
  let tolerance ← Value.demand tolerance
  let start ← x.toFloat
  let (p, converged) := Series.runOddPowers start tolerance longestSum
  unless converged do throw .endless
  (Number.int scale).mul (seriesTotal x p.sum p.count)

end Inverse

/-- The arcsine. -/
def arcsine (cap : Int) (x : Number) (tolerance : Value) : Numeric Number :=
  Inverse.arcsine cap tolerance Inverse.foldLimit x

/-- The arccosine: a quarter turn less the arcsine. -/
def arccosine (cap : Int) (x : Number) (tolerance : Value) : Numeric Number := do
  let s ← arcsine cap x tolerance
  (Number.real halfPi).sub s

/-- The arctangent. -/
def arctangent (cap : Int) (x : Number) (tolerance : Value) : Numeric Number := do
  if x.isNaN then return .real nan
  if (Number.int 1).less x || x.less (.int (-1)) then
    let inverse ← (Number.int 1).div x
    let reduced ← Inverse.arctangentWithinOne cap (.real inverse) tolerance
    (Inverse.quarterTurn x).sub reduced
  else
    Inverse.arctangentWithinOne cap x tolerance

end Calculator
