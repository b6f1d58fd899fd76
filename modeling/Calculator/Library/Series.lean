import Calculator.Library.Iteration

/-!
# Power series, sine and cosine

The state of a sum of a power series is the sum of the terms so far, the next term, and the number
of terms summed. Each term follows from the one before by a ratio that depends on its number. The
states and steps are stated for any numbers that add, multiply and divide.

* sine:    `x - x^3/3! + x^5/5! - …`
* cosine:  `1 - x^2/2! + x^4/4! - …`
* arcsine: `x + x^3/(2*3) + 3 x^5/(2*4*5) + …`
* arctangent: `x - x^3/3 + x^5/5 - …`, where the powers are kept beside the terms.

The argument of sine and cosine is first reduced to one full turn, from zero on. The circle constants
are the floating-point numbers nearest to the real ones, and the multiples and parts used are exact.
-/

namespace Calculator

/-! ## Partial sums -/

/-- Naturals as floating-point numbers, to the nearest. -/
instance natCastFloat : NatCast Float := ⟨Float.ofNat⟩

/-- A partial sum of a series. -/
structure PartialSum (α : Type) where
  sum : α
  term : α
  count : Nat
deriving DecidableEq

/-- A partial sum of a series whose powers are kept beside its terms. -/
structure PowerSum (α : Type) where
  sum : α
  term : α
  power : α
  count : Nat
deriving DecidableEq

namespace Series

variable {α : Type} [Add α] [Mul α] [Neg α] [Div α] [NatCast α]

/-- The ratio of term `k` of the sine series to the one before it. -/
def sineRatio (x : α) (k : Nat) : α := -(x * x) / ((2 * k * (2 * k + 1) : Nat) : α)

/-- The ratio of term `k` of the cosine series to the one before it. -/
def cosineRatio (x : α) (k : Nat) : α := -(x * x) / (((2 * k - 1) * 2 * k : Nat) : α)

/-- The ratio of term `k` of the arcsine series to the one before it. -/
def arcsineRatio (x : α) (k : Nat) : α :=
  (((2 * k - 1) * (2 * k - 1) : Nat) : α) / ((2 * k * (2 * k + 1) : Nat) : α) * (x * x)

/-- Adds the next term. -/
def addTerm (ratio : Nat → α) (p : PartialSum α) : PartialSum α :=
  ⟨p.sum + p.term, p.term * ratio (p.count + 1), p.count + 1⟩

/-- Adds the next term of the arctangent series. -/
def addOddPower (x : α) (p : PowerSum α) : PowerSum α :=
  let power := p.power * -(x * x)
  ⟨p.sum + p.term, power / ((2 * (p.count + 1) + 1 : Nat) : α), power, p.count + 1⟩

/-- Sums a series from its first term until the next term is within the tolerance or the budget is
used up. -/
def run (ratio : Nat → Float) (tolerance : Number) (budget : Nat) (first : Float) :
    PartialSum Float × Bool :=
  testFirst (fun p => !beyond tolerance p.term) (addTerm ratio) budget ⟨0.0, first, 0⟩

/-- Sums the arctangent series until the next term is within the tolerance or the budget is used up. -/
def runOddPowers (x : Float) (tolerance : Number) (budget : Nat) : PowerSum Float × Bool :=
  testFirst (fun p => !beyond tolerance p.term) (addOddPower x) budget ⟨0.0, x, x, 0⟩

end Series

/-- A sum starts from the integer zero, and an integer it stays until a floating-point number is
added: with no term it is zero, with one term it is that term if that is an integer. -/
def seriesTotal (first : Number) (sum : Float) (count : Nat) : Number :=
  match count, first with
  | 0, _ => .int 0
  | 1, .int n => .int n
  | _, _ => .real sum

/-- The sum of a series that goes on until the next term is within the tolerance. -/
def sumSeries (ratio : Nat → Float) (first : Number) (tolerance : Value) : Numeric Number := do
  let tolerance ← Value.demand tolerance
  let start ← first.toFloat
  let (p, converged) := Series.run ratio tolerance longestSum start
  unless converged do throw .endless
  return seriesTotal first p.sum p.count

/-! ## Sine and cosine -/

/-- Half a turn. -/
def pi : Float := 3.141592653589793

/-- A quarter of a turn. -/
def halfPi : Float := pi / 2.0

/-- An eighth of a turn. -/
def quarterPi : Float := pi / 4.0

/-- A full turn. -/
def twoPi : Float := 2.0 * pi

/-- The angle reduced to a full turn. -/
def withinTurn (x : Float) : Float := flooredRemainder x twoPi

/-- The sine. -/
def sine (x : Number) (tolerance : Value) : Numeric Number := do
  unless x.isFinite do return .real nan
  let angle := withinTurn (← x.toFloat)
  sumSeries (Series.sineRatio angle) (.real angle) tolerance

/-- The cosine. Its first term is the integer one. -/
def cosine (x : Number) (tolerance : Value) : Numeric Number := do
  unless x.isFinite do return .real nan
  let angle := withinTurn (← x.toFloat)
  sumSeries (Series.cosineRatio angle) (.int 1) tolerance

end Calculator
