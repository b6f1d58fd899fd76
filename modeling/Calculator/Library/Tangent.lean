import Calculator.Library.Series

/-!
# Tangent

The coefficients of the series of the tangent follow one from the others: the derivative of the
tangent is one plus its square, so coefficient `k` is the sum of the products of all pairs of earlier
ones whose numbers add up to `k - 1`, divided by `2 k + 1`. Computed coefficients are kept in a table
that only grows, and a longer table answers as a shorter one does.

The angle is reduced to half a turn around zero. Up to an eighth of a turn the series is summed
directly, and beyond it the tangent is the inverse of that of the complement.
-/

namespace Calculator

/-- The first coefficients of the tangent series, at least one. -/
abbrev TangentTable (α : Type) := List α

namespace TangentTable

variable {α : Type} [Add α] [Mul α] [Div α] [NatCast α]

/-- The table before any series was summed. -/
def initial : TangentTable α := [((1 : Nat) : α)]

/-- The coefficient that follows the given ones. -/
def next (table : TangentTable α) : α :=
  (List.zipWith (· * ·) table table.reverse).foldl (· + ·) ((0 : Nat) : α)
    / ((2 * table.length + 1 : Nat) : α)

/-- The table with so many further coefficients. -/
def grow (table : TangentTable α) : Nat → TangentTable α
  | 0 => table
  | more + 1 => grow (table ++ [table.next]) more

/-- The table with coefficient `n`, grown if it is too short. -/
def upTo (table : TangentTable α) (n : Nat) : TangentTable α :=
  table.grow (n + 1 - table.length)

/-- Coefficient `n` of a table that holds it. -/
def coefficient (table : TangentTable α) (n : Nat) : α := table.getD n ((0 : Nat) : α)

end TangentTable

/-- A partial sum of the tangent series, the term added last, and the table so far. -/
structure TangentSum (α : Type) where
  sum : α
  term : α
  power : α
  count : Nat
  table : TangentTable α

namespace Tangent

/-- The sum that holds the first term alone. -/
def start {α : Type} (x : α) (table : TangentTable α) : TangentSum α := ⟨x, x, x, 0, table⟩

/-- Adds the next term. -/
def addTerm {α : Type} [Add α] [Mul α] [Div α] [NatCast α] (x : α) (s : TangentSum α) :
    TangentSum α :=
  let table := s.table.upTo (s.count + 1)
  let power := s.power * (x * x)
  let term := table.coefficient (s.count + 1) * power
  ⟨s.sum + term, term, power, s.count + 1, table⟩

/-- Sums the series until the term added last is within the tolerance or the budget is used up. -/
def run (x : Float) (tolerance : Number) (budget : Nat) (table : TangentTable Float) :
    TangentSum Float × Bool :=
  stepFirst (fun s => within tolerance s.term) (addTerm x) budget (start x table)

/-- The sum of the series, and the table afterwards, also where there is no sum. The first term needs
no step, so there is one step fewer than the cap; without a step the tolerance is not asked for, and
with one it is asked for when the first coefficient is there. -/
def series (cap : Int) (x : Float) (tolerance : Value) (table : TangentTable Float) :
    Numeric Float × TangentTable Float :=
  if cap ≤ 1 then
    (do warn ⟨.tangent, .real x, cap⟩; return x, table)
  else
    match tolerance with
    | none => (throw .missing, table.upTo 1)
    | some tolerance =>
        let (s, converged) := run x tolerance (cap - 1).toNat table
        (do unless converged do warn ⟨.tangent, .real x, cap⟩
            return s.sum, s.table)

/-- The angle reduced to half a turn around zero. -/
def withinHalfTurn (x : Float) : Float := halfPi - flooredRemainder (halfPi - x) pi

/-- The inverse of the tangent of the complement. -/
def invert (cotangent : Float) : Numeric Float :=
  if cotangent == 0.0 then throw .zeroDivision else return 1.0 / cotangent

/-- What an angle lacks of the quarter turn on its side. -/
def complement (angle : Float) : Float := (if 0.0 < angle then halfPi else -halfPi) - angle

/-- The tangent of an angle between minus and plus a quarter of a turn, and the table afterwards. -/
def ofReduced (cap : Int) (angle : Float) (tolerance : Value) (table : TangentTable Float) :
    Numeric Float × TangentTable Float :=
  if angle.abs ≤ quarterPi then series cap angle tolerance table
  else if complement angle == 0.0 then (return infinity, table)
  else
    let (cotangent, table) := series cap (complement angle) tolerance table
    (cotangent >>= invert, table)

/-- The tangent computed with a table of coefficients, and the table afterwards, also where there is
no tangent. -/
def withTable (cap : Int) (x : Number) (tolerance : Value) (table : TangentTable Float) :
    Numeric Float × TangentTable Float :=
  if x.isFinite then
    match x.toFloat with
    | .ok x => ofReduced cap (withinHalfTurn x) tolerance table
    | .error f => (throw f, table)
  else (return nan, table)

end Tangent

/-- The tangent. -/
def tangent (cap : Int) (x : Number) (tolerance : Value) : Numeric Number :=
  .real <$> (Tangent.withTable cap x tolerance .initial).1

end Calculator
