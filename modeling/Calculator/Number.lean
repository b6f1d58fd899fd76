import Calculator.Fault
import Calculator.Number.Scaled

/-!
# Numbers

A number is an integer of any size or a floating-point number. The two are kept apart: integers add,
subtract and multiply exactly, a mixed operation is carried out on floating-point numbers, and a
comparison never rounds. A number may also be missing.

Every conversion of an integer to floating point is to the nearest value, and one beyond the range
is a fault.
-/

namespace Calculator

/-- An integer or a floating-point number. -/
inductive Number where
  | int (n : Int)
  | real (x : Float)
deriving DecidableEq

/-- A number, or none. -/
abbrev Value := Option Number

namespace Number

instance : Inhabited Number := ⟨int 0⟩

/-- Not a number. -/
def isNaN : Number → Bool
  | int _ => false
  | real x => x.isNaN

/-- Neither infinite nor NaN. -/
def isFinite : Number → Bool
  | int _ => true
  | real x => x.isFinite

/-! ## Conversions -/

/-- The floating-point number nearest to a number. -/
def toFloat : Number → Except Fault Float
  | int n => let x := Float.ofInt n; if x.isInf then throw .integerTooLarge else pure x
  | real x => pure x

/-- The integer part of a number. -/
def truncate : Number → Except Fault Int
  | int n => pure n
  | real x =>
      match Scaled.ofFloat? x with
      | some a => pure a.truncate
      | none => throw (if x.isNaN then .notANumber else .infinite)

/-! ## Comparison -/

/-- The order of an integer and a floating-point number, none if the latter is NaN. -/
def compareIntFloat (n : Int) (y : Float) : Option Ordering :=
  match Scaled.ofFloat? y with
  | some b => some (b.compareInt n).swap
  | none => if y.isNaN then none else some (if y < 0.0 then .gt else .lt)

/-- The order of two floating-point numbers, none if one is NaN. -/
def compareFloats (x y : Float) : Option Ordering :=
  if x < y then some .lt else if x == y then some .eq else if y < x then some .gt else none

/-- The order of two numbers by their exact values, none if one is NaN. -/
protected def compare : Number → Number → Option Ordering
  | int m, int n => some (compare m n)
  | int m, real y => compareIntFloat m y
  | real x, int n => (compareIntFloat n x).map .swap
  | real x, real y => compareFloats x y

/-- The numbers are equal in value. -/
protected def equals (a b : Number) : Bool := a.compare b == some .eq

/-- The first number is below the second. -/
protected def less (a b : Number) : Bool := a.compare b == some .lt

/-- The first number is not above the second. False if one is NaN. -/
protected def atMost (a b : Number) : Bool := (a.compare b).any (·.isLE)

/-! ## Arithmetic -/

/-- Combines two integers exactly, and otherwise the nearest floating-point numbers. -/
def combine (exact : Int → Int → Int) (rounded : Float → Float → Float) :
    Number → Number → Except Fault Number
  | int m, int n => pure (int (exact m n))
  | a, b => do
      let x ← a.toFloat
      let y ← b.toFloat
      pure (real (rounded x y))

/-- The sum. -/
def add : Number → Number → Except Fault Number := combine (· + ·) (· + ·)

/-- The difference. -/
def sub : Number → Number → Except Fault Number := combine (· - ·) (· - ·)

/-- The product. -/
def mul : Number → Number → Except Fault Number := combine (· * ·) (· * ·)

/-- The negation. -/
def neg : Number → Number
  | int n => int (-n)
  | real x => real (-x)

/-- The magnitude: a number that is not at least zero is negated, so a negative zero stays. -/
def abs (a : Number) : Number :=
  if (int 0).atMost a then a else a.neg

/-- The floating-point number nearest to the quotient of two naturals, with a sign. -/
def roundedQuotient (negative : Bool) (num den : Nat) : Float :=
  let sign := if negative then .negative else .positive
  if hn : 0 < num then
    if hd : 0 < den then
      .ofModel (.pack (.div .binary64 (.finite sign num 0 hn) (.finite .positive den 0 hd)))
    else copySign infinity (if negative then -1.0 else 1.0)
  else copySign 0.0 (if negative then -1.0 else 1.0)

/-- The quotient, a floating-point number in every case. Of two integers it is rounded once, however
large they are. -/
def div : Number → Number → Except Fault Float
  | int m, int n =>
      if n = 0 then throw .zeroDivision
      else
        let q := roundedQuotient (decide (m < 0) != decide (n < 0)) m.natAbs n.natAbs
        if q.isInf then throw .quotientTooLarge else pure q
  | a, b => do
      let x ← a.toFloat
      let y ← b.toFloat
      if y == 0.0 then throw .zeroDivision else pure (x / y)

end Number

namespace Value

/-- The number that must be there. -/
def demand : Value → Except Fault Number
  | some a => pure a
  | none => throw .missing

/-- Equality of values: missing equals missing, numbers go by their value. -/
def equals : Value → Value → Bool
  | none, none => true
  | some a, some b => a.equals b
  | _, _ => false

end Value

end Calculator
