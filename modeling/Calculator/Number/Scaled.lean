/-!
# Finite numbers of the floating-point format, exactly

A finite binary64 number is a sign, a natural mantissa and a power of two. On that reading the
operations which need no rounding are integer arithmetic: the remainder of a division that stops at
a whole quotient, the integer part, the comparison with an integer.

* `Scaled.ofFloat?` reads a number, and refuses the infinities and what is not a number.
* `Scaled.toFloat` is the nearest number of the format.
* `Scaled.remainder`, `Scaled.truncate`, `Scaled.compareInt` are exact.
-/

namespace Calculator

/-- The number `± mantissa * 2 ^ exponent`. A zero keeps its sign. -/
structure Scaled where
  negative : Bool
  mantissa : Nat
  exponent : Int
deriving DecidableEq

namespace Scaled

/-! ## Reading and writing floating-point numbers -/

/-- The exact value of a finite number. -/
def ofFloat? (x : Float) : Option Scaled :=
  match x.toModel.unpack with
  | .finite sign mantissa exponent _ => some ⟨sign == .negative, mantissa, exponent⟩
  | .zero sign => some ⟨sign == .negative, 0, 0⟩
  | .infinity _ => none
  | .notANumber => none

/-- The nearest number of the format, of two the one with an even mantissa; an infinity beyond its
range. -/
def toFloat (a : Scaled) : Float :=
  let sign := if a.negative then .negative else .positive
  .ofModel (.pack (.round .binary64 sign a.mantissa a.exponent))

/-! ## Exact operations -/

/-- The magnitude counted in units of `2 ^ unit`, for a unit that is no coarser than the number. -/
def countOf (a : Scaled) (unit : Int) : Nat :=
  a.mantissa * Nat.pow 2 (a.exponent - unit).toNat

/-- What is left of `a` after taking away a whole multiple of `b`, as many as fit: smaller than `b`
in magnitude, with the sign of `a`. -/
def remainder (a b : Scaled) : Scaled :=
  let unit := min a.exponent b.exponent
  ⟨a.negative, a.countOf unit % b.countOf unit, unit⟩

/-- The magnitude as a fraction of natural numbers. -/
def fraction (a : Scaled) : Nat × Nat :=
  (a.mantissa * Nat.pow 2 a.exponent.toNat, Nat.pow 2 (-a.exponent).toNat)

/-- Applies the sign to a magnitude. -/
def signed (a : Scaled) (magnitude : Nat) : Int :=
  if a.negative then -magnitude else magnitude

/-- The integer part: what stands before the point. -/
def truncate (a : Scaled) : Int :=
  a.signed (a.fraction.1 / a.fraction.2)

/-- Nothing stands behind the point. -/
def isWhole (a : Scaled) : Bool :=
  a.fraction.1 % a.fraction.2 == 0

/-- Compares a finite number with an integer, without rounding either. -/
def compareInt (a : Scaled) (n : Int) : Ordering :=
  compare (a.signed a.fraction.1) (n * a.fraction.2)

end Scaled

/-! ## Constants and exact operations on floating-point numbers -/

/-- What is not a number. -/
def nan : Float := 0.0 / 0.0

/-- Positive infinity. -/
def infinity : Float := 1.0 / 0.0

/-- The remainder of a division that stops at a whole quotient, with the sign of the dividend. An
infinite divisor leaves a finite dividend as it is; there is no remainder of an infinite dividend
or for the divisor zero. -/
def truncatedRemainder (x y : Float) : Float :=
  match Scaled.ofFloat? x, Scaled.ofFloat? y with
  | some a, some b => if b.mantissa = 0 then nan else (a.remainder b).toFloat
  | some _, none => if y.isNaN then nan else x
  | none, _ => nan

/-- The magnitude of `x` with the sign of `y`. -/
def copySign (x y : Float) : Float :=
  if y.toBits >>> 63 = 1 then -x.abs else x.abs

/-- The remainder of a division that rounds the quotient down: it has the sign of the divisor. The
truncated remainder is exact; only the divisor added to one of the other sign may round. -/
def flooredRemainder (x y : Float) : Float :=
  let r := truncatedRemainder x y
  if r == 0.0 then copySign 0.0 y
  else if (y < 0.0) != (r < 0.0) then r + y
  else r

end Calculator
