import Calculator.Number

/-!
# Arithmetic operators

Sum, difference and product are those of numbers. The quotient follows the floating-point format also
where the divisor is zero: zero by zero is not a number, anything else is an infinity whose sign is
that of the operands together. The remainder is that of a division that stops at a whole quotient,
exact and with the sign of the dividend; there is none for the divisor zero or an infinite dividend.
-/

namespace Calculator

/-- An arithmetic operator. -/
inductive Operator where
  | plus
  | minus
  | times
  | divide
  | modulo
deriving DecidableEq

namespace Operator

/-- The operator that a name denotes. -/
def ofName? : String → Option Operator
  | "+" => some plus
  | "-" => some minus
  | "*" => some times
  | "/" => some divide
  | "%" => some modulo
  | _ => none

/-- The value is there and equal to zero. -/
def isZero : Value → Bool
  | some a => a.equals (.int 0)
  | none => false

/-- The quotient. -/
def quotient (left right : Value) : Except Fault Float := do
  if isZero right then
    let a ← left.demand
    if a.equals (.int 0) || a.isNaN then return nan
    let x ← a.toFloat
    let zero ← (← right.demand).toFloat
    return copySign 1.0 x * copySign infinity zero
  (← left.demand).div (← right.demand)

/-- The remainder. -/
def remainder (left right : Value) : Except Fault Float := do
  if isZero right then return nan
  let x ← (← left.demand).toFloat
  if x.isInf then return nan
  let y ← (← right.demand).toFloat
  return truncatedRemainder x y

/-- Applies an operator. The result is a floating-point number in every case. -/
def apply (op : Operator) (left right : Value) : Except Fault Float := do
  match op with
  | plus => (← (← left.demand).add (← right.demand)).toFloat
  | minus => (← (← left.demand).sub (← right.demand)).toFloat
  | times => (← (← left.demand).mul (← right.demand)).toFloat
  | divide => quotient left right
  | modulo => remainder left right

end Operator

end Calculator
