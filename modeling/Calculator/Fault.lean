/-!
# Faults

What can go wrong while a number is computed. A fault is a cause, not a text; `Fault.message` is the
only place that words it.
-/

namespace Calculator

/-- Why a computation gave no number. -/
inductive Fault where
  /-- A number was needed and none was there. -/
  | missing
  /-- A function was given too few or too many arguments. -/
  | wrongArguments
  /-- An integer was needed, and the operand is not a number. -/
  | notANumber
  /-- An integer was needed, and the operand is infinite. -/
  | infinite
  /-- An integer lies beyond the range of the floating-point format. -/
  | integerTooLarge
  /-- The quotient of two integers lies beyond the range of the floating-point format. -/
  | quotientTooLarge
  /-- A division by zero that no rule gives a value. -/
  | zeroDivision
  /-- A series whose terms never fall below the tolerance. -/
  | endless
  /-- A function that calls itself went deeper than the limit. -/
  | tooDeep
  /-- A function supplied from outside failed. A fault that is not numeric is no statement about
  the arguments. -/
  | supplied (kind message : String) (numeric : Bool)
deriving DecidableEq

namespace Fault

/-- What is shown of a fault. -/
def message : Fault → String
  | missing => "a number is missing"
  | wrongArguments => "wrong number of arguments"
  | notANumber => "cannot convert float NaN to integer"
  | infinite => "cannot convert float infinity to integer"
  | integerTooLarge => "int too large to convert to float"
  | quotientTooLarge => "integer division result too large for a float"
  | zeroDivision => "float division by zero"
  | endless => "the series does not end"
  | tooDeep => "nested too deeply"
  | supplied _ message _ => message

/-- The fault says that the function has no value at its arguments, so a call reports the function
as unsupported there. Exhausted limits and failures of another kind are passed on as they are. -/
def isNumeric : Fault → Bool
  | endless => false
  | tooDeep => false
  | supplied _ _ numeric => numeric
  | _ => true

end Fault

end Calculator
