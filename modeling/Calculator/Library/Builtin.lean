import Calculator.Library.Inverse
import Calculator.Library.Tangent

/-!
# The functions of the library

Magnitude, factorial and power need no approximation. A power has a whole number of factors: an
exponent that is not whole is rounded away from zero. It is computed by repeated squaring, so the
number of products grows with the length of the exponent. Integers stay integers.

`Builtin` names all functions, and `Builtin.apply` applies one to the arguments it is given. The
approximating functions take a tolerance, either as second argument or apart, but not both; without
one each has its own.

A registry says which functions an expression can call, how many arguments each takes, and what it
computes. A function gets the values of its arguments and gives a value, perhaps none.
-/

namespace Calculator

/-! ## Factorial and power -/

/-- The product of the whole numbers from one to the integer part of `n`. -/
def factorial (n : Number) : Except Fault Number := do
  if n.equals (.int 0) || n.equals (.int 1) then return .int 1
  let top ← n.truncate
  return .int ((List.range (top - 1).toNat).foldl (fun product k => product * ((k + 2 : Nat) : Int)) 1)

/-- `result * base ^ steps` by repeated squaring, the least significant bit of `steps` first. -/
def timesPower {α : Type} [Mul α] (result base : α) (steps : Nat) : α :=
  if steps = 0 then result
  else timesPower (if steps % 2 = 1 then result * base else result) (base * base) (steps / 2)
termination_by steps

/-- The number of factors in a power: the magnitude of the exponent, rounded up. -/
def factorCount (exponent : Number) : Except Fault Nat := do
  let whole ← exponent.truncate
  return if (Number.int whole).equals exponent then whole.natAbs else whole.natAbs + 1

/-- A power with at least one factor. -/
def Number.powerOf : Number → Nat → Number
  | .int n, steps => .int (timesPower 1 n steps)
  | .real x, steps => .real (timesPower 1.0 x steps)

/-- The base to the power of the exponent. The power of zero factors is the integer one, whatever the
base. A negative exponent inverts the base first, and zero has an infinite inverse. There is no power
for an exponent that is not finite. -/
def power (base exponent : Value) : Except Fault Number := do
  let e ← exponent.demand
  if e.equals (.int 0) then return .int 1
  unless e.isFinite do return .real nan
  let steps ← factorCount e
  let b ← base.demand
  if e.less (.int 0) then
    if b.equals (.int 0) then return .real infinity
    return (Number.real (← (Number.int 1).div b)).powerOf steps
  return b.powerOf steps

/-! ## Functions by name -/

/-- A function of the library. -/
inductive Builtin where
  | abs
  | factorial
  | pow
  | sqrt
  | sin
  | cos
  | tan
  | asin
  | acos
  | atan
deriving DecidableEq

/-- The tolerance of functions that give about four digits. -/
def coarseTolerance : Float := 1e-4

/-- The tolerance of functions that give about all digits. -/
def fineTolerance : Float := 1e-15

namespace Builtin

/-- The name of a function. -/
def name : Builtin → String
  | abs => "abs"
  | factorial => "factorial"
  | pow => "pow"
  | sqrt => "sqrt"
  | sin => "sin"
  | cos => "cos"
  | tan => "tan"
  | asin => "asin"
  | acos => "acos"
  | atan => "atan"

/-- All functions of the library. -/
def all : List Builtin := [abs, factorial, pow, sqrt, sin, cos, tan, asin, acos, atan]

/-- The function of a given name. -/
def ofName? (name : String) : Option Builtin := all.find? (·.name == name)

/-- The tolerance that a function uses unless another is given. -/
def tolerance : Builtin → Float
  | asin | atan => fineTolerance
  | _ => coarseTolerance

/-- Applies an approximating function to a number. -/
def approximate (cap : Int) (x : Number) (tolerance : Value) : Builtin → Numeric Number
  | sqrt => squareRoot cap x tolerance
  | sin => sine x tolerance
  | cos => cosine x tolerance
  | tan => tangent cap x tolerance
  | asin => arcsine cap x tolerance
  | acos => arccosine cap x tolerance
  | atan => arctangent cap x tolerance
  | _ => throw .wrongArguments

/-- Applies a function under an iteration cap to arguments, and perhaps to a tolerance that is given
apart from them. -/
def apply (cap : Int) (f : Builtin) (arguments : List Value) (apart : Option Value) :
    Numeric Number :=
  match f, arguments, apart with
  | abs, [x], none => return (← Value.demand x).abs
  | factorial, [n], none => do (Calculator.factorial (← Value.demand n) : Except Fault Number)
  | pow, [base, exponent], none => (power base exponent : Except Fault Number)
  | abs, _, _ | factorial, _, _ | pow, _, _ => throw .wrongArguments
  | f, [x], none => do f.approximate cap (← Value.demand x) (some (.real f.tolerance))
  | f, [x], some tolerance => do f.approximate cap (← Value.demand x) tolerance
  | f, [x, tolerance], none => do f.approximate cap (← Value.demand x) tolerance
  | _, _, _ => throw .wrongArguments

end Builtin

/-! ## Registries -/

/-- A function that expressions can call. -/
structure Entry where
  arity : Int
  apply : List Value → Numeric Value

/-- Functions by name. -/
abbrev Registry := List (String × Entry)

namespace Registry

/-- The function of a given name. -/
def find? (r : Registry) (name : String) : Option Entry := r.lookup name

/-- A function of the library under its own name, at its own tolerance and the default cap. -/
def builtin (f : Builtin) (arity : Int) : String × Entry :=
  (f.name, ⟨arity, fun arguments => some <$> f.apply defaultCap arguments none⟩)

/-- The functions that every expression can call. -/
def default : Registry :=
  [builtin .cos 1, builtin .acos 1, builtin .sin 1, builtin .asin 1, builtin .tan 1,
    builtin .atan 1, builtin .sqrt 1, builtin .pow 2]

/-- The names of the functions with their numbers of arguments, in the order of the names. -/
def signatures (r : Registry) : List (String × Int) :=
  (r.map fun f => (f.1, f.2.arity)).mergeSort fun a b => a.1 ≤ b.1

end Registry

end Calculator
