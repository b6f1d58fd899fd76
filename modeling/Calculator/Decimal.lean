import Calculator.Number

/-!
# Decimal numbers

A decimal number is a natural number of digits and a power of ten. Reading one gives the nearest
floating-point number.

Of the decimal numbers that read back to a given floating-point number, the shortest is the one on
the coarsest decimal grid; of two on that grid, the one nearer to the number. The search takes the
grids from coarse to fine. On a grid only the two neighbours of the number matter, for every other
point of the grid lies further away on the same side. Seventeen digits suffice for every number of the
format; the exact decimal value stands behind the search all the same, so that what is written always
reads back.

A floating-point number is written with these digits. From `10 ^ -4` up to, and without, `10 ^ 16`
they are positional and show a point; outside that range they stand before a signed power of ten. An
integer is written with all its digits.
-/

namespace Calculator

/-- The number `digits * 10 ^ exponent`. -/
structure Decimal where
  digits : Nat
  exponent : Int
deriving DecidableEq

namespace Decimal

/-- The floating-point number nearest to a decimal number, of two the one with an even mantissa;
infinity beyond the range. -/
def toFloat (d : Decimal) : Float :=
  .ofScientific d.digits (decide (d.exponent < 0)) d.exponent.natAbs

/-- The number read from digits before the point and digits behind it. -/
def ofDigits (whole fraction : List Char) : Decimal :=
  let value := (whole ++ fraction).foldl (fun n c => 10 * n + (c.toNat - '0'.toNat)) 0
  ⟨value, -fraction.length⟩

/-! ## The fewest digits that read back -/

/-- The number of decimal digits of `n`. -/
def digitCount (n : Nat) : Nat := (Nat.toDigits 10 n).length

/-- The least `k` with `num / den < 10 ^ k`, for a positive fraction. -/
def magnitude (num den : Nat) : Int :=
  if den ≤ num then digitCount (num / den)
  else 1 - digitCount ((den - 1) / num)

/-- Drops `count` zeros at most from the end of the digits. -/
def stripZeros : Nat → Decimal → Decimal
  | 0, d => d
  | count + 1, d =>
      if d.digits % 10 = 0 then stripZeros count ⟨d.digits / 10, d.exponent + 1⟩ else d

/-- The neighbour of `num / den` on the grid of `10 ^ grid` that reads back to `x`; of two the
nearer one, and of two equally near ones the even one. -/
def onGrid (x : Float) (num den : Nat) (grid : Int) : Option Decimal :=
  let num := num * Nat.pow 10 (-grid).toNat
  let den := den * Nat.pow 10 grid.toNat
  let below : Decimal := ⟨num / den, grid⟩
  let above : Decimal := ⟨num / den + 1, grid⟩
  match below.toFloat.toBits == x.toBits, above.toFloat.toBits == x.toBits with
  | true, true =>
      match compare (2 * (num % den)) den with
      | .lt => some below
      | .gt => some above
      | .eq => some (if below.digits % 2 = 0 then below else above)
  | true, false => some below
  | false, true => some above
  | false, false => none

/-- The exact decimal value of `num / 2 ^ places`. -/
def exact (num places : Nat) : Decimal := ⟨num * Nat.pow 5 places, -places⟩

/-- The shortest decimal number that reads back to the positive number `x` of exact value `a`. -/
def shortest (x : Float) (a : Scaled) : Decimal :=
  let (num, den) := a.fraction
  let top := magnitude num den
  let found := (List.range 17).findSome? fun (k : Nat) => onGrid x num den (top - (k + 1))
  let d := found.getD (exact num (-a.exponent).toNat)
  stripZeros (digitCount d.digits) d

/-! ## Writing numbers -/

/-- At least two digits. -/
def twoDigits (n : Nat) : List Char :=
  if n < 10 then ['0', Nat.digitChar n] else Nat.toDigits 10 n

/-- A power of ten is marked, signed, and has at least two digits. -/
def powerText (n : Int) : List Char :=
  'e' :: (if n < 0 then '-' else '+') :: twoDigits n.natAbs

/-- Lays out digits whose first stands `point` places before the point. -/
def layout (ds : List Char) (point : Int) : List Char :=
  if point ≤ -4 ∨ 16 < point then
    let (lead, rest) := ds.splitAt 1
    lead ++ (if rest.isEmpty then [] else '.' :: rest) ++ powerText (point - 1)
  else if point ≤ 0 then
    '0' :: '.' :: List.replicate (-point).toNat '0' ++ ds
  else
    let places := point.toNat
    let whole := ds.take places ++ List.replicate (places - ds.length) '0'
    let fraction := ds.drop places
    whole ++ '.' :: (if fraction.isEmpty then ['0'] else fraction)

/-- The text of a decimal number. -/
def text (d : Decimal) : List Char :=
  let ds := Nat.toDigits 10 d.digits
  layout ds (ds.length + d.exponent)

end Decimal

/-- The text of a floating-point number. -/
def floatText (x : Float) : String :=
  match Scaled.ofFloat? x with
  | none => if x.isNaN then "nan" else if x < 0.0 then "-inf" else "inf"
  | some a =>
      let magnitude := if a.mantissa = 0 then ['0', '.', '0'] else (Decimal.shortest x.abs a).text
      String.ofList (if a.negative then '-' :: magnitude else magnitude)

/-- The text of a number: an integer has no point. -/
def Number.text : Number → String
  | .int n => toString n
  | .real x => floatText x

/-- The text of a value. -/
def Value.text : Value → String
  | some a => a.text
  | none => "None"

/-- How a result is shown: a whole number with all its digits and no point, whatever its size, every
other finite number with the fewest digits that read back. -/
def resultText (x : Float) : String :=
  match Scaled.ofFloat? x with
  | none => if x.isNaN then "NaN" else if x < 0.0 then "-Infinity" else "Infinity"
  | some a => if a.isWhole then toString a.truncate else floatText x

end Calculator
