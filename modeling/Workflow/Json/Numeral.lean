import Workflow.Value.Number

/-!
JSON numerals. A numeral without point and exponent is a whole number if 64 bits hold it; every
other one is a double. The double is found in two roundings: the leading digits that 64 bits hold
are one double, which is then scaled by a power of ten.
-/

namespace Workflow.Json

/-- The digits of a numeral as they are written. -/
structure Numeral where
  negative : Bool
  whole : List Nat
  fraction : Option (List Nat)
  /-- Sign (true for a minus) and digits of the exponent. -/
  exponent : Option (Bool × List Nat)
  deriving DecidableEq, Repr

/-- Appends digits to a number as long as 64 bits hold the result; answers with the number and how
many digits are left. -/
def absorb (n : Nat) : List Nat → Nat × Nat
  | [] => (n, 0)
  | digit :: digits =>
    if n * 10 + digit < UInt64.size then absorb (n * 10 + digit) digits else (n, digits.length + 1)

/-- The number that decimal digits stand for. -/
def ofDigits (digits : List Nat) : Nat :=
  digits.foldl (fun n digit => n * 10 + digit) 0

def powerOfTen (k : Nat) : Float :=
  Decimal.nearest 1 k

/-- Scales a double by a power of ten; nothing when the result is too large. Below `10 ^ -308` the
scaling takes two divisions. -/
def scale (x : Float) (k : Int) : Option Float :=
  if x == 0.0 then some x
  else if 308 < k then none
  else if 0 ≤ k then
    let scaled := x * powerOfTen k.toNat
    if scaled.isFinite then some scaled else none
  else if -308 ≤ k then some (x / powerOfTen (-k).toNat)
  else if -616 ≤ k then some (x / powerOfTen 308 / powerOfTen (-k - 308).toNat)
  else some 0.0

namespace Numeral

/-- Is the numeral written with neither point nor exponent? -/
def isPlain (n : Numeral) : Bool :=
  n.fraction.isNone && n.exponent.isNone

/-- The leading digits that 64 bits hold, and the power of ten that scales them. -/
def parts (n : Numeral) : Nat × Int :=
  let (significand, dropped) := absorb 0 n.whole
  let fraction := n.fraction.getD []
  let (significand, left) := absorb significand fraction
  let written : Int :=
    match n.exponent with
    | none => 0
    | some (minus, digits) => if minus then -(ofDigits digits) else ofDigits digits
  (significand, dropped - (fraction.length - left : Nat) + written)

/-- The numeral as a double, unless it is too large. -/
def toFloat? (n : Numeral) : Option Float :=
  let (significand, power) := n.parts
  (scale (Decimal.nearestInt significand) power).map fun x => if n.negative then -x else x

/-- The number that the numeral stands for, unless it is too large. Zero with a minus sign is a
double, since no whole number keeps the sign. -/
def number? (n : Numeral) : Option Number :=
  let magnitude : Int := ofDigits n.whole
  let value := if n.negative then -magnitude else magnitude
  if n.isPlain && !(n.negative && magnitude == 0) then
    match Whole.ofInt? value with
    | some w => some (.whole w)
    | none => n.toFloat?.map .float
  else n.toFloat?.map .float

end Numeral

end Workflow.Json
