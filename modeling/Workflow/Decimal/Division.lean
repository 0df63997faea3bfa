import Workflow.Decimal.Nearest

/-!
Division of doubles with a whole quotient. The remainder of two doubles is itself a double, so it
is found exactly.
-/

namespace Workflow.Decimal

/-- The double of a sign and a quotient. -/
def signed (negative : Bool) (num den : Nat) : Float :=
  let magnitude := Float.ofBits (UInt64.ofNat (nearestBits num den))
  if negative then -magnitude else magnitude

/-- Drops the places behind the point; the sign stays, also that of zero. -/
def truncate (x : Float) : Float :=
  let b := Binary.ofFloat x
  if !x.isFinite || 0 ≤ b.exponent then x
  else signed b.negative (b.mantissa / twoTo (-b.exponent)) 1

/-- What is left of `x` after taking away `y` a whole number of times; it has the sign of `x`. -/
def remainder (x y : Float) : Float :=
  if !x.isFinite || y.isNaN || y == 0.0 then 0.0 / 0.0
  else if !y.isFinite then x
  else
    let a := Binary.ofFloat x
    let b := Binary.ofFloat y
    let place := min a.exponent b.exponent
    let left :=
      a.mantissa * twoTo (a.exponent - place) % (b.mantissa * twoTo (b.exponent - place))
    signed a.negative (left * twoTo place) (twoTo (-place))

/-- The whole quotient that leaves a remainder without a minus sign. -/
def euclideanQuotient (x y : Float) : Float :=
  let quotient := truncate (x / y)
  if remainder x y < 0.0 then if 0.0 < y then quotient - 1.0 else quotient + 1.0 else quotient

end Workflow.Decimal
