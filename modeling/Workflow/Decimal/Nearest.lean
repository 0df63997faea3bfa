import Workflow.Decimal.Binary

/-!
The double nearest to a quotient of whole numbers, and to a decimal. Ties go to the even
neighbour, and what lies beyond the greatest double becomes infinite.
-/

namespace Workflow.Decimal

/-- The whole number nearest to `num / den`; a tie goes to the even one. -/
def divideToEven (num den : Nat) : Nat :=
  let quotient := num / den
  let rest := num % den
  if 2 * rest < den then quotient
  else if den < 2 * rest then quotient + 1
  else if quotient % 2 = 0 then quotient
  else quotient + 1

/-- The greatest `e` with `2 ^ e ≤ num / den`, for positive operands. -/
def binaryOrder (num den : Nat) : Int :=
  let guess : Int := num.log2 - den.log2
  let reached := if 0 ≤ guess then den * twoTo guess ≤ num else den ≤ num * twoTo (-guess)
  if reached then guess else guess - 1

/-- The bits of the double nearest to `num / den`, for a positive `den`. The last place is
`2 ^ unit`, so adding the mantissa to the exponent field lets a carry move into the field. -/
def nearestBits (num den : Nat) : Nat :=
  if num = 0 then 0
  else
    let unit := max (binaryOrder num den - 52) leastExponent
    let mantissa :=
      if 0 ≤ unit then divideToEven num (den * twoTo unit)
      else divideToEven (num * twoTo (-unit)) den
    min ((unit - leastExponent).toNat * leadingBit + mantissa) infinityBits

/-- The bits of the double nearest to `digits * 10 ^ exponent`. Far outside the range of doubles
the answer is known before any power is formed. -/
def nearestDecimalBits (digits : Nat) (exponent : Int) : Nat :=
  if digits = 0 then 0
  else if 310 < exponent then infinityBits
  else if 0 ≤ exponent then nearestBits (digits * tenTo exponent) 1
  else if (digits.log2 : Int) + 1 + 3 * exponent < -1100 then 0
  else nearestBits digits (tenTo (-exponent))

/-- The double nearest to `digits * 10 ^ exponent`. -/
def nearest (digits : Nat) (exponent : Int) : Float :=
  Float.ofBits (UInt64.ofNat (nearestDecimalBits digits exponent))

def nearestInt (n : Int) : Float :=
  let magnitude := Float.ofBits (UInt64.ofNat (nearestBits n.natAbs 1))
  if n < 0 then -magnitude else magnitude

end Workflow.Decimal
