import Workflow.Decimal.Binary

/-!
The shortest decimal that reads back as a given double. The reals that round to the double form an
interval around it; of the powers of ten with a multiple in the interval the greatest is taken,
and of its multiples the one nearest to the double.
-/

namespace Workflow.Decimal

/-- The decimal `digits * 10 ^ exponent`. -/
structure Scaled where
  digits : Nat
  exponent : Int
  deriving DecidableEq, Repr

/-- The reals that round to `mantissa * 2 ^ exponent`, as numerators over one common denominator.
The gap below a power of two is half the gap above it, and the ends belong to the interval
exactly when the mantissa is even. -/
structure Interval where
  lower : Nat
  middle : Nat
  upper : Nat
  denominator : Nat
  closed : Bool
  deriving DecidableEq, Repr

/-- The interval of a positive magnitude, in quarters of its last place. -/
def Interval.ofBinary (b : Binary) : Interval :=
  let below := if b.mantissa = leadingBit ∧ leastExponent < b.exponent then 1 else 2
  let quarter := b.exponent - 2
  let scale := twoTo quarter
  { lower := (4 * b.mantissa - below) * scale
    middle := 4 * b.mantissa * scale
    upper := (4 * b.mantissa + 2) * scale
    denominator := twoTo (-quarter)
    closed := b.mantissa % 2 = 0 }

/-- Is `multiple / scale` a point of the interval? -/
def Interval.contains (i : Interval) (multiple scale : Nat) : Bool :=
  let point := multiple * i.denominator
  if i.closed then i.lower * scale ≤ point && point ≤ i.upper * scale
  else i.lower * scale < point && point < i.upper * scale

/-- The multiple of `10 ^ k` in the interval that lies nearest to its middle, if there is one; a
tie goes to the even multiple. The two multiples around the middle are the only candidates. -/
def Interval.multipleOf (i : Interval) (k : Int) : Option Nat :=
  let up := tenTo k
  let down := tenTo (-k)
  let i := { i with denominator := i.denominator * up }
  let lesser := i.middle * down / i.denominator
  let greater := lesser + 1
  match i.contains lesser down, i.contains greater down with
  | true, false => some lesser
  | false, true => some greater
  | false, false => none
  | true, true =>
    let toLesser := i.middle * down - lesser * i.denominator
    let toGreater := greater * i.denominator - i.middle * down
    if toLesser < toGreater then some lesser
    else if toGreater < toLesser then some greater
    else if lesser % 2 = 0 then some lesser
    else some greater

/-- Tries the powers of ten downwards from `10 ^ k`. -/
def Interval.shortestFrom (i : Interval) (k : Int) : Nat → Scaled
  | 0 => ⟨0, 0⟩
  | tries + 1 =>
    match i.multipleOf k with
    | some digits => ⟨digits, k⟩
    | none => i.shortestFrom (k - 1) tries

/-- The shortest decimal of a positive magnitude. The search starts above the leading digit;
seventeen digits always suffice. -/
def shortest (b : Binary) : Scaled :=
  let order : Int := (b.mantissa.log2 : Int) + 1 + b.exponent
  (Interval.ofBinary b).shortestFrom (order * 30103 / 100000 + 1) 21

/-- The exponent of the leading digit: the magnitude is `d.ddd * 10 ^ order`. -/
def Scaled.order (d : Scaled) : Int :=
  d.exponent + (Nat.toDigits 10 d.digits).length - 1

end Workflow.Decimal
