/-!
Finite doubles as whole numbers times powers of two, read from the fields of the 64-bit format.
-/

namespace Workflow.Decimal

/-- The power of two; where the exponent is negative, one. -/
def twoTo (exponent : Int) : Nat :=
  Nat.pow 2 exponent.toNat

/-- The power of ten; where the exponent is negative, one. -/
def tenTo (exponent : Int) : Nat :=
  Nat.pow 10 exponent.toNat

/-- A sign and the magnitude `mantissa * 2 ^ exponent`. -/
structure Binary where
  negative : Bool
  mantissa : Nat
  exponent : Int
  deriving DecidableEq, Repr

/-- The mantissa of the smallest normal number, the hidden leading bit of all of them. -/
def leadingBit : Nat := 0x10000000000000

/-- The exponent of the last place of the subnormal numbers, the least there is. -/
def leastExponent : Int := -1074

/-- The bits of positive infinity; every smaller pattern without a sign is a finite number. -/
def infinityBits : Nat := 2047 * leadingBit

def signBit : Nat := 0x8000000000000000

/-- Reads the three fields of a pattern of 64 bits that is neither infinite nor a NaN. -/
def Binary.ofBits (bits : Nat) : Binary :=
  let field := bits / leadingBit % 2048
  let fraction := bits % leadingBit
  { negative := signBit ≤ bits
    mantissa := if field = 0 then fraction else leadingBit + fraction
    exponent := if field = 0 then leastExponent else leastExponent + field - 1 }

/-- The magnitude and sign of a finite double. -/
def Binary.ofFloat (x : Float) : Binary :=
  Binary.ofBits x.toBits.toNat

/-- Does the pattern stand for a number with a magnitude? -/
def isFiniteBits (bits : Nat) : Bool :=
  bits % signBit < infinityBits

end Workflow.Decimal
