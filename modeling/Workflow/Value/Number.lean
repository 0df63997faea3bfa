import Workflow.Decimal.Nearest
import Workflow.Decimal.Layout

/-!
The numbers of the data: whole numbers of 64 bits, signed or unsigned, and doubles.
-/

namespace Workflow

/-- A whole number that 64 bits hold, signed or unsigned. -/
structure Whole where
  val : Int
  inRange : -0x8000000000000000 ≤ val ∧ val < 0x10000000000000000
  deriving DecidableEq, Repr

def Whole.ofInt? (n : Int) : Option Whole :=
  if h : -0x8000000000000000 ≤ n ∧ n < 0x10000000000000000 then some ⟨n, h⟩ else none

def Whole.signed? (n : Whole) : Option Int :=
  if n.val < 0x8000000000000000 then some n.val else none

/-- A number is whole or a double; the two never mix, even where they stand for the same value. -/
inductive Number where
  | whole (n : Whole)
  | float (x : Float)

namespace Number

/-- The double nearest to the number. -/
def toFloat : Number → Float
  | whole n => Decimal.nearestInt n.val
  | float x => x

/-- The number as a signed word of 64 bits, if it is one. -/
def signed? : Number → Option Int
  | whole n => n.signed?
  | float _ => none

/-- Numbers of one kind are the same when their values are equal; numbers of two kinds never are. -/
def same : Number → Number → Bool
  | whole m, whole n => m.val == n.val
  | float x, float y => x == y
  | _, _ => false

/-- Doubles in JSON are positional from 0.00001 to below 1e16, and exponents carry their sign. -/
def jsonLayout : Decimal.Layout := ⟨-5, 15, "+"⟩

def json : Number → String
  | whole n => toString n.val
  | float x => jsonLayout.text x

end Number

end Workflow
