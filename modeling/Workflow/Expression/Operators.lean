import Workflow.Expression.Basic
import Workflow.Expression.Fault
import Workflow.Text.Search
import Workflow.Json.Writer

/-!
What the operators of expressions compute. Arithmetic on signed words of 64 bits is exact as long
as the result is one, and falls back to doubles otherwise.
-/

namespace Workflow.Expression

/-- The whole number as a datum, if a signed word of 64 bits holds it. -/
def signedValue? (n : Int) : Option Value :=
  if h : -0x8000000000000000 ≤ n ∧ n < 0x8000000000000000 then some (.ofWhole ⟨n, by omega⟩)
  else none

/-- The exact result of an operation on signed words, if it is one again. A quotient is exact when
nothing is left over. -/
def wholeResult? : BinaryOp → Int → Int → Option Value
  | .add, x, y => signedValue? (x + y)
  | .subtract, x, y => signedValue? (x - y)
  | .multiply, x, y => signedValue? (x * y)
  | .divide, x, y => if x.tmod y = 0 then signedValue? (x.tdiv y) else none
  | _, _, _ => none

/-- The result of an operation on doubles. -/
def inexact (op : BinaryOp) (x y : Float) : Except Mismatch Value :=
  match op with
  | .add => .ok (.ofFloat (x + y))
  | .subtract => .ok (.ofFloat (x - y))
  | .multiply => .ok (.ofFloat (x * y))
  | _ => if y == 0.0 then .error .divisionByZero else .ok (.ofFloat (x / y))

def arithmetic (op : BinaryOp) (a b : Number) : Except Mismatch Value :=
  match a.signed?, b.signed? with
  | some x, some y =>
    if op = .divide ∧ y = 0 then .error .divisionByZero
    else
      match wholeResult? op x y with
      | some value => .ok value
      | none => inexact op a.toFloat b.toFloat
  | _, _ => inexact op a.toFloat b.toFloat

def negative (n : Number) : Value :=
  match n.signed?.bind fun x => signedValue? (-x) with
  | some value => value
  | none => .ofFloat (-n.toFloat)

/-- Equality: numbers are compared as doubles, all else by structure. -/
def equals : Value → Value → Bool
  | .number a, .number b => a.toFloat == b.toFloat
  | left, right => left.same right

/-- The order of two numbers or two strings. -/
def compare : Value → Value → Except Mismatch Ordering
  | .number a, .number b =>
    let x := a.toFloat
    let y := b.toFloat
    if x < y then .ok .lt
    else if x == y then .ok .eq
    else if y < x then .ok .gt
    else .error .incomparable
  | .string a, .string b => .ok (if a < b then .lt else if a = b then .eq else .gt)
  | left, right => .error (.operands "comparison" left.kind right.kind)

/-- Is the value an item of the list, a part of the string or a key of the object? -/
def isMember : Value → Value → Except Mismatch Bool
  | left, .list items => .ok (items.any fun item => equals item left)
  | .string part, .string text => .ok (Text.occursIn part.toList text.toList)
  | left, .string _ => .error (.searchInString left.kind)
  | .string key, .object members => .ok (members.lookup key).isSome
  | left, .object _ => .error (.keyOf left.kind)
  | _, right => .error (.searchIn right.kind)

/-- How messages write an arithmetic operator. -/
def symbol : BinaryOp → String
  | .add => "+"
  | .subtract => "-"
  | .multiply => "*"
  | .divide => "/"
  | _ => "operator"

def applyBinary (op : BinaryOp) (left right : Value) : Except Mismatch Value :=
  match op, left, right with
  | .and, _, _ => .ok (.bool (left.truthy && right.truthy))
  | .or, _, _ => .ok (.bool (left.truthy || right.truthy))
  | .equal, _, _ => .ok (.bool (equals left right))
  | .unequal, _, _ => .ok (.bool (!equals left right))
  | .less, _, _ => (compare left right).map fun o => .bool (o == .lt)
  | .atMost, _, _ => (compare left right).map fun o => .bool (o != .gt)
  | .greater, _, _ => (compare left right).map fun o => .bool (o == .gt)
  | .atLeast, _, _ => (compare left right).map fun o => .bool (o != .lt)
  | .member, _, _ => (isMember left right).map .bool
  | .add, .string a, .string b => .ok (.string (a ++ b))
  | .add, .list xs, .list ys => .ok (.list (xs ++ ys))
  | op, .number a, .number b => arithmetic op a b
  | op, _, _ => .error (.operands (symbol op) left.kind right.kind)

/-- The item or member at a position. Negative positions count from the end, and what is not there
is null. -/
def elementAt : Value → Value → Except Mismatch Value
  | .list items, .number n =>
    match n.signed? with
    | none => .error .indexNotWhole
    | some i =>
      let i := if i < 0 then items.length + i else i
      .ok (if i < 0 then .null else items[i.toNat]?.getD .null)
  | .object members, .string key => .ok ((members.lookup key).getD .null)
  | base, position => .error (.indexOf base.kind position.kind)

/-- The length of a string in characters, or of a list or an object. -/
def length : Value → Except Mismatch Value
  | .string s => .ok (.ofNat s.length)
  | .list items => .ok (.ofNat items.length)
  | .object members => .ok (.ofNat members.length)
  | value => .error (.lengthOf value.kind)

end Workflow.Expression
