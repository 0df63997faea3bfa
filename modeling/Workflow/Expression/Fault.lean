import Workflow.Expression.Malformed

/-!
Why an expression has no value.
-/

namespace Workflow.Expression

/-- Operands or arguments that do not fit. Kinds of values are named as in `Value.kind`. -/
inductive Mismatch where
  | attributeOf (name kind : String)
  | indexNotWhole
  | indexOf (base position : String)
  | negationOf (kind : String)
  | contextName (kind : String)
  | lengthOf (kind : String)
  | argumentCount (function : String)
  | searchInString (kind : String)
  | keyOf (kind : String)
  | searchIn (kind : String)
  | operands (operator left right : String)
  | divisionByZero
  | incomparable
  deriving DecidableEq, Repr

def Mismatch.message : Mismatch → String
  | attributeOf name kind => "cannot read attribute '" ++ name ++ "' of " ++ kind
  | indexNotWhole => "list index must be an integer"
  | indexOf base position => "cannot index " ++ base ++ " with " ++ position
  | negationOf kind => "cannot negate " ++ kind
  | contextName kind => "ctx() expects a variable name, got " ++ kind
  | lengthOf kind => "len() of " ++ kind
  | argumentCount function => "wrong number of arguments for " ++ function ++ "()"
  | searchInString kind => "cannot search a string for " ++ kind
  | keyOf kind => "object keys are strings, got " ++ kind
  | searchIn kind => "cannot search " ++ kind
  | operands operator left right =>
    "unsupported operand types for " ++ operator ++ ": " ++ left ++ " and " ++ right
  | divisionByZero => "division by zero"
  | incomparable => "numbers are not comparable"

/-- What keeps an expression from having a value. -/
inductive Fault where
  | undefined (name : String)
  | mismatch (cause : Mismatch)
  | unknownFunction (name : String)
  deriving DecidableEq, Repr

end Workflow.Expression
