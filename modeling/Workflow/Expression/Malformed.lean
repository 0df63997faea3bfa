import Workflow.Expression.Token

/-!
Why a text is no expression.
-/

namespace Workflow.Expression

def maxDepth : Nat := 128

inductive Malformed where
  | numberTooLarge (digits : String)
  | unterminatedString
  | unexpectedCharacter (c : Char) (position : Nat)
  | empty
  | unexpectedToken (found : Token)
  | unexpectedEnd
  | expectedToken (expected : Token) (found : Option Token)
  | expectedAttribute (found : Option Token)
  | tooDeep

namespace Malformed

/-- What was met: a token, or the end of the text. -/
def met : Option Token → String
  | some token => token.shown
  | none => "end of expression"

def message : Malformed → String
  | numberTooLarge digits =>
    "invalid number '" ++ digits ++ "': number too large to fit in target type"
  | unterminatedString => "unterminated string literal"
  | unexpectedCharacter c position =>
    "unexpected character '" ++ String.singleton c ++ "' at position " ++ toString position
  | empty => "empty expression"
  | unexpectedToken found => "unexpected token " ++ found.shown
  | unexpectedEnd => "unexpected end of expression"
  | expectedToken expected found => "expected " ++ expected.shown ++ ", found " ++ met found
  | expectedAttribute found => "expected attribute name, found " ++ met found
  | tooDeep => "expression nests deeper than " ++ toString maxDepth ++ " levels"

end Malformed

end Workflow.Expression
