import Workflow.Dialect.Diagnostic
import Workflow.Expression.Fault
import Workflow.Value.Basic

/-!
Expression dialects, and failed evaluations: the expression at fault and the cause. The analyses of
workflows need only the four operations of a dialect, so any expression language can take part.
-/

namespace Workflow

/-- Why an expression could not be evaluated. -/
inductive Cause where
  | malformed (reason : String)
  | undefinedVariable (name : String)
  | mismatch (reason : String)
  | unknownFunction (name : String)
  deriving DecidableEq, Repr

structure Failure where
  /-- The text of the expression at fault. -/
  expression : String
  cause : Cause
  deriving DecidableEq, Repr

namespace Failure

def message (f : Failure) : String :=
  let quoted := "\"" ++ f.expression ++ "\""
  match f.cause with
  | .malformed reason => "Unable to parse expression " ++ quoted ++ ": " ++ reason
  | .undefinedVariable name =>
    "Variable \"" ++ name ++ "\" is undefined in expression " ++ quoted
  | .mismatch reason => "Type error in expression " ++ quoted ++ ": " ++ reason
  | .unknownFunction name => "Unknown function \"" ++ name ++ "\" in expression " ++ quoted

def ofMalformed (expression : String) (e : Expression.Malformed) : Failure :=
  ⟨expression, .malformed e.message⟩

def ofFault (expression : String) : Expression.Fault → Failure
  | .undefined name => ⟨expression, .undefinedVariable name⟩
  | .mismatch cause => ⟨expression, .mismatch cause.message⟩
  | .unknownFunction name => ⟨expression, .unknownFunction name⟩

end Failure

/-- A dialect: its name and what it makes of a text. -/
structure Dialect where
  name : String
  /-- Does the text hold an expression of the dialect? -/
  hasExpressions : String → Bool
  /-- The expressions of the text that are malformed. -/
  validate : String → List Diagnostic
  /-- The value of the text over a context. -/
  evaluate : String → Value → Except Failure Value
  /-- The variables that the text mentions. -/
  variableRefs : String → List VariableRef

end Workflow
