/-!
Problems found in a workflow definition, and the variables that its texts mention.
-/

namespace Workflow

/-- A problem. Its kind is the name of a dialect, or of the family of checks that found it. -/
structure Diagnostic where
  kind : String
  expression : Option String := none
  message : String
  /-- Where in the definition the problem is. -/
  specPath : Option String := none
  /-- Where the schema of definitions describes that place. -/
  schemaPath : Option String := none
  deriving DecidableEq, Repr, Inhabited

structure VariableRef where
  dialect : String
  /-- The expression with its delimiters. -/
  source : String
  name : String
  deriving DecidableEq, Repr, Inhabited

end Workflow
