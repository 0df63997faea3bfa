import Workflow.Dialect.Registry
import Workflow.Inspection.Shape
import Workflow.Inspection.Structure
import Workflow.Inspection.Vocabulary

/-!
Reports of everything that is wrong with a definition, by category: its shape, the expressions in its
texts, the names that they mention, and the structure of its plan.
-/

namespace Workflow.Inspection

namespace Expressions

/-- The problem, found in the text of a site. -/
def locate (s : Site) (d : Diagnostic) : Diagnostic :=
  { d with specPath := some s.path, schemaPath := some s.schema }

/-- What is wrong with the expressions of a plan, text by text. -/
def problems (r : Registry) (p : Plan) : List Diagnostic :=
  p.sites.flatMap fun s => (r.validate s.text).map (locate s)

end Expressions

/-- What a problem is about. -/
inductive Category where
  | syntaxRules
  | expressions
  | context
  | semantics
  deriving DecidableEq, Repr

def Category.all : List Category :=
  [.syntaxRules, .expressions, .context, .semantics]

def Category.name : Category → String
  | .syntaxRules => "syntax"
  | .expressions => "expressions"
  | .context => "context"
  | .semantics => "semantics"

structure Report where
  shape : List Diagnostic := []
  expressions : List Diagnostic := []
  vocabulary : List Diagnostic := []
  structure_ : List Diagnostic := []
  deriving DecidableEq, Repr

namespace Report

def get (r : Report) : Category → List Diagnostic
  | .syntaxRules => r.shape
  | .expressions => r.expressions
  | .context => r.vocabulary
  | .semantics => r.structure_

def entries (r : Report) : List (Category × Diagnostic) :=
  Category.all.flatMap fun c => (r.get c).map fun d => (c, d)

def size (r : Report) : Nat :=
  r.entries.length

def isEmpty (r : Report) : Bool :=
  r.size == 0

end Report

def inspect (r : Registry) (d : Definition) : Report :=
  let p := Plan.ofDefinition d
  { shape := Shape.problems d
    expressions := Expressions.problems r p
    vocabulary := Vocabulary.problems r p
    structure_ := Structure.problems p }

end Workflow.Inspection
