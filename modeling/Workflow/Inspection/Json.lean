import Workflow.Inspection.Report
import Workflow.Json.Reader
import Workflow.Json.Record

/-!
Reading reports from JSON.
-/

namespace Workflow

open Json

def Diagnostic.ofTree? (t : Tree) : Option Diagnostic := do
  let fields ← t.record? ["type", "expression", "message", "spec_path", "schema_path"]
  let kind ← Tree.required? Tree.string? fields "type"
  let expression ← Tree.optionalField? Tree.string? fields "expression"
  let message ← Tree.required? Tree.string? fields "message"
  let specPath ← Tree.optionalField? Tree.string? fields "spec_path"
  let schemaPath ← Tree.optionalField? Tree.string? fields "schema_path"
  return ⟨kind, expression, message, specPath, schemaPath⟩

namespace Inspection

def Report.ofTree? (t : Tree) : Option Report := do
  let fields ← t.record? (Category.all.map Category.name)
  let get (c : Category) := Tree.field? (Tree.list? Diagnostic.ofTree?) [] fields c.name
  let shape ← get .syntaxRules
  let expressions ← get .expressions
  let vocabulary ← get .context
  let structure_ ← get .semantics
  return ⟨shape, expressions, vocabulary, structure_⟩

def Report.ofString? (text : String) : Option Report :=
  (Tree.ofString? text).bind Report.ofTree?

end Inspection

end Workflow
