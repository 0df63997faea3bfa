import Workflow.Yaml.Document
import Workflow.Yaml.Record

/-!
The limits of composition, and how they are configured.
-/

namespace Workflow

/-- The bounds beyond which no graph is composed. -/
structure Limits where
  /-- How many tasks a definition may have. -/
  maxTasks : Nat := 1000
  /-- How many forks may lie on the way to a task. -/
  maxSplitDepth : Nat := 32
  /-- How many nodes an expanded graph may have. -/
  maxInstances : Nat := 10000
  deriving DecidableEq, Repr

namespace Limits

/-- The limits that a document states; those it does not name keep their defaults. -/
def ofTree? (t : Yaml.Tree) : Option Limits := do
  let fields ← t.record? ["max_tasks", "max_split_depth", "max_instances"]
  let defaults : Limits := {}
  let maxTasks ← Yaml.Tree.field? Yaml.Tree.count? defaults.maxTasks fields "max_tasks"
  let maxSplitDepth ←
    Yaml.Tree.field? Yaml.Tree.count? defaults.maxSplitDepth fields "max_split_depth"
  let maxInstances ← Yaml.Tree.field? Yaml.Tree.count? defaults.maxInstances fields "max_instances"
  return ⟨maxTasks, maxSplitDepth, maxInstances⟩

def ofString? (text : String) : Option Limits :=
  (Yaml.Tree.ofString? text).bind ofTree?

end Limits

end Workflow
