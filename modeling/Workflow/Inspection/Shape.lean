import Workflow.Dialect.Diagnostic
import Workflow.Plan.Basic
import Workflow.Text.Word

/-!
The rules for definitions that their shape alone does not ensure: how tasks are named, that counts
are positive, and that every clause leads somewhere.
-/

namespace Workflow.Inspection.Shape

def problem (message path schema : String) : Diagnostic :=
  { kind := "syntax"
    message := message
    specPath := some path
    schemaPath := some schema }

/-- Is it a name for a task: one word character or more? -/
def isTaskName (name : String) : Bool :=
  !name.isEmpty && name.toList.all Text.isWord

def nameProblems (name : String) : List Diagnostic :=
  if isTaskName name then []
  else
    [problem
      ("Task name \"" ++ name ++ "\" must only contain letters, digits and underscores.")
      (Plan.taskPath name) "properties.tasks.patternProperties"]

def joinProblems (name : String) (t : Definition.Task) : List Diagnostic :=
  if t.join = some (.count 0) then
    [problem "Join count must be \"all\" or a positive integer."
      (Plan.taskPath name ++ ".join") (taskSchema ++ ".properties.join")]
  else []

/-- What is wrong with how often a task is tried again. -/
def retryProblems (name : String) (t : Definition.Task) : List Diagnostic :=
  if (t.retry.map Retry.count) = some 0 then
    [problem "Retry count must be a positive integer."
      (Plan.taskPath name ++ ".retry.count")
      (taskSchema ++ ".properties.retry.properties.count")]
  else []

/-- What is wrong with the clauses of a task, of which the first has this ordinal. -/
def clauseProblems (name : String) (ordinal : Nat) : List Definition.Clause → List Diagnostic
  | [] => []
  | c :: cs =>
    (if c.destinations.isEmpty then
      [problem "Transition must name at least one task to run."
        (extendPath (Plan.taskPath name ++ ".next") [.index ordinal] ++ ".do")
        (taskSchema ++ ".properties.next.items.properties.do")]
    else []) ++ clauseProblems name (ordinal + 1) cs

def taskProblems (name : String) (t : Definition.Task) : List Diagnostic :=
  nameProblems name ++ joinProblems name t ++ retryProblems name t ++ clauseProblems name 0 t.next

def problems (d : Definition) : List Diagnostic :=
  d.tasks.entries.flatMap fun (name, t) => taskProblems name t

end Workflow.Inspection.Shape
