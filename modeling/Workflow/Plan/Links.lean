import Workflow.Plan.Basic
import Workflow.Worklist

/-!
The links between the tasks of a plan: successors, predecessors, where the work starts, and which
tasks are forks or lie on a cycle.
-/

namespace Workflow.Plan

/-- One step between two tasks, seen from one of them. -/
structure Link where
  /-- The task at the other end. -/
  task : String
  condition : Option String
  /-- Which clause of its task it comes from. -/
  ordinal : Nat
  deriving DecidableEq, Repr

def Link.le (a b : Link) : Bool :=
  decide (a.task < b.task) || (a.task == b.task && decide (a.ordinal ≤ b.ordinal))

def Clause.links (c : Clause) : List Link :=
  c.destinations.map fun d => ⟨d, c.condition, c.ordinal⟩

/-- The successors of a task by name, commands included; a task that is not defined has none. -/
def next (p : Plan) (name : String) : List Link :=
  match p.tasks.get? name with
  | none => []
  | some t => (t.clauses.flatMap Clause.links).mergeSort Link.le

def linksTo (name source : String) (t : Task) : List Link :=
  (t.clauses.filter fun c => c.destinations.contains name).map fun c =>
    ⟨source, c.condition, c.ordinal⟩

/-- The predecessors of a task by name, one link for each clause. -/
def prev (p : Plan) (name : String) : List Link :=
  (p.tasks.entries.flatMap fun (source, t) => linksTo name source t).mergeSort Link.le

def isTargeted (p : Plan) (name : String) : Bool :=
  p.tasks.values.any fun t => t.clauses.any fun c => c.destinations.contains name

/-- The tasks that no clause leads to, by name. -/
def starts (p : Plan) : List String :=
  (p.tasks.names.filter fun name => !p.isTargeted name).mergeSort fun a b => decide (a ≤ b)

def isJoin (p : Plan) (name : String) : Bool :=
  ((p.tasks.get? name).bind Task.join).isSome

/-- Is the task reached from several tasks without joining them? -/
def isSplit (p : Plan) (name : String) : Bool :=
  p.tasks.contains name && !p.isJoin name &&
    1 < ((p.prev name).map Link.task).eraseDups.length

def successors (p : Plan) (name : String) : List String :=
  (p.next name).map Link.task

/-- Can the task be reached from itself? -/
def inCycle (p : Plan) (name : String) : Bool :=
  (reach p.successors p.tasks.names (p.successors name)).contains name

end Workflow.Plan
