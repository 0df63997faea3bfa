import Workflow.Graph.Lookup
import Workflow.Graph.Operations
import Workflow.Limits

/-!
What both compositions share: why no graph can be composed, and how transitions are added.
-/

namespace Workflow.Composition

/-- A bound that composition keeps. -/
inductive Bound where
  | tasks
  | splitDepth
  | instances
  deriving DecidableEq, Repr

def Bound.name : Bound → String
  | .tasks => "max_tasks"
  | .splitDepth => "max_split_depth"
  | .instances => "max_instances"

def Bound.value (l : Limits) : Bound → Nat
  | .tasks => l.maxTasks
  | .splitDepth => l.maxSplitDepth
  | .instances => l.maxInstances

inductive Failure where
  | graph (f : Graph.Failure)
  /-- Every task has a predecessor. -/
  | noStartTasks
  /-- A clause of `origin` leads to a task that is not defined. -/
  | unknownTask (task origin : String)
  | limitExceeded (bound : Bound) (max : Nat)
  deriving DecidableEq, Repr

namespace Failure

/-- The failure of exceeding a bound. -/
def beyond (l : Limits) (b : Bound) : Failure :=
  .limitExceeded b (b.value l)

def message : Failure → String
  | .graph f => f.message
  | .noStartTasks =>
    "Unable to identify start tasks; the workflow may be a cycle with no entry point"
  | .unknownTask task origin =>
    "Task \"" ++ origin ++ "\" transitions to undefined task \"" ++ task ++ "\""
  | .limitExceeded bound max =>
    "Composition limit exceeded: " ++ bound.name ++ " is capped at " ++ toString max

end Failure

/-- Adds a transition, unless there is one with these criteria that comes from this clause. -/
def ensureTransition (g : Graph) (source destination : String) (criteria : List String)
    (ordinal : Option Nat) : Except Failure Graph :=
  if (g.transitions source destination ⟨some criteria, ordinal⟩).isEmpty then
    match g.addTransition source destination criteria ordinal with
    | .ok (_, g) => .ok g
    | .error f => .error (.graph f)
  else .ok g

end Workflow.Composition
