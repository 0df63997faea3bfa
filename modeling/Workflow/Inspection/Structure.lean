import Workflow.Dialect.Diagnostic
import Workflow.Plan.Links
import Workflow.Worklist

/-!
Problems with how the tasks of a plan hang together: names that belong to commands, links to
nowhere, plans without a start, tasks that are never reached, and joins that are reached from
different levels of nested forks.
-/

namespace Workflow.Inspection.Structure

def problem (message path schema : String) : Diagnostic :=
  { kind := "semantic"
    message := message
    specPath := some path
    schemaPath := some schema }

/-- A problem with a task as a whole. -/
def taskProblem (message name : String) : Diagnostic :=
  problem message (Plan.taskPath name) taskSchema

def reservedProblems (name : String) : List Diagnostic :=
  if isReserved name then
    [taskProblem ("The task name \"" ++ name ++ "\" is reserved with special function.") name]
  else []

def undefinedProblems (p : Plan) (c : Plan.Clause) : List Diagnostic :=
  (c.destinations.filter fun d => !isReserved d && !p.tasks.contains d).map fun d =>
    problem ("The task \"" ++ d ++ "\" is not defined.") (c.path ++ ".do")
      (taskSchema ++ ".properties.next.items.properties.do")

def localProblems (p : Plan) : List Diagnostic :=
  p.tasks.entries.flatMap fun (name, t) =>
    reservedProblems name ++ t.clauses.flatMap (undefinedProblems p)

def reached (p : Plan) : List String :=
  reach p.successors p.tasks.names p.starts

def unreachedProblems (p : Plan) : List Diagnostic :=
  let reached := reached p
  (p.tasks.names.filter fun name => !reached.contains name).map fun name =>
    taskProblem ("The task \"" ++ name ++ "\" is not reachable from any start task.") name

/-- An arrival at a task, with the forks on the way to it. -/
abbrev Arrival := String × List String

/-- How far the search for arrivals has come: those that were found, and those to look at. -/
structure Search where
  found : List Arrival
  pending : List Arrival

/-- The forks on the ways out of a task, behind an arrival at it. -/
def forksBehind (p : Plan) (a : Arrival) : List String :=
  if p.isSplit a.1 && !p.inCycle a.1 then a.2 ++ [a.1] else a.2

def arrivalsBehind (p : Plan) (a : Arrival) : List Arrival :=
  let forks := forksBehind p a
  ((p.successors a.1).filter p.tasks.contains).map fun d => (d, forks)

def step (p : Plan) (s : Search) : Except Empty (Option Search) :=
  match s.pending with
  | [] => .ok none
  | a :: pending =>
    .ok <| some <|
      if s.found.contains a then { s with pending := pending }
      else ⟨a :: s.found, arrivalsBehind p a ++ pending⟩

/-- More than the number of arrivals to look at: the forks on the way to a task are different tasks,
and behind each arrival there are no more than there are links. -/
def maxSteps (p : Plan) : Nat :=
  let links := (p.tasks.names.flatMap p.successors).length
  p.tasks.size + Nat.pow (p.tasks.size + 1) (p.tasks.size + 2) * (links + 1) + 1

/-- All arrivals at tasks, without repetitions. -/
def arrivals (p : Plan) : List Arrival :=
  match workOff (step p) (maxSteps p) ⟨[], p.starts.map fun name => (name, [])⟩ with
  | some (.ok s) => s.found
  | _ => []

def ambiguousProblems (p : Plan) : List Diagnostic :=
  let arrivals := arrivals p
  let isAmbiguous (name : String) : Bool :=
    p.isJoin name && 1 < (arrivals.filter fun a => a.1 == name).length
  (p.tasks.names.filter isAmbiguous).map fun name =>
    taskProblem
      ("The join task \"" ++ name ++ "\" is unreachable. " ++
        "It is reached from different levels of nested splits, " ++
        "so the level at which it joins is ambiguous.") name

def problems (p : Plan) : List Diagnostic :=
  localProblems p ++
    if p.starts.isEmpty then
      if p.tasks.isEmpty then []
      else
        [problem
          "Unable to identify start tasks. The workflow may be a cycle with no entry point."
          "tasks" "properties.tasks"]
    else unreachedProblems p ++ ambiguousProblems p

end Workflow.Inspection.Structure
