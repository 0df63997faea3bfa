import Workflow.Composition.Basic
import Workflow.Plan.Links
import Workflow.Worklist

/-!
Direct composition: the part of a plan that can be reached from its start tasks, with one node for a
task. The forks on the way to a task are noted, but not carried out.
-/

namespace Workflow.Composition

namespace Direct

open Workflow.Graph (Split splitTasks)

/-- An arrival at a task, with the forks on the way to it. -/
structure Visit where
  task : String
  splits : List Split
  deriving DecidableEq, Repr

/-- The task and the names of the forks: an arrival is not repeated if these agree. -/
def Visit.key (v : Visit) : String × List String :=
  (v.task, splitTasks v.splits)

/-- How far the composition has come. -/
structure State where
  graph : Graph
  /-- The arrivals to come, the next one first. -/
  queue : List Visit
  /-- What arrivals there have been or are to come. -/
  queued : List (String × List String)

/-- The beginning: an arrival at every start task. -/
def State.start (p : Plan) : State :=
  let visits := p.starts.map fun name => (⟨name, []⟩ : Visit)
  ⟨.empty, visits, visits.map Visit.key⟩

/-- Adds an arrival, unless one like it has been added before. -/
def State.arrive (s : State) (v : Visit) : State :=
  if s.queued.contains v.key then s
  else { s with queue := s.queue ++ [v], queued := v.key :: s.queued }

/-- Is the task a fork? A task on a cycle is none, since its branches come back to it. -/
def isFork (p : Plan) (name : String) : Bool :=
  p.isSplit name && !p.inCycle name

/-- The forks of an arrival, with the task itself if it is one. -/
def extended (p : Plan) (v : Visit) : List Split :=
  if isFork p v.task then v.splits ++ [⟨v.task, 0⟩] else v.splits

def attributes (t : Plan.Task) (splits : List Split) : Graph.Attributes :=
  { barrier := t.join
    splits := if splits.isEmpty then none else some splits
    retry := t.retry }

/-- Adds the transition of a link, unless it is there. -/
def addLink (g : Graph) (name : String) (l : Plan.Link) : Except Failure Graph :=
  ensureTransition g name l.task l.condition.toList (some l.ordinal)

/-- Follows a link. Commands have no node; and a task on a cycle is not visited again. -/
def follow (p : Plan) (name : String) (splits : List Split) (s : State) (l : Plan.Link) :
    Except Failure State :=
  if isReserved l.task then .ok s
  else if !p.tasks.contains l.task then .error (.unknownTask l.task name)
  else
    let again := s.graph.contains l.task && p.inCycle l.task
    match addLink s.graph name l with
    | .error f => .error f
    | .ok g =>
      let s := { s with graph := g }
      .ok (if again then s else s.arrive ⟨l.task, splits⟩)

def followAll (p : Plan) (name : String) (splits : List Split) :
    State → List Plan.Link → Except Failure State
  | s, [] => .ok s
  | s, l :: ls =>
    match follow p name splits s l with
    | .error f => .error f
    | .ok s => followAll p name splits s ls

def visit (p : Plan) (limits : Limits) (s : State) (v : Visit) : Except Failure State :=
  match p.tasks.get? v.task with
  | none => .ok s
  | some t =>
    let splits := extended p v
    if isFork p v.task && limits.maxSplitDepth < splits.length then
      .error (.beyond limits .splitDepth)
    else
      followAll p v.task splits
        { s with graph := s.graph.addTask v.task (attributes t splits) } (p.next v.task)

def step (p : Plan) (limits : Limits) (s : State) : Except Failure (Option State) :=
  match s.queue with
  | [] => .ok none
  | v :: queue => (visit p limits { s with queue := queue } v).map some

/-- More than the number of arrivals: the forks on the way to a task are different tasks, so for
each task there are fewer ways to list them than there are lists of tasks with gaps. -/
def maxSteps (p : Plan) : Nat :=
  Nat.pow (p.tasks.size + 1) (p.tasks.size + 2) + 1

end Direct

/-- The graph of a plan with one node for each task. -/
def direct (limits : Limits) (p : Plan) : Except Failure Graph :=
  if limits.maxTasks < p.tasks.size then .error (.beyond limits .tasks)
  else if p.starts.isEmpty then .error .noStartTasks
  else
    match workOff (Direct.step p limits) (Direct.maxSteps p) (.start p) with
    | some (.ok s) => .ok s.graph
    | some (.error f) => .error f
    | none => .ok .empty

end Workflow.Composition
