import Workflow.Composition.Direct
import Workflow.Composition.Guard

/-!
Expansion: a graph whose forks are carried out. Every arrival at a fork makes a node of its own with
a number of its own, and what lies behind the fork is there once for each number.
-/

namespace Workflow.Composition

namespace Expansion

open Workflow.Graph (Split Edge Node splitTasks)

/-- An arrival at a task: the forks on the way to it, and the node and the transition that the way
came along last. -/
structure Visit where
  task : String
  splits : List Split
  prev : Option (String × Edge)
  deriving DecidableEq, Repr

/-- How far the expansion has come. -/
structure State where
  graph : Graph
  /-- The arrivals to come, the next one first. -/
  queue : List Visit
  /-- How many numbers each fork has given out. -/
  counters : Table Nat
  /-- The task that each node of the graph was made for, in order. -/
  made : List String

/-- The beginning: an arrival at every root. -/
def State.start (logical : Graph) : State :=
  ⟨.empty, logical.roots.map fun id => ⟨id, [], none⟩, .empty, []⟩

/-- The last number that a fork has given out. -/
def State.counter (s : State) (task : String) : Nat :=
  (s.counters.get? task).getD 0

/-- Gives out the next number of a fork. -/
def State.count (s : State) (task : String) : State :=
  { s with counters := s.counters.insert task (s.counter task + 1) }

/-- The nodes that were made for a task and lie behind these forks. -/
def nodesBehind (task : String) (splits : List Split) : List String → List Node → List String
  | t :: ts, n :: ns =>
    if t == task && n.splits == splits then n.id :: nodesBehind task splits ts ns
    else nodesBehind task splits ts ns
  | _, _ => []

/-- Does a join that expects these forks wait for an arrival with more of them? -/
def isEarly (expected splits : List Split) : Bool :=
  splits.length < expected.length && (splitTasks splits).isPrefixOf (splitTasks expected)

def isFork (logical : Graph) (n : Node) (inbound : List Edge) : Bool :=
  n.barrier.isNone && 1 < (inbound.map Edge.source).eraseDups.length && !logical.inCycle n.id

/-- The id of the node of a task behind these forks. -/
def nodeId (task : String) (splits : List Split) : String :=
  match splits.getLast? with
  | some s => task ++ "__" ++ toString s.instance_
  | none => task

/-- The nodes that the transitions into a node come from, each with the transition. A node of a fork
has only the one that the arrival came along; any other has all nodes behind the same forks. -/
def origins (s : State) (v : Visit) (fork : Bool) (splits : List Split) (inbound : List Edge) :
    List (String × Edge) :=
  let others := inbound.flatMap fun e =>
    (nodesBehind e.source splits s.made s.graph.nodes).map fun id => (id, e)
  v.prev.toList ++ if fork then [] else others

/-- Adds the transition that leads from one node to another, unless it is there. -/
def addEdge (g : Graph) (id : String) (origin : String × Edge) : Except Failure Graph :=
  let (source, e) := origin
  ensureTransition g source id (renameInGuards e.criteria e.source source) e.ordinal

def addEdges (id : String) : Graph → List (String × Edge) → Except Failure Graph
  | g, [] => .ok g
  | g, origin :: origins =>
    match addEdge g id origin with
    | .error f => .error f
    | .ok g => addEdges id g origins

/-- Makes the node of an arrival, if it is new, and leads transitions to it. -/
def arrive (logical : Graph) (limits : Limits) (s : State) (v : Visit) (n : Node)
    (inbound : List Edge) (fork : Bool) (splits : List Split) : Except Failure State :=
  let id := nodeId v.task splits
  let isNew := !s.graph.contains id
  let g := s.graph.addTask id
    { name := some v.task
      barrier := n.barrier
      splits := if splits.isEmpty then none else some splits
      retry := n.retry }
  let s := { s with graph := g, made := if isNew then s.made ++ [v.task] else s.made }
  if isNew && limits.maxInstances < g.nodes.length then .error (.beyond limits .instances)
  else
    match addEdges id g (origins s v fork splits inbound) with
    | .error f => .error f
    | .ok g =>
      if isNew then
        match logical.next v.task with
        | .error f => .error (.graph f)
        | .ok es =>
          let visits := es.map fun e => (⟨e.destination, splits, some (id, e)⟩ : Visit)
          .ok { s with graph := g, queue := s.queue ++ visits }
      else .ok { s with graph := g }

/-- Arrives at a task. A join that is reached too early is left to an arrival behind more forks. -/
def visit (logical : Graph) (limits : Limits) (s : State) (v : Visit) : Except Failure State :=
  match logical.task v.task, logical.prev v.task with
  | .error f, _ => .error (.graph f)
  | _, .error f => .error (.graph f)
  | .ok n, .ok inbound =>
    if n.barrier.isSome && isEarly n.splits v.splits then .ok s
    else if isFork logical n inbound then
      let s := s.count v.task
      let splits := v.splits ++ [⟨v.task, s.counter v.task⟩]
      if limits.maxSplitDepth < splits.length then .error (.beyond limits .splitDepth)
      else arrive logical limits s v n inbound true splits
    else arrive logical limits s v n inbound false v.splits

def step (logical : Graph) (limits : Limits) (s : State) : Except Failure (Option State) :=
  match s.queue with
  | [] => .ok none
  | v :: queue => (visit logical limits { s with queue := queue } v).map some

/-- More than the number of arrivals: behind the roots, each of the nodes that the limits allow sends
out no more of them than there are transitions. -/
def maxSteps (logical : Graph) (limits : Limits) : Nat :=
  logical.roots.length + limits.maxInstances * (logical.edges.length + 1) + 1

end Expansion

/-- The graph with its forks carried out. -/
def expand (limits : Limits) (logical : Graph) : Except Failure Graph :=
  match workOff (Expansion.step logical limits) (Expansion.maxSteps logical limits)
    (.start logical) with
  | some (.ok s) => .ok s.graph
  | some (.error f) => .error f
  | none => .ok .empty

/-- The graph of a plan with its forks carried out. -/
def expanded (limits : Limits) (p : Plan) : Except Failure Graph :=
  match direct limits p with
  | .error f => .error f
  | .ok g => expand limits g

end Workflow.Composition
