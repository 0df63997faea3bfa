import Workflow.Definition.Basic
import Workflow.Worklist

/-!
Workflow graphs: tasks as nodes, transitions as edges. Several edges may lead from one node to
another; they are told apart by their keys.
-/

namespace Workflow

namespace Graph

/-- A fork on the way to a node: the task that was reached by several branches, and the number of
the branch; 0 stands for all of them. -/
structure Split where
  task : String
  instance_ : Nat
  deriving DecidableEq, Repr

def splitTasks (splits : List Split) : List String :=
  splits.map Split.task

structure Node where
  id : String
  /-- The task that it stands for; several nodes may stand for one task. -/
  name : String
  /-- What it waits for, if it joins branches. -/
  barrier : Option Join := none
  /-- The forks on the way to it, the outermost first. -/
  splits : List Split := []
  retry : Option Retry := none
  deriving DecidableEq, Repr

/-- The node of a task that nothing else is known of. -/
def Node.ofId (id : String) : Node :=
  { id := id, name := id }

/-- New attributes of a node; those that are not set leave the node as it is. -/
structure Attributes where
  name : Option String := none
  barrier : Option Join := none
  splits : Option (List Split) := none
  retry : Option Retry := none
  deriving DecidableEq, Repr

def Node.merge (n : Node) (a : Attributes) : Node :=
  { n with
    name := a.name.getD n.name
    barrier := a.barrier.orElse fun _ => n.barrier
    splits := a.splits.getD n.splits
    retry := a.retry.orElse fun _ => n.retry }

structure Edge where
  source : String
  destination : String
  key : Nat
  /-- The guards, all of which must hold. -/
  criteria : List String
  /-- Which clause of its task it comes from. -/
  ordinal : Option Nat
  deriving DecidableEq, Repr

/-- What a look-up asks of an edge; what is not set does not matter. -/
structure Filter where
  criteria : Option (List String) := none
  ordinal : Option Nat := none
  deriving DecidableEq, Repr

def Filter.accepts (f : Filter) (e : Edge) : Bool :=
  (match f.criteria with
    | some criteria => criteria == e.criteria
    | none => true) &&
  (match f.ordinal with
    | some n => e.ordinal == some n
    | none => true)

inductive Failure where
  | unknownTask (id : String)
  | noTransition (source destination : String)
  | ambiguous (source destination : String) (count : Nat)
  /-- A document that states no graph. -/
  | badDocument (reason : String)
  deriving DecidableEq, Repr

def Failure.message : Failure → String
  | .unknownTask id => "Task \"" ++ id ++ "\" does not exist in the workflow graph"
  | .noTransition source destination =>
    "Transition from \"" ++ source ++ "\" to \"" ++ destination ++ "\" does not exist"
  | .ambiguous source destination count =>
    toString count ++ " transitions from \"" ++ source ++ "\" to \"" ++ destination ++
      "\" match the lookup"
  | .badDocument reason => "Serialization error: " ++ reason

end Graph

/-- A graph, with its nodes and edges in the order in which they came. -/
structure Graph where
  nodes : List Graph.Node := []
  edges : List Graph.Edge := []
  deriving DecidableEq, Repr

namespace Graph

def empty : Graph := {}

def node? (g : Graph) (id : String) : Option Node :=
  g.nodes.find? fun n => n.id == id

def contains (g : Graph) (id : String) : Bool :=
  g.nodes.any fun n => n.id == id

def ids (g : Graph) : List String :=
  g.nodes.map Node.id

/-- How many nodes stand before the one with that id. -/
def position (g : Graph) (id : String) : Nat :=
  g.nodes.findIdx fun n => n.id == id

/-- The edges from one node to another, in the order in which they came. -/
def between (g : Graph) (source destination : String) : List Edge :=
  g.edges.filter fun e => e.source == source && e.destination == destination

/-- Puts a node in, unless there is one with that id. -/
def ensure (g : Graph) (id : String) : Graph :=
  if g.contains id then g else { g with nodes := g.nodes ++ [.ofId id] }

def modifyNode (g : Graph) (id : String) (f : Node → Node) : Graph :=
  { g with nodes := g.nodes.map fun n => if n.id == id then f n else n }

def modifyEdge (g : Graph) (source destination : String) (key : Nat) (f : Edge → Edge) : Graph :=
  { g with
    edges := g.edges.map fun e =>
      if e.source == source && e.destination == destination && e.key == key then f e else e }

end Graph

end Workflow
