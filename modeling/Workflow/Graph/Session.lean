import Workflow.Graph.Document
import Workflow.Graph.Lookup
import Workflow.Graph.Operations

/-!
Sessions: operations and look-ups that follow each other on one graph. The session goes on when one
fails, with the graph that it leaves behind.
-/

namespace Workflow.Graph

inductive Operation where
  | addTask (id : String) (attributes : Attributes)
  | updateTask (id : String) (attributes : Attributes)
  | setBarrier (id : String) (barrier : Option Join)
  | addTransition (source destination : String) (criteria : List String) (ordinal : Option Nat)
  | updateTransition (source destination : String) (key : Nat) (criteria : List String)
      (ordinal : Option Nat)
  deriving DecidableEq, Repr

/-- A question that leaves a graph as it is. -/
inductive Lookup where
  | hasTask (id : String)
  | task (id : String)
  | tasks
  | size
  | barrier (id : String)
  | hasBarrier (id : String)
  | transitions (source destination : String) (filter : Filter)
  | transition (source destination : String) (filter : Filter)
  | next (id : String)
  | prev (id : String)
  | roots
  | leaves
  | inCycle (id : String)
  | document
  deriving DecidableEq, Repr

inductive Answer where
  | done
  /-- Where the task stands among the nodes. -/
  | place (n : Nat)
  | key (n : Nat)
  | truth (b : Bool)
  | barrier (b : Option Join)
  | node (n : Node)
  | nodes (ns : List Node)
  | edge (e : Edge)
  | edges (es : List Edge)
  | ids (names : List String)
  | size (nodes edges : Nat)
  | document (d : Document)

/-- Performs an operation: its answer, and the graph behind it. -/
def perform (g : Graph) : Operation → Except Failure (Answer × Graph)
  | .addTask id a => .ok (.place ((g.addTask id a).position id), g.addTask id a)
  | .updateTask id a => (g.updateTask id a).map fun g => (.done, g)
  | .setBarrier id barrier => (g.setBarrier id barrier).map fun g => (.done, g)
  | .addTransition source destination criteria ordinal =>
    (g.addTransition source destination criteria ordinal).map fun (key, g) => (.key key, g)
  | .updateTransition source destination key criteria ordinal =>
    (g.updateTransition source destination key criteria ordinal).map fun g => (.done, g)

def look (g : Graph) : Lookup → Except Failure Answer
  | .hasTask id => .ok (.truth (g.contains id))
  | .task id => (g.task id).map .node
  | .tasks => .ok (.nodes g.nodes)
  | .size => .ok (.size g.nodes.length g.edges.length)
  | .barrier id => (g.task id).map fun n => .barrier n.barrier
  | .hasBarrier id => (g.task id).map fun n => .truth n.barrier.isSome
  | .transitions source destination f => .ok (.edges (g.transitions source destination f))
  | .transition source destination f => (g.transition source destination f).map .edge
  | .next id => (g.next id).map .edges
  | .prev id => (g.prev id).map .edges
  | .roots => .ok (.ids g.roots)
  | .leaves => .ok (.ids g.leaves)
  | .inCycle id => .ok (.truth (g.inCycle id))
  | .document => .ok (.document g.document)

/-- What an operation leaves behind that fails. The ends of a transition are put in before those that are
there already are looked at; the other operations look at everything first. -/
def leftBy (g : Graph) : Operation → Graph
  | .addTransition source destination _ _ => (g.ensure source).ensure destination
  | _ => g

/-- The graph behind an operation, whether it fails or not. -/
def after (g : Graph) (o : Operation) : Graph :=
  match g.perform o with
  | .ok (_, g) => g
  | .error _ => g.leftBy o

def run (g : Graph) (os : List Operation) : Graph :=
  os.foldl after g

inductive Request where
  | change (o : Operation)
  | look (l : Lookup)
  deriving DecidableEq, Repr

def answers (g : Graph) : List Request → List (Except Failure Answer)
  | [] => []
  | .change o :: rs => (g.perform o).map Prod.fst :: answers (g.after o) rs
  | .look l :: rs => g.look l :: answers g rs

/-- The graphs that a session starts from: the empty one, and those that documents state. -/
inductive Begun : Graph → Prop where
  | empty : Begun .empty
  | read {d : Document} {g : Graph} (states : ofDocument d = .ok g) : Begun g

end Workflow.Graph
