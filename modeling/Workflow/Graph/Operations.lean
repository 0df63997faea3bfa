import Workflow.Graph.Basic

/-!
Changing graphs. An operation that fails gives no new graph.
-/

namespace Workflow.Graph

/-- Adds a task, or gives new attributes to the one that is there. -/
def addTask (g : Graph) (id : String) (a : Attributes) : Graph :=
  if g.contains id then g.modifyNode id fun n => n.merge a
  else { g with nodes := g.nodes ++ [(Node.ofId id).merge a] }

def updateTask (g : Graph) (id : String) (a : Attributes) : Except Failure Graph :=
  if g.contains id then .ok (g.modifyNode id fun n => n.merge a) else .error (.unknownTask id)

/-- Sets or clears what a task waits for. -/
def setBarrier (g : Graph) (id : String) (barrier : Option Join) : Except Failure Graph :=
  if g.contains id then .ok (g.modifyNode id fun n => { n with barrier := barrier })
  else .error (.unknownTask id)

/-- The least key that is greater than all keys of these edges. -/
def freshKey (edges : List Edge) : Nat :=
  edges.foldl (fun key e => max key (e.key + 1)) 0

/-- The edge with the clause that it comes from, if that is known. -/
def Edge.withOrdinal (e : Edge) (ordinal : Option Nat) : Edge :=
  { e with ordinal := ordinal.orElse fun _ => e.ordinal }

/-- Adds a transition, and its ends if they are missing; answers with its key. A transition with
these criteria that is there already is told its clause anew. -/
def addTransition (g : Graph) (source destination : String) (criteria : List String)
    (ordinal : Option Nat) : Except Failure (Nat × Graph) :=
  let g := (g.ensure source).ensure destination
  let edges := g.between source destination
  match edges.filter fun e => e.criteria == criteria with
  | [] =>
    let key := freshKey edges
    .ok (key, { g with edges := g.edges ++ [⟨source, destination, key, criteria, ordinal⟩] })
  | [e] => .ok (e.key, g.modifyEdge source destination e.key fun e => e.withOrdinal ordinal)
  | matching => .error (.ambiguous source destination matching.length)

/-- Gives a transition new criteria, and tells it its clause anew. -/
def updateTransition (g : Graph) (source destination : String) (key : Nat)
    (criteria : List String) (ordinal : Option Nat) : Except Failure Graph :=
  if !g.contains source then .error (.unknownTask source)
  else if !g.contains destination then .error (.unknownTask destination)
  else if (g.between source destination).any fun e => e.key == key then
    .ok (g.modifyEdge source destination key fun e =>
      { e with criteria := criteria }.withOrdinal ordinal)
  else .error (.noTransition source destination)

end Workflow.Graph
