import Workflow.Graph.Basic

/-!
Looking things up in graphs. What comes in several is sorted, so that answers do not depend on the
order in which a graph was built.
-/

namespace Workflow.Graph

def task (g : Graph) (id : String) : Except Failure Node :=
  match g.node? id with
  | some n => .ok n
  | none => .error (.unknownTask id)

/-- The transitions between two tasks that fit, by key. -/
def transitions (g : Graph) (source destination : String) (f : Filter) : List Edge :=
  ((g.between source destination).filter f.accepts).mergeSort fun a b => decide (a.key ≤ b.key)

/-- The only transition between two tasks that fits. -/
def transition (g : Graph) (source destination : String) (f : Filter) : Except Failure Edge :=
  match g.transitions source destination f with
  | [] => .error (.noTransition source destination)
  | [e] => .ok e
  | es => .error (.ambiguous source destination es.length)

def Edge.leByDestination (a b : Edge) : Bool :=
  decide (a.destination < b.destination) ||
    (a.destination == b.destination && decide (a.key ≤ b.key))

def Edge.leBySource (a b : Edge) : Bool :=
  decide (a.source < b.source) || (a.source == b.source && decide (a.key ≤ b.key))

def next (g : Graph) (id : String) : Except Failure (List Edge) :=
  if g.contains id then
    .ok ((g.edges.filter fun e => e.source == id).mergeSort Edge.leByDestination)
  else .error (.unknownTask id)

def prev (g : Graph) (id : String) : Except Failure (List Edge) :=
  if g.contains id then
    .ok ((g.edges.filter fun e => e.destination == id).mergeSort Edge.leBySource)
  else .error (.unknownTask id)

/-- The tasks that no transition leads into, by id. -/
def roots (g : Graph) : List String :=
  (g.ids.filter fun id => !g.edges.any fun e => e.destination == id).mergeSort
    fun a b => decide (a ≤ b)

/-- The tasks that no transition leads out of, by id. -/
def leaves (g : Graph) : List String :=
  (g.ids.filter fun id => !g.edges.any fun e => e.source == id).mergeSort
    fun a b => decide (a ≤ b)

def successors (g : Graph) (id : String) : List String :=
  (g.edges.filter fun e => e.source == id).map Edge.destination

/-- Can the task be reached from itself? -/
def inCycle (g : Graph) (id : String) : Bool :=
  (reach g.successors g.ids (g.successors id)).contains id

end Workflow.Graph
