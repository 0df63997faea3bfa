import Workflow.Graph.Basic
import Workflow.Value.Basic

/-!
Graphs as documents: the nodes in order, and for each node the list of the edges out of it. A name
is written only where it differs from the id.
-/

namespace Workflow.Graph

structure NodeEntry where
  id : String
  name : Option String := none
  barrier : Option Join := none
  splits : List Split := []
  retry : Option Retry := none
  deriving DecidableEq, Repr

/-- An edge of a document; its source is told by the list that it is in. -/
structure EdgeEntry where
  /-- The destination. -/
  id : String
  key : Nat
  criteria : List String := []
  ordinal : Option Nat := none
  deriving DecidableEq, Repr

structure Document where
  directed : Bool
  multigraph : Bool
  /-- Attributes of the graph as a whole; nothing reads them. -/
  attributes : Value
  nodes : List NodeEntry
  /-- The edges out of each node. -/
  adjacency : List (List EdgeEntry)

def Node.entry (n : Node) : NodeEntry :=
  ⟨n.id, if n.name = n.id then none else some n.name, n.barrier, n.splits, n.retry⟩

def NodeEntry.node (e : NodeEntry) : Node :=
  ⟨e.id, e.name.getD e.id, e.barrier, e.splits, e.retry⟩

def Edge.entry (e : Edge) : EdgeEntry :=
  ⟨e.destination, e.key, e.criteria, e.ordinal⟩

/-- The edge of an entry in the list of a node. -/
def EdgeEntry.edge (source : String) (e : EdgeEntry) : Edge :=
  ⟨source, e.id, e.key, e.criteria, e.ordinal⟩

/-- Order by the place of the destination, then by key. -/
def leByPlace (a b : Nat × Edge) : Bool :=
  decide (a.1 < b.1) || (a.1 == b.1 && decide (a.2.key ≤ b.2.key))

/-- The edges out of a node, by the place of the destination. -/
def outgoing (g : Graph) (id : String) : List Edge :=
  let edges := g.edges.filter fun e => e.source == id
  ((edges.map fun e => (g.position e.destination, e)).mergeSort leByPlace).map Prod.snd

def document (g : Graph) : Document :=
  { directed := true
    multigraph := true
    attributes := .object []
    nodes := g.nodes.map Node.entry
    adjacency := g.nodes.map fun n => (g.outgoing n.id).map Edge.entry }

/-- The first id that stands behind an equal one. -/
def repeatedId? (seen : List String) : List NodeEntry → Option String
  | [] => none
  | e :: es => if seen.contains e.id then some e.id else repeatedId? (e.id :: seen) es

/-- Puts the edges of a node in. Each leads to a node, and no key occurs twice between two nodes. -/
def addEntries (g : Graph) (source : String) : List EdgeEntry → Except Failure Graph
  | [] => .ok g
  | e :: es =>
    if !g.contains e.id then
      .error (.badDocument
        ("edge from \"" ++ source ++ "\" targets unknown node \"" ++ e.id ++ "\""))
    else if (g.between source e.id).any fun f => f.key == e.key then
      .error (.badDocument
        ("duplicate edge key " ++ toString e.key ++ " from \"" ++ source ++ "\" to \"" ++ e.id ++
          "\""))
    else addEntries { g with edges := g.edges ++ [e.edge source] } source es

def addAdjacency (g : Graph) : List (String × List EdgeEntry) → Except Failure Graph
  | [] => .ok g
  | (source, entries) :: rest =>
    match g.addEntries source entries with
    | .error e => .error e
    | .ok g => addAdjacency g rest

def ofDocument (d : Document) : Except Failure Graph :=
  if !d.directed || !d.multigraph then
    .error (.badDocument "workflow graph must be a directed multigraph")
  else if d.adjacency.length ≠ d.nodes.length then
    .error (.badDocument
      ("adjacency has " ++ toString d.adjacency.length ++ " entries for " ++
        toString d.nodes.length ++ " nodes"))
  else
    match repeatedId? [] d.nodes with
    | some id => .error (.badDocument ("duplicate node id \"" ++ id ++ "\""))
    | none =>
      addAdjacency { nodes := d.nodes.map NodeEntry.node }
        ((d.nodes.map NodeEntry.id).zip d.adjacency)

end Workflow.Graph
