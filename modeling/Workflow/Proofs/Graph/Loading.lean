import Workflow.Proofs.Graph.Stepwise

/-!
Documents read into a graph with its table. The nodes are entered one by one, and the ends of the edges
are looked up in the table; of each edge the places of its ends and its key are noted, and none is met
twice. What is read is the graph that the document states, with the table that its nodes state.
-/

namespace Workflow.Graph

variable {g g' : Graph} {source : String}

/-- The places of the ends of an edge, and its key. -/
abbrev Trace := Nat × Nat × Nat

namespace Indexed

/-- Puts nodes in one by one. None has the id of one that is there. -/
def insertNodes (s : Indexed) : List NodeEntry → Except Failure Indexed
  | [] => .ok s
  | e :: es =>
    if (s.index e.id).isSome then .error (.badDocument ("duplicate node id \"" ++ e.id ++ "\""))
    else insertNodes (s.insert e.node) es

/-- Puts the edges of the node at this place in, and notes them among those that were seen. -/
def insertEdges (s : Indexed) (seen : List Trace) (source : String) (place : Nat) :
    List EdgeEntry → Except Failure (Indexed × List Trace)
  | [] => .ok (s, seen)
  | e :: es =>
    match s.index e.id with
    | none =>
      .error (.badDocument
        ("edge from \"" ++ source ++ "\" targets unknown node \"" ++ e.id ++ "\""))
    | some destination =>
      if seen.contains (place, destination, e.key) then
        .error (.badDocument
          ("duplicate edge key " ++ toString e.key ++ " from \"" ++ source ++ "\" to \"" ++ e.id ++
            "\""))
      else
        insertEdges { s with graph := { s.graph with edges := s.graph.edges ++ [e.edge source] } }
          ((place, destination, e.key) :: seen) source place es

def insertLists (s : Indexed) (seen : List Trace) :
    List (String × List EdgeEntry) → Except Failure Indexed
  | [] => .ok s
  | (source, es) :: lists =>
    match s.index source with
    | none => .error (.unknownTask source)
    | some place =>
      match s.insertEdges seen source place es with
      | .error f => .error f
      | .ok (s, seen) => insertLists s seen lists

/-- The graph of a document, with the table that is filled as the nodes are read. -/
def ofDocument (d : Document) : Except Failure Indexed :=
  if !d.directed || !d.multigraph then
    .error (.badDocument "workflow graph must be a directed multigraph")
  else if d.adjacency.length ≠ d.nodes.length then
    .error (.badDocument
      ("adjacency has " ++ toString d.adjacency.length ++ " entries for " ++
        toString d.nodes.length ++ " nodes"))
  else
    match empty.insertNodes d.nodes with
    | .error f => .error f
    | .ok s => s.insertLists [] d.lists

end Indexed

def trace (g : Graph) (e : Edge) : Trace :=
  (g.position e.source, g.position e.destination, e.key)

/-- What is noted of all edges, the last one first. -/
def traces (g : Graph) : List Trace :=
  (g.edges.map g.trace).reverse

theorem empty_indexed : empty.indexed = .empty :=
  rfl

/-- The ids that are entered are those that were seen, so the first one that repeats is found. -/
theorem insertNodes_indexed {seen : List String} (entered : ∀ id, id ∈ seen ↔ id ∈ g.ids)
    (es : List NodeEntry) :
    g.indexed.insertNodes es =
      (repeatedId? seen es).elim (.ok ({ g with nodes := g.nodes ++ es.map NodeEntry.node } : Graph).indexed)
        fun id => .error (.badDocument ("duplicate node id \"" ++ id ++ "\"")) := by
  induction es generalizing g seen with
  | nil => simp [Indexed.insertNodes, repeatedId?]
  | cons e es ih =>
    unfold Indexed.insertNodes repeatedId?
    by_cases known : e.id ∈ g.ids
    · have found : (g.indexed.index e.id).isSome = true := by
        rw [index_indexed, index_of_mem known]
        rfl
      rw [if_pos found, if_pos (List.contains_iff_mem.mpr ((entered _).mpr known))]
      rfl
    · have missed : ¬(g.indexed.index e.id).isSome = true := by
        rw [index_indexed, index_of_not_mem known]
        exact Bool.false_ne_true
      have new : ¬seen.contains e.id = true := by
        rw [List.contains_iff_mem, entered]
        exact known
      have entered' : ∀ id, id ∈ e.id :: seen ↔
          id ∈ ({ g with nodes := g.nodes ++ [e.node] } : Graph).ids := by
        intro id
        simp [Graph.ids, entered id, or_comm]
      rw [if_neg missed, if_neg new, insert_indexed known, ih entered', List.map_cons,
        List.append_assoc, List.singleton_append]

/-- Places tell ids apart. -/
theorem position_eq_iff {a b : String} (known : b ∈ g.ids) : g.position a = g.position b ↔ a = b := by
  refine ⟨fun same => ?_, fun same => same ▸ rfl⟩
  have bound : g.position a < g.nodes.length := same ▸ position_lt known
  have here := id_getElem_position bound
  simp only [same, id_getElem_position (position_lt known)] at here
  exact here.symm

/-- An edge with these ends and this key is noted just if there is one. -/
theorem mem_traces_iff {destination : String} {key : Nat} (known : source ∈ g.ids)
    (known' : destination ∈ g.ids) :
    (g.position source, g.position destination, key) ∈ g.traces ↔
      ∃ e ∈ g.between source destination, e.key = key := by
  simp only [traces, trace, List.mem_reverse, List.mem_map, Prod.mk.injEq, position_eq_iff known,
    position_eq_iff known', mem_between, and_assoc]

theorem ids_addEntries {es : List EdgeEntry} (put : g.addEntries source es = .ok g') :
    g'.ids = g.ids := by
  induction es generalizing g with
  | nil => cases put; rfl
  | cons e es ih =>
    unfold addEntries at put
    split at put
    next => cases put
    next =>
      split at put
      next => cases put
      next => exact ih (g := { g with edges := g.edges ++ [e.edge source] }) put

/-- The table leads to the same checks as the ids of the nodes, and the edges that are put in are noted. -/
theorem insertEdges_indexed (known : source ∈ g.ids) (es : List EdgeEntry) :
    g.indexed.insertEdges g.traces source (g.position source) es =
      (g.addEntries source es).map fun g' => (g'.indexed, g'.traces) := by
  induction es generalizing g with
  | nil => rfl
  | cons e es ih =>
    unfold Indexed.insertEdges addEntries
    by_cases known' : e.id ∈ g.ids
    · rw [index_indexed, index_of_mem known', if_neg (by simp [contains_iff.mpr known'])]
      dsimp only
      have met : g.traces.contains (g.position source, g.position e.id, e.key) = true ↔
          ((g.between source e.id).any fun f => f.key == e.key) = true := by
        rw [List.contains_iff_mem, mem_traces_iff known known', List.any_eq_true]
        simp only [beq_iff_eq]
      by_cases shared : ((g.between source e.id).any fun f => f.key == e.key) = true
      · rw [if_pos (met.mpr shared), if_pos shared]
        rfl
      · rw [if_neg (mt met.mp shared), if_neg shared]
        have noted : ({ g with edges := g.edges ++ [e.edge source] } : Graph).traces =
            (g.position source, g.position e.id, e.key) :: g.traces := by
          unfold traces
          rw [List.map_append, List.reverse_append]
          rfl
        have next := ih (g := { g with edges := g.edges ++ [e.edge source] }) known
        rwa [noted] at next
    · rw [index_indexed, index_of_not_mem known',
        if_pos (by simp [contains_eq_false_iff.mpr known'])]
      rfl

/-- Entering the lists of all nodes into state and tables is adding them to the graph. -/
theorem insertLists_indexed {lists : List (String × List EdgeEntry)}
    (known : ∀ list ∈ lists, list.1 ∈ g.ids) :
    g.indexed.insertLists g.traces lists = (g.addAdjacency lists).map indexed := by
  induction lists generalizing g with
  | nil => rfl
  | cons list lists ih =>
    obtain ⟨source, es⟩ := list
    obtain ⟨own, others⟩ := List.forall_mem_cons.mp known
    unfold Indexed.insertLists addAdjacency
    rw [index_indexed, index_of_mem own]
    dsimp only
    rw [insertEdges_indexed own]
    cases put : g.addEntries source es with
    | error f => rfl
    | ok g' => exact ih fun list inside => ids_addEntries put ▸ others list inside

/-- A document is read with its table just as it is without; the table is the one that the nodes
state. -/
theorem ofDocument_indexed (d : Document) :
    Indexed.ofDocument d = (ofDocument d).map indexed := by
  unfold Indexed.ofDocument ofDocument
  split
  · rfl
  split
  · rfl
  next length =>
    have none_ : ∀ id, id ∈ ([] : List String) ↔ id ∈ empty.ids := fun id => Iff.rfl
    rw [← empty_indexed, insertNodes_indexed none_]
    cases repeatedId? [] d.nodes with
    | some id => rfl
    | none =>
      refine insertLists_indexed (g := { nodes := d.nodes.map NodeEntry.node }) fun list inside => ?_
      rw [show ({ nodes := d.nodes.map NodeEntry.node } : Graph).ids = _ from d.ids_graph]
      exact (List.of_mem_zip inside).1

end Workflow.Graph
