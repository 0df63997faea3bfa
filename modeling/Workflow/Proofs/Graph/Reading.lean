import Workflow.Proofs.Graph.Lookup
import Workflow.Proofs.Graph.Session

/-!
Which documents state a graph, and which graph they state.
-/

namespace Workflow.Graph

variable {g g' : Graph} {d : Document} {source : String} {es : List EdgeEntry}

def listed (list : String × List EdgeEntry) : List Edge :=
  list.2.map (EdgeEntry.edge list.1)

@[simp] theorem listed_nil (source : String) : listed (source, []) = [] := rfl

@[simp] theorem listed_cons (source : String) (e : EdgeEntry) (es : List EdgeEntry) :
    listed (source, e :: es) = e.edge source :: listed (source, es) := rfl

def Document.lists (d : Document) : List (String × List EdgeEntry) :=
  (d.nodes.map NodeEntry.id).zip d.adjacency

theorem Document.mem_lists {i : Nat} (bound : i < d.nodes.length) (bound' : i < d.adjacency.length) :
    ((d.nodes[i]).id, d.adjacency[i]) ∈ d.lists :=
  List.mem_iff_getElem.mpr ⟨i, by simp [lists, bound, bound'], by simp [lists]⟩

def Document.edges (d : Document) : List Edge :=
  d.lists.flatMap listed

/-- A document that states a graph: it is said to be a directed multigraph, it has one list of edges for
each node, no two nodes have one id, edges lead to nodes that are listed, and no two edges share their
ends and their key. -/
structure Document.WellFormed (d : Document) : Prop where
  directed : d.directed = true
  multigraph : d.multigraph = true
  length : d.adjacency.length = d.nodes.length
  ids : (d.nodes.map NodeEntry.id).Nodup
  targets : ∀ es ∈ d.adjacency, ∀ e ∈ es, e.id ∈ d.nodes.map NodeEntry.id
  edges : (d.edges.map Edge.identity).Nodup

/-- The graph with the nodes and the edges that a document lists. -/
def Document.graph (d : Document) : Graph :=
  { nodes := d.nodes.map NodeEntry.node, edges := d.edges }

@[simp] theorem NodeEntry.node_id (e : NodeEntry) : e.node.id = e.id := rfl

theorem Document.ids_graph (d : Document) : d.graph.ids = d.nodes.map NodeEntry.id := by
  simp [Graph.ids, Document.graph, Function.comp_def]

/-- The search for a repeated id comes up empty just if the ids are distinct from each other and from
those seen before. -/
theorem repeatedId?_eq_none_iff {seen : List String} {es : List NodeEntry} :
    repeatedId? seen es = none ↔ (es.map NodeEntry.id).Nodup ∧ ∀ e ∈ es, e.id ∉ seen := by
  induction es generalizing seen with
  | nil => simp [repeatedId?]
  | cons e es ih =>
    unfold repeatedId?
    by_cases known : e.id ∈ seen
    · simp [known]
    · simp only [List.contains_eq_mem, known, decide_false, Bool.false_eq_true, if_false, ih,
        List.mem_cons, not_or, List.map_cons, List.nodup_cons, List.mem_map, not_exists, not_and]
      grind

/-- The edges of a node are put in just if they lead to nodes and share no key with an edge between the
same nodes, among them and the ones before. -/
theorem addEntries_eq_ok_iff (apart : (g.edges.map Edge.identity).Nodup) :
    g.addEntries source es = .ok g' ↔
      (∀ e ∈ es, e.id ∈ g.ids) ∧
      ((g.edges ++ listed (source, es)).map Edge.identity).Nodup ∧
      g' = { g with edges := g.edges ++ listed (source, es) } := by
  induction es generalizing g with
  | nil => simp [addEntries, apart, eq_comm]
  | cons e es ih =>
    have taken : ((g.between source e.id).any fun f => f.key == e.key) = true ↔
        (e.edge source).identity ∈ g.edges.map Edge.identity := by
      simp [mem_between, Edge.identity, EdgeEntry.edge, and_assoc]
    unfold addEntries
    -- The checks in the order in which they are made: the destination, then the key.
    by_cases known : e.id ∈ g.ids
    · rw [if_neg (by simp [contains_iff.mpr known])]
      by_cases shared : (e.edge source).identity ∈ g.edges.map Edge.identity
      · rw [if_pos (taken.mpr shared)]
        constructor
        · intro read
          cases read
        · rintro ⟨_, unique, _⟩
          rw [List.map_append, List.nodup_append] at unique
          exact absurd rfl (unique.2.2 _ shared _ (by simp))
      · rw [if_neg (by rw [taken]; exact shared)]
        have apart' : ((g.edges ++ [e.edge source]).map Edge.identity).Nodup := by
          rw [List.map_append, List.map_singleton]
          exact List.concat_eq_append ▸ apart.concat shared
        rw [ih (g := { g with edges := g.edges ++ [e.edge source] }) apart']
        have ids : ({ g with edges := g.edges ++ [e.edge source] } : Graph).ids = g.ids := rfl
        simp only [ids, List.append_assoc, List.singleton_append, listed_cons, List.forall_mem_cons,
          known, true_and]
    · rw [if_pos (by simp [contains_eq_false_iff.mpr known])]
      constructor
      · intro read
        cases read
      · rintro ⟨targets, _⟩
        exact absurd (targets e List.mem_cons_self) known

/-- The edges of a document are added just if they lead to nodes and are told apart. -/
theorem addAdjacency_eq_ok_iff {lists : List (String × List EdgeEntry)}
    (apart : (g.edges.map Edge.identity).Nodup) :
    g.addAdjacency lists = .ok g' ↔
      (∀ list ∈ lists, ∀ e ∈ list.2, e.id ∈ g.ids) ∧
      ((g.edges ++ lists.flatMap listed).map Edge.identity).Nodup ∧
      g' = { g with edges := g.edges ++ lists.flatMap listed } := by
  induction lists generalizing g with
  | nil => simp [addAdjacency, apart, eq_comm]
  | cons list lists ih =>
    obtain ⟨source, es⟩ := list
    have put : ∀ g', g.addEntries source es = .ok g' ↔ _ := fun _ => addEntries_eq_ok_iff apart
    unfold addAdjacency
    cases read : g.addEntries source es with
    | error f =>
      constructor
      · intro read
        cases read
      · intro ⟨targets, unique, _⟩
        -- What the first list breaks, all lists break.
        have part : (g.edges ++ listed (source, es)).Sublist
            (g.edges ++ ((source, es) :: lists).flatMap listed) := by
          simp
        have read' := (put _).mpr ⟨targets (source, es) List.mem_cons_self,
          unique.sublist (part.map Edge.identity), rfl⟩
        rw [read] at read'
        cases read'
    | ok g₁ =>
      obtain ⟨targets, apart', rfl⟩ := (put g₁).mp read
      have ids : ({ g with edges := g.edges ++ listed (source, es) } : Graph).ids = g.ids := rfl
      simp only
      rw [ih (g := { g with edges := g.edges ++ listed (source, es) }) apart', ids,
        List.forall_mem_cons, List.flatMap_cons, ← List.append_assoc]
      exact and_congr_left fun _ => (and_iff_right targets).symm

/-- A document is read just if it is well-formed, and as the graph with what it lists. -/
theorem ofDocument_eq_ok_iff : ofDocument d = .ok g ↔ d.WellFormed ∧ g = d.graph := by
  have ids : ({ nodes := d.nodes.map NodeEntry.node } : Graph).ids = d.nodes.map NodeEntry.id :=
    d.ids_graph
  unfold ofDocument
  by_cases kind : d.directed = true ∧ d.multigraph = true
  · rw [if_neg (by simp [kind])]
    by_cases length : d.adjacency.length = d.nodes.length
    · rw [if_neg (by simp [length])]
      cases repeated : repeatedId? [] d.nodes with
      | some id =>
        constructor
        · intro read
          cases read
        · intro ⟨formed, _⟩
          rw [repeatedId?_eq_none_iff.mpr ⟨formed.ids, by simp⟩] at repeated
          cases repeated
      | none =>
        have unique := (repeatedId?_eq_none_iff.mp repeated).1
        simp only
        rw [addAdjacency_eq_ok_iff (by simp), ids, List.nil_append, ← Document.lists, ← Document.edges]
        constructor
        · intro ⟨targets, edges, same⟩
          refine ⟨⟨kind.1, kind.2, length, unique, ?_, edges⟩, same⟩
          intro es inside
          obtain ⟨i, bound, rfl⟩ := List.getElem_of_mem inside
          exact targets _ (d.mem_lists (length ▸ bound) bound)
        · intro ⟨formed, same⟩
          exact ⟨fun list inside => formed.targets list.2 (List.of_mem_zip inside).2, formed.edges, same⟩
    · rw [if_pos length]
      constructor
      · intro read
        cases read
      · intro ⟨formed, _⟩
        exact absurd formed.length length
  · have other : (!d.directed || !d.multigraph) = true := by
      simpa using Decidable.not_and_iff_not_or_not.mp kind
    rw [if_pos other]
    constructor
    · intro read
      cases read
    · intro ⟨formed, _⟩
      exact absurd ⟨formed.directed, formed.multigraph⟩ kind

theorem source_of_mem_listed {list : String × List EdgeEntry} {e : Edge} (inside : e ∈ listed list) :
    e.source = list.1 := by
  obtain ⟨_, _, rfl⟩ := List.mem_map.mp inside
  rfl

/-- Where each node has one list, the edges out of a node are those in its list. -/
theorem filter_listed {lists : List (String × List EdgeEntry)} (unique : (lists.map Prod.fst).Nodup)
    {list : String × List EdgeEntry} (inside : list ∈ lists) :
    (lists.flatMap listed).filter (fun e => e.source == list.1) = listed list := by
  induction lists with
  | nil => cases inside
  | cons head lists ih =>
    rw [List.map_cons, List.nodup_cons] at unique
    rw [List.flatMap_cons, List.filter_append]
    obtain rfl | inside := List.mem_cons.mp inside
    · have all : (listed list).filter (fun e => e.source == list.1) = listed list := by
        apply List.filter_eq_self.mpr
        intro e there
        simp [source_of_mem_listed there]
      have none_ : (lists.flatMap listed).filter (fun e => e.source == list.1) = [] := by
        apply List.filter_eq_nil_iff.mpr
        intro e there same
        obtain ⟨other, later, there⟩ := List.mem_flatMap.mp there
        rw [source_of_mem_listed there, beq_iff_eq] at same
        exact unique.1 (List.mem_map.mpr ⟨other, later, same⟩)
      rw [all, none_, List.append_nil]
    · have none_ : (listed head).filter (fun e => e.source == list.1) = [] := by
        apply List.filter_eq_nil_iff.mpr
        intro e there same
        rw [source_of_mem_listed there, beq_iff_eq] at same
        exact unique.1 (List.mem_map.mpr ⟨list, inside, same.symm⟩)
      rw [none_, List.nil_append, ih unique.2 inside]

def Document.position (d : Document) (id : String) : Nat :=
  d.nodes.findIdx fun n => n.id == id

/-- Order by the place of the destination, then by key. -/
def Document.leByPlace (d : Document) (a b : EdgeEntry) : Bool :=
  decide (d.position a.id < d.position b.id) ||
    (d.position a.id == d.position b.id && decide (a.key ≤ b.key))

/-- The node without its name, if that is the id. -/
def NodeEntry.brief (e : NodeEntry) : NodeEntry :=
  { e with name := e.name.filter fun name => name != e.id }

/-- The document with no name that is the id, without attributes, and with the edges of each node sorted
by the place of the destination and the key. -/
def Document.normal (d : Document) : Document :=
  { d with
    attributes := .object []
    nodes := d.nodes.map NodeEntry.brief
    adjacency := d.adjacency.map fun es => es.mergeSort d.leByPlace }

theorem NodeEntry.entry_node (e : NodeEntry) : e.node.entry = e.brief := by
  obtain ⟨id, name, barrier, splits, retry⟩ := e
  cases name with
  | none => simp [node, Node.entry, brief]
  | some name => by_cases same : name = id <;> simp [node, Node.entry, brief, same, Option.filter_some]

/-- The nodes of a document are in the places of those of its graph. -/
theorem Document.position_graph (d : Document) (id : String) :
    d.graph.position id = d.position id := by
  simp [Graph.position, Document.graph, Document.position, List.findIdx_map, NodeEntry.node,
    Function.comp_def]

/-- The edges out of a node are written as its list, sorted. -/
theorem Document.WellFormed.outgoing_graph (formed : d.WellFormed) {list : String × List EdgeEntry}
    (inside : list ∈ d.lists) :
    (d.graph.outgoing list.1).map Edge.entry = list.2.mergeSort d.leByPlace := by
  have unique : (d.lists.map Prod.fst).Nodup := by
    rw [Document.lists, List.map_fst_zip (by simp [formed.length])]
    exact formed.ids
  have edges : (d.graph.edges.filter fun e => e.source == list.1) = listed list :=
    filter_listed unique inside
  -- The entries are sorted as the edges are that they state, so sorting and writing can be swapped.
  have sorted := List.map_mergeSort (r := d.leByPlace) (s := Graph.leByPlace)
    (f := fun e : EdgeEntry => (d.position e.id, e.edge list.1)) (l := list.2) fun _ _ _ _ => rfl
  unfold outgoing
  simp only [edges, listed, List.map_map, Function.comp_def, d.position_graph,
    EdgeEntry.edge] at sorted ⊢
  rw [← sorted, List.map_map]
  exact List.map_id _

/-- The graph of a well-formed document is written as the document in its normal form. -/
theorem Document.WellFormed.document_graph (formed : d.WellFormed) : d.graph.document = d.normal := by
  have nodes : d.graph.nodes.map Node.entry = d.nodes.map NodeEntry.brief := by
    simp [Document.graph, NodeEntry.entry_node]
  have adjacency : (d.graph.nodes.map fun n => (d.graph.outgoing n.id).map Edge.entry) =
      d.adjacency.map fun es => es.mergeSort d.leByPlace := by
    apply List.ext_getElem
    · simp [Document.graph, formed.length]
    · intro i bound bound'
      have bound : i < d.nodes.length := by simpa [Document.graph] using bound
      have bound' : i < d.adjacency.length := by simpa using bound'
      simpa [Document.graph] using formed.outgoing_graph (d.mem_lists bound bound')
  unfold document Document.normal
  rw [nodes, adjacency, formed.directed, formed.multigraph]

theorem Document.mem_edges_iff {e : Edge} :
    e ∈ d.edges ↔ ∃ list ∈ d.lists, ∃ entry ∈ list.2, entry.edge list.1 = e := by
  simp [Document.edges, listed]

/-- What a well-formed document states fits together. -/
theorem Document.WellFormed.sound (formed : d.WellFormed) : d.graph.Sound := by
  refine ⟨?_, ?_, ?_, keys_apart_iff.mpr formed.edges⟩
  · rw [d.ids_graph]
    exact formed.ids
  · intro e inside
    obtain ⟨list, there, entry, _, rfl⟩ := Document.mem_edges_iff.mp inside
    rw [d.ids_graph]
    exact (List.of_mem_zip there).1
  · intro e inside
    obtain ⟨list, there, entry, within, rfl⟩ := Document.mem_edges_iff.mp inside
    rw [d.ids_graph]
    exact formed.targets list.2 (List.of_mem_zip there).2 entry within

/-- A graph that is read is sound. -/
theorem sound_of_ofDocument (states : ofDocument d = .ok g) : g.Sound := by
  obtain ⟨formed, rfl⟩ := ofDocument_eq_ok_iff.mp states
  exact formed.sound

theorem sound_of_begun (begun : g.Begun) : g.Sound := by
  cases begun with
  | empty => exact sound_empty
  | read states => exact sound_of_ofDocument states

theorem outgoing_perm (g : Graph) (id : String) :
    (g.outgoing id).Perm (g.edges.filter fun e => e.source == id) := by
  have perm := (List.mergeSort_perm ((g.edges.filter fun e => e.source == id).map fun e =>
    (g.position e.destination, e)) leByPlace).map Prod.snd
  simpa [outgoing, Function.comp_def] using perm

theorem mem_outgoing_iff {e : Edge} {id : String} :
    e ∈ g.outgoing id ↔ e ∈ g.edges ∧ e.source = id := by
  simp [(g.outgoing_perm id).mem_iff]

theorem Node.node_entry (n : Node) : n.entry.node = n := by
  obtain ⟨id, name, barrier, splits, retry⟩ := n
  by_cases same : name = id <;> simp [entry, NodeEntry.node, same]

theorem listed_outgoing (g : Graph) (id : String) :
    listed (id, (g.outgoing id).map Edge.entry) = g.outgoing id := by
  unfold listed
  rw [List.map_map]
  refine (List.map_congr_left fun e there => ?_).trans (List.map_id _)
  obtain ⟨_, rfl⟩ := mem_outgoing_iff.mp there
  rfl

theorem edges_document (g : Graph) : g.document.edges = g.nodes.flatMap fun n => g.outgoing n.id := by
  unfold Document.edges Document.lists document
  rw [List.map_map, List.zip_map', List.flatMap_map]
  exact List.flatMap_congr fun n _ => g.listed_outgoing n.id

/-- The lists of a document hold each transition once. -/
theorem Sound.edges_document_perm (sound : g.Sound) : g.document.edges.Perm g.edges := by
  rw [edges_document]
  have unique : (g.nodes.flatMap fun n => g.outgoing n.id).Nodup := by
    refine List.nodup_flatMap.mpr ⟨?_, ?_⟩
    · intro n _
      exact (g.outgoing_perm n.id).nodup_iff.mpr (sound.edges_nodup.filter _)
    · refine (List.pairwise_map.mp sound.unique).imp ?_
      intro n m apart e first second
      exact apart ((mem_outgoing_iff.mp first).2.symm.trans (mem_outgoing_iff.mp second).2)
  refine (List.perm_ext_iff_of_nodup unique sound.edges_nodup).mpr fun e => ?_
  simp only [List.mem_flatMap, mem_outgoing_iff]
  constructor
  · intro ⟨_, _, inside, _⟩
    exact inside
  · intro inside
    obtain ⟨n, there, named⟩ := mem_ids_iff.mp (sound.source_mem e inside)
    exact ⟨n, there, inside, named.symm⟩

/-- The document of a sound graph is well formed. -/
theorem Sound.document_wellFormed (sound : g.Sound) : g.document.WellFormed := by
  have ids : g.document.nodes.map NodeEntry.id = g.ids := by
    simp [document, Graph.ids, Node.entry, Function.comp_def]
  refine ⟨rfl, rfl, by simp [document], ids ▸ sound.unique, ?_, ?_⟩
  · intro es inside entry there
    obtain ⟨n, _, rfl⟩ := List.mem_map.mp inside
    obtain ⟨e, leaves, rfl⟩ := List.mem_map.mp there
    exact ids ▸ sound.destination_mem e (mem_outgoing_iff.mp leaves).1
  · exact (sound.edges_document_perm.map Edge.identity).nodup_iff.mpr sound.identities_nodup

theorem nodes_document (g : Graph) : g.document.graph.nodes = g.nodes := by
  simp [document, Document.graph, Node.node_entry, Function.comp_def]

end Workflow.Graph
