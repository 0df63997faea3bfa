import Mathlib.Data.String.Basic
import Workflow.Graph.Document
import Workflow.Proofs.Graph.Transitions
import Workflow.Proofs.Reachability
import Workflow.Proofs.Lists

/-!
What look-ups in a graph say about its nodes and transitions. Documents of graphs state the nodes in
order, and the transitions out of a node in an order of their own.
-/

namespace Workflow.Graph

variable {g : Graph} {id : String} {es : List Edge} {e : Edge}

theorem exists_task (known : id ∈ g.ids) : ∃ n, g.task id = .ok n ∧ n.id = id := by
  obtain ⟨n, found⟩ := exists_node? known
  exact ⟨n, task_eq_ok_iff.mpr found, (mem_of_node? found).2⟩

theorem mem_of_task {n : Node} (found : g.task id = .ok n) : n ∈ g.nodes ∧ n.id = id :=
  mem_of_node? (task_eq_ok_iff.mp found)

theorem task_of_mem {n : Node} (unique : g.ids.Nodup) (inside : n ∈ g.nodes) :
    g.task n.id = .ok n :=
  task_eq_ok_iff.mpr ((node?_eq_some_iff unique).mpr ⟨inside, rfl⟩)

theorem mem_ids_of_task {n : Node} (found : g.task id = .ok n) : id ∈ g.ids := by
  obtain ⟨inside, named⟩ := mem_of_task found
  exact mem_ids_iff.mpr ⟨n, inside, named⟩

theorem exists_next (known : id ∈ g.ids) : ∃ es, g.next id = .ok es := by
  unfold next
  rw [if_pos (contains_iff.mpr known)]
  exact ⟨_, rfl⟩

theorem mem_next_iff (found : g.next id = .ok es) : e ∈ es ↔ e ∈ g.edges ∧ e.source = id := by
  unfold next at found
  split at found
  next =>
    cases found
    simp
  next => cases found

theorem length_next_le (found : g.next id = .ok es) : es.length ≤ g.edges.length := by
  unfold next at found
  split at found
  next =>
    cases found
    rw [List.length_mergeSort]
    exact List.length_filter_le _ _
  next => cases found

theorem exists_prev (known : id ∈ g.ids) : ∃ es, g.prev id = .ok es := by
  unfold prev
  rw [if_pos (contains_iff.mpr known)]
  exact ⟨_, rfl⟩

theorem mem_prev_iff (found : g.prev id = .ok es) : e ∈ es ↔ e ∈ g.edges ∧ e.destination = id := by
  unfold prev at found
  split at found
  next =>
    cases found
    simp
  next => cases found

/-- Transitions between two nodes are numbered in the order in which they came. -/
def KeysCount (g : Graph) : Prop :=
  ∀ a b, (g.between a b).map Edge.key = List.range (g.between a b).length

/-- If keys count the transitions, then these are sorted by them. -/
theorem KeysCount.eq_between (count : g.KeysCount) {a b : String} (perm : es.Perm (g.between a b))
    (sorted : es.Pairwise fun e e' => e.key ≤ e'.key) : es = g.between a b := by
  have numbered := count a b
  have unique : ((g.between a b).map Edge.key).Nodup := numbered ▸ List.nodup_range
  have ordered : (g.between a b).Pairwise fun e e' => e.key ≤ e'.key := by
    have increasing : ((g.between a b).map Edge.key).Pairwise (· ≤ ·) := numbered ▸ List.pairwise_le_range
    exact List.pairwise_map.mp increasing
  refine perm.eq_of_pairwise (fun e e' inside inside' first second => ?_) sorted ordered
  exact List.inj_on_of_nodup_map unique (perm.mem_iff.mp inside) inside' (Nat.le_antisymm first second)

/-- The transitions out of a node lead to each other one in the order in which they came. -/
theorem KeysCount.filter_next (count : g.KeysCount) (links : g.next id = .ok es) (b : String) :
    (es.filter fun e => e.destination == b) = g.between id b := by
  unfold next at links
  split at links
  next =>
    cases links
    refine count.eq_between ?_ ?_
    · refine ((List.mergeSort_perm _ _).filter _).trans ?_
      rw [List.filter_filter, between]
      simp only [Bool.and_comm, List.Perm.refl]
    · refine ((pairwise_mergeSort_lex Edge.destination Edge.key _).filter _).imp_of_mem ?_
      intro e e' inside inside' le
      simp only [List.mem_filter, beq_iff_eq] at inside inside'
      simpa [inside.2, inside'.2] using le
  next => cases links

/-- The transitions into a node come from each other one in the order in which they came. -/
theorem KeysCount.filter_prev (count : g.KeysCount) (led : g.prev id = .ok es) (a : String) :
    (es.filter fun e => e.source == a) = g.between a id := by
  unfold prev at led
  split at led
  next =>
    cases led
    refine count.eq_between ?_ ?_
    · refine ((List.mergeSort_perm _ _).filter _).trans ?_
      rw [List.filter_filter, between]
    · refine ((pairwise_mergeSort_lex Edge.source Edge.key _).filter _).imp_of_mem ?_
      intro e e' inside inside' le
      simp only [List.mem_filter, beq_iff_eq] at inside inside'
      simpa [inside.2, inside'.2] using le
  next => cases led

/-- The nodes that the transitions out of a node lead to, in order. -/
def following (g : Graph) (id : String) : List String :=
  ((g.edges.filter fun e => e.source == id).mergeSort Edge.leByDestination).map Edge.destination

theorem following_of_next (links : g.next id = .ok es) :
    g.following id = es.map Edge.destination := by
  unfold next at links
  split at links
  next =>
    cases links
    rfl
  next => cases links

/-- A task is followed by those that a transition leads to. -/
theorem mem_following_iff {d : String} : d ∈ g.following id ↔ g.Adjacent id d := by
  unfold following Adjacent
  simp only [List.mem_map, List.mem_mergeSort, List.mem_filter, beq_iff_eq, and_assoc]

theorem following_sorted (g : Graph) (id : String) : (g.following id).Pairwise (· ≤ ·) := by
  refine List.pairwise_map.mpr
    ((pairwise_mergeSort_lex Edge.destination Edge.key _).imp fun {a b} le => ?_)
  rcases le with before | ⟨same, _⟩
  · exact before.le
  · exact same.le

/-- Roots are the tasks that no transition leads into. -/
theorem mem_roots_iff : id ∈ g.roots ↔ id ∈ g.ids ∧ ∀ e ∈ g.edges, e.destination ≠ id := by
  unfold roots
  rw [List.mem_mergeSort, List.mem_filter, Bool.not_eq_true', List.any_eq_false]
  simp only [beq_iff_eq]

theorem roots_nodup (unique : g.ids.Nodup) : g.roots.Nodup :=
  (List.mergeSort_perm _ _).nodup_iff.mpr (unique.filter _)

/-- The roots are sorted by id, so they depend on which they are only. -/
theorem roots_eq_of_mem_iff {h : Graph} (unique : g.ids.Nodup) (unique' : h.ids.Nodup)
    (same : ∀ id, id ∈ g.roots ↔ id ∈ h.roots) : g.roots = h.roots := by
  have perm := (List.perm_ext_iff_of_nodup (roots_nodup unique) (roots_nodup unique')).mpr same
  exact perm.eq_of_pairwise (fun a b _ _ first second => le_antisymm first second)
    (pairwise_mergeSort_le _) (pairwise_mergeSort_le _)

theorem mem_successors_iff {d : String} : d ∈ g.successors id ↔ g.Adjacent id d := by
  unfold successors Adjacent
  simp only [List.mem_map, List.mem_filter, beq_iff_eq, and_assoc]

/-- A task is on a cycle if transitions lead back to it. -/
theorem inCycle_iff :
    g.inCycle id = true ↔ Relation.TransGen (Within g.successors g.ids) id id := by
  unfold inCycle
  rw [List.contains_iff_mem, mem_reach_next_iff]

/-- Where transitions lead to nodes only, a task is on a cycle just if they lead back to it. -/
theorem inCycle_iff_transGen (known : ∀ e ∈ g.edges, e.destination ∈ g.ids) :
    g.inCycle id = true ↔ Relation.TransGen g.Adjacent id id := by
  have within : Within g.successors g.ids = g.Adjacent := by
    funext a b
    unfold Within
    rw [mem_successors_iff]
    refine propext ⟨And.left, fun adjacent => ⟨adjacent, ?_⟩⟩
    obtain ⟨e, inside, _, target⟩ := adjacent
    exact target ▸ known e inside
  rw [inCycle_iff, within]

section Document

variable {x : Graph} {a b : String}

theorem position_lt (known : a ∈ g.ids) : g.position a < g.nodes.length := by
  obtain ⟨n, inside, named⟩ := mem_ids_iff.mp known
  exact List.findIdx_lt_length_of_exists ⟨n, inside, beq_iff_eq.mpr named⟩

theorem id_getElem_position (bound : g.position a < g.nodes.length) :
    (g.nodes[g.position a]).id = a := by
  have named := List.findIdx_getElem (p := fun n : Node => n.id == a) (w := bound)
  exact beq_iff_eq.mp named

/-- Nodes stand in places of their own. -/
theorem position_inj (known : a ∈ g.ids) (known' : b ∈ g.ids) (same : g.position a = g.position b) :
    a = b := by
  have here := id_getElem_position (position_lt known)
  have there := id_getElem_position (position_lt known')
  simp only [← same] at there
  exact here.symm.trans there

/-- The transitions out of a node are sorted by their destinations and keys, so they depend on which they
are only. -/
theorem Sound.outgoing_eq (sound : g.Sound) (nodes : x.nodes = g.nodes)
    (edges : x.edges.Perm g.edges) (a : String) : x.outgoing a = g.outgoing a := by
  have place : x.position = g.position := by
    unfold position
    rw [nodes]
  have listed : ((g.edges.filter fun e => e.source == a).map fun e => (g.position e.destination, e)).Perm
      ((x.edges.filter fun e => e.source == a).map fun e => (g.position e.destination, e)) :=
    (edges.symm.filter _).map _
  unfold outgoing
  rw [place]
  refine congrArg _ (mergeSort_lex_eq_of_perm (f := Prod.fst) (k := fun o : Nat × Edge => o.2.key)
    listed ?_).symm
  intro o inside o' inside' samePlace sameKey
  simp only [List.mem_map, List.mem_filter, beq_iff_eq] at inside inside'
  obtain ⟨e, ⟨edge, source⟩, rfl⟩ := inside
  obtain ⟨e', ⟨edge', source'⟩, rfl⟩ := inside'
  have target : e.destination = e'.destination :=
    position_inj (sound.destination_mem e edge) (sound.destination_mem e' edge') samePlace
  rw [sound.eq_of_key_eq edge edge' (source.trans source'.symm) target sameKey]

/-- Graphs with the same nodes in the same order, and with the same transitions in any, have one
document. -/
theorem Sound.document_eq (sound : g.Sound) (nodes : x.nodes = g.nodes)
    (edges : x.edges.Perm g.edges) : x.document = g.document := by
  have adjacency : (fun n : Node => (x.outgoing n.id).map Edge.entry) =
      fun n => (g.outgoing n.id).map Edge.entry := by
    funext n
    rw [sound.outgoing_eq nodes edges]
  unfold document
  rw [nodes, adjacency]

end Document

end Workflow.Graph
