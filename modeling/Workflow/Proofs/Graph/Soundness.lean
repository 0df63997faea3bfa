import Mathlib.Data.List.Pairwise
import Workflow.Proofs.Graph.Nodes

/-!
Graphs of which the transitions lead from nodes to nodes and are told apart by their keys, and what may
become of them.
-/

namespace Workflow.Graph

variable {g g' : Graph} {id source destination : String} {key : Nat}

theorem mem_between {e : Edge} :
    e ∈ g.between source destination ↔
      e ∈ g.edges ∧ e.source = source ∧ e.destination = destination := by
  simp [between, List.mem_filter]

/-- Every node has an id of its own, transitions lead from nodes to nodes, and those between the same
nodes have keys of their own; the criteria may be the same. -/
structure Sound (g : Graph) : Prop where
  unique : g.ids.Nodup
  source_mem : ∀ e ∈ g.edges, e.source ∈ g.ids
  destination_mem : ∀ e ∈ g.edges, e.destination ∈ g.ids
  keys : g.edges.Pairwise fun a b =>
    a.source = b.source → a.destination = b.destination → a.key ≠ b.key

theorem sound_empty : Sound .empty :=
  ⟨List.nodup_nil, nofun, nofun, .nil⟩

/-- What tells a transition from the others: its ends and its key. -/
def Edge.identity (e : Edge) : String × String × Nat :=
  (e.source, e.destination, e.key)

theorem Edge.identity_eq_iff {a b : Edge} :
    a.identity = b.identity ↔
      a.source = b.source ∧ a.destination = b.destination ∧ a.key = b.key := by
  simp [Edge.identity]

/-- Keys tell transitions between the same nodes apart just if no two transitions share their ends and
their key. -/
theorem keys_apart_iff {es : List Edge} :
    es.Pairwise (fun a b => a.source = b.source → a.destination = b.destination → a.key ≠ b.key) ↔
      (es.map Edge.identity).Nodup := by
  unfold List.Nodup
  rw [List.pairwise_map]
  simp only [ne_eq, Edge.identity_eq_iff, not_and]

theorem Sound.identities_nodup (sound : g.Sound) : (g.edges.map Edge.identity).Nodup :=
  keys_apart_iff.mp sound.keys

theorem Sound.eq_of_identity_eq (sound : g.Sound) {a b : Edge} (first : a ∈ g.edges)
    (second : b ∈ g.edges) (same : a.identity = b.identity) : a = b :=
  List.inj_on_of_nodup_map sound.identities_nodup first second same

theorem Sound.eq_of_key_eq (sound : g.Sound) {a b : Edge} (first : a ∈ g.edges)
    (second : b ∈ g.edges) (origin : a.source = b.source) (target : a.destination = b.destination)
    (same : a.key = b.key) : a = b :=
  sound.eq_of_identity_eq first second (Edge.identity_eq_iff.mpr ⟨origin, target, same⟩)

theorem Sound.edges_nodup (sound : g.Sound) : g.edges.Nodup :=
  sound.identities_nodup.of_map _

/-- Where a transition leads from one node to another, both are there. -/
theorem Sound.ensure_ends (sound : g.Sound) {e : Edge} (there : e ∈ g.between source destination) :
    (g.ensure source).ensure destination = g := by
  obtain ⟨inside, rfl, rfl⟩ := mem_between.mp there
  rw [ensure_of_mem (sound.source_mem e inside), ensure_of_mem (sound.destination_mem e inside)]

/-- A fresh key is greater than all that are taken. -/
theorem key_lt_freshKey {edges : List Edge} {e : Edge} (inside : e ∈ edges) :
    e.key < freshKey edges := by
  have bound : ∀ (rest : List Edge) (key : Nat),
      key ≤ rest.foldl (fun key e => max key (e.key + 1)) key ∧
      ∀ e ∈ rest, e.key < rest.foldl (fun key e => max key (e.key + 1)) key := by
    intro rest
    induction rest with
    | nil => simp
    | cons head tail ih =>
      intro key
      obtain ⟨least, others⟩ := ih (max key (head.key + 1))
      rw [List.foldl_cons]
      refine ⟨by omega, ?_⟩
      intro e inside
      rcases List.mem_cons.mp inside with rfl | inside
      · omega
      · exact others e inside
  exact (bound edges 0).2 e inside

theorem ids_modifyNode {f : Node → Node} (kept : ∀ n, (f n).id = n.id) :
    (g.modifyNode id f).ids = g.ids := by
  unfold ids modifyNode
  rw [List.map_map]
  refine List.map_congr_left fun n _ => ?_
  rw [Function.comp_apply]
  split
  · exact kept n
  · rfl

/-- Nodes may change and may be added as long as none goes away and their ids stay apart. -/
theorem Sound.of_subset (sound : g.Sound) (unique : g'.ids.Nodup) (ids : g.ids ⊆ g'.ids)
    (edges : g'.edges = g.edges) : g'.Sound := by
  refine ⟨unique, ?_, ?_, ?_⟩
  · intro e inside
    exact ids (sound.source_mem e (edges ▸ inside))
  · intro e inside
    exact ids (sound.destination_mem e (edges ▸ inside))
  · rw [edges]
    exact sound.keys

theorem Sound.modifyNode (sound : g.Sound) {f : Node → Node} (kept : ∀ n, (f n).id = n.id) :
    (g.modifyNode id f).Sound := by
  have same : (g.modifyNode id f).ids = g.ids := ids_modifyNode kept
  exact sound.of_subset (same ▸ sound.unique) (same ▸ List.Subset.refl _) rfl

/-- A new task has an id that no other one has. -/
theorem Sound.addTask (sound : g.Sound) (id : String) (a : Attributes) : (g.addTask id a).Sound := by
  apply sound.of_subset (nodup_addTask sound.unique) _ (edges_addTask g id a)
  intro other known
  exact mem_ids_addTask.mpr (.inl known)

theorem Sound.ensure (sound : g.Sound) (id : String) : (g.ensure id).Sound := by
  apply sound.of_subset (nodup_ensure sound.unique) _ (edges_ensure g id)
  intro other known
  exact mem_ids_ensure.mpr (.inl known)

theorem identities_modifyEdge {f : Edge → Edge} (kept : ∀ e, (f e).identity = e.identity) :
    (g.modifyEdge source destination key f).edges.map Edge.identity = g.edges.map Edge.identity := by
  unfold modifyEdge
  rw [List.map_map]
  refine List.map_congr_left fun e _ => ?_
  rw [Function.comp_apply]
  split
  · exact kept e
  · rfl

/-- Transitions may change as long as they keep their ends and their keys. -/
theorem Sound.modifyEdge (sound : g.Sound) {f : Edge → Edge}
    (kept : ∀ e, (f e).identity = e.identity) :
    (g.modifyEdge source destination key f).Sound := by
  have same : (g.modifyEdge source destination key f).edges.map Edge.identity =
      g.edges.map Edge.identity := identities_modifyEdge kept
  have origin : ∀ e ∈ (g.modifyEdge source destination key f).edges,
      ∃ e' ∈ g.edges, e'.identity = e.identity := by
    intro e changed
    exact List.mem_map.mp (same ▸ List.mem_map_of_mem changed)
  refine ⟨sound.unique, ?_, ?_, keys_apart_iff.mpr (same ▸ sound.identities_nodup)⟩
  · intro e changed
    obtain ⟨e', inside, same⟩ := origin e changed
    exact (Edge.identity_eq_iff.mp same).1 ▸ sound.source_mem e' inside
  · intro e changed
    obtain ⟨e', inside, same⟩ := origin e changed
    exact (Edge.identity_eq_iff.mp same).2.1 ▸ sound.destination_mem e' inside

/-- A transition may be added between two nodes with a key that no other between them has. -/
theorem Sound.append (sound : g.Sound) {e : Edge} (origin : e.source ∈ g.ids)
    (target : e.destination ∈ g.ids) (fresh : ∀ e' ∈ g.between e.source e.destination, e'.key ≠ e.key) :
    { g with edges := g.edges ++ [e] }.Sound := by
  refine ⟨sound.unique, ?_, ?_, ?_⟩
  · intro e' inside
    obtain inside | new := List.mem_append.mp inside
    · exact sound.source_mem e' inside
    · rw [List.mem_singleton.mp new]
      exact origin
  · intro e' inside
    obtain inside | new := List.mem_append.mp inside
    · exact sound.destination_mem e' inside
    · rw [List.mem_singleton.mp new]
      exact target
  · refine List.pairwise_append.mpr ⟨sound.keys, List.pairwise_singleton _ _, ?_⟩
    intro e' inside new single origin' target'
    obtain rfl := List.mem_singleton.mp single
    exact fresh e' (mem_between.mpr ⟨inside, origin', target'⟩)

end Workflow.Graph
