import Mathlib.Data.List.Nodup
import Workflow.Graph.Lookup
import Workflow.Graph.Operations

/-!
The nodes of a graph by id, and what adding a task does to them.
-/

namespace Workflow.Graph

variable {g : Graph} {id : String} {n : Node}

theorem mem_ids_iff : id ∈ g.ids ↔ ∃ n ∈ g.nodes, n.id = id := by
  unfold ids
  exact List.mem_map

theorem contains_iff : g.contains id = true ↔ id ∈ g.ids := by
  rw [mem_ids_iff]
  unfold contains
  rw [List.any_eq_true]
  simp only [beq_iff_eq]

theorem contains_eq_false_iff : g.contains id = false ↔ id ∉ g.ids := by
  rw [← contains_iff, Bool.not_eq_true]

theorem mem_of_node? (found : g.node? id = some n) : n ∈ g.nodes ∧ n.id = id := by
  unfold node? at found
  have named := List.find?_some found
  exact ⟨List.mem_of_find?_eq_some found, by simpa using named⟩

theorem exists_node? (known : id ∈ g.ids) : ∃ n, g.node? id = some n := by
  cases found : g.node? id with
  | some n => exact ⟨n, rfl⟩
  | none =>
    obtain ⟨n, inside, named⟩ := mem_ids_iff.mp known
    have missed := List.find?_eq_none.mp found n inside
    simp [named] at missed

theorem eq_of_id_eq (unique : g.ids.Nodup) {m : Node} (first : n ∈ g.nodes) (second : m ∈ g.nodes)
    (same : n.id = m.id) : n = m :=
  List.inj_on_of_nodup_map unique first second same

/-- Nodes of a graph are told by their ids, so lists of them are told by the ids in order. -/
theorem nodes_eq_of_ids_eq {x : Graph} (unique : g.ids.Nodup) (part : x.nodes ⊆ g.nodes)
    (same : x.ids = g.ids) : x.nodes = g.nodes := by
  have length : x.nodes.length = g.nodes.length := by
    simpa [ids] using congrArg List.length same
  refine List.ext_getElem length fun i bound bound' => ?_
  have id : (x.nodes[i]).id = (g.nodes[i]).id := by
    simpa [ids] using List.getElem_of_eq same (by simpa [ids] using bound)
  exact eq_of_id_eq unique (part (List.getElem_mem bound)) (List.getElem_mem bound') id

theorem node?_eq_some_iff (unique : g.ids.Nodup) :
    g.node? id = some n ↔ n ∈ g.nodes ∧ n.id = id := by
  constructor
  · exact mem_of_node?
  · rintro ⟨inside, named⟩
    obtain ⟨m, found⟩ := exists_node? (mem_ids_iff.mpr ⟨n, inside, named⟩)
    obtain ⟨inside', named'⟩ := mem_of_node? found
    rw [found, eq_of_id_eq unique inside inside' (named.trans named'.symm)]

theorem task_eq_ok_iff : g.task id = .ok n ↔ g.node? id = some n := by
  unfold task
  cases g.node? id with
  | none => simp
  | some m => simp

@[simp] theorem merge_id (n : Node) (a : Attributes) : (n.merge a).id = n.id := rfl

/-- The node that a task has before attributes are given to it; a new one if there was none. -/
def Before (g : Graph) (id : String) (n : Node) : Prop :=
  (n ∈ g.nodes ∧ n.id = id) ∨ (id ∉ g.ids ∧ n = .ofId id)

theorem Before.named (before : g.Before id n) : n.id = id := by
  rcases before with ⟨_, named⟩ | ⟨_, rfl⟩
  · exact named
  · rfl

theorem exists_before (g : Graph) (id : String) : ∃ n, g.Before id n := by
  by_cases known : id ∈ g.ids
  · obtain ⟨n, inside, named⟩ := mem_ids_iff.mp known
    exact ⟨n, .inl ⟨inside, named⟩⟩
  · exact ⟨.ofId id, .inr ⟨known, rfl⟩⟩

/-- To add a task is to merge its attributes into the node that it has, or into a new one. -/
theorem mem_addTask {a : Attributes} :
    n ∈ (g.addTask id a).nodes ↔
      (n ∈ g.nodes ∧ n.id ≠ id) ∨ ∃ m, g.Before id m ∧ n = m.merge a := by
  unfold addTask
  by_cases known : id ∈ g.ids
  · rw [if_pos (contains_iff.mpr known)]
    simp only [modifyNode, List.mem_map, beq_iff_eq]
    constructor
    · rintro ⟨m, inside, rfl⟩
      by_cases named : m.id = id
      · rw [if_pos named]
        exact .inr ⟨m, .inl ⟨inside, named⟩, rfl⟩
      · rw [if_neg named]
        exact .inl ⟨inside, named⟩
    · rintro (⟨inside, other⟩ | ⟨m, ⟨inside, named⟩ | ⟨unknown, _⟩, rfl⟩)
      · exact ⟨n, inside, if_neg other⟩
      · exact ⟨m, inside, if_pos named⟩
      · exact absurd known unknown
  · have other : ∀ m ∈ g.nodes, m.id ≠ id := by
      intro m inside named
      exact known (mem_ids_iff.mpr ⟨m, inside, named⟩)
    rw [if_neg (by rw [contains_iff]; exact known)]
    simp only [List.mem_append, List.mem_singleton]
    constructor
    · rintro (inside | rfl)
      · exact .inl ⟨inside, other n inside⟩
      · exact .inr ⟨.ofId id, .inr ⟨known, rfl⟩, rfl⟩
    · rintro (⟨inside, _⟩ | ⟨m, ⟨inside, named⟩ | ⟨_, rfl⟩, rfl⟩)
      · exact .inl inside
      · exact absurd named (other m inside)
      · exact .inr rfl

theorem ids_addTask (g : Graph) (id : String) (a : Attributes) :
    (g.addTask id a).ids = if g.contains id then g.ids else g.ids ++ [id] := by
  unfold addTask
  split
  · simp only [ids, modifyNode, List.map_map]
    refine List.map_congr_left fun n _ => ?_
    by_cases named : n.id = id <;> simp [named]
  · simp [ids, Node.ofId]

theorem length_addTask (g : Graph) (id : String) (a : Attributes) :
    (g.addTask id a).nodes.length = if g.contains id then g.nodes.length else g.nodes.length + 1 := by
  unfold addTask
  split
  next => exact List.length_map _
  next => exact List.length_append

theorem mem_ids_addTask {a : Attributes} {other : String} :
    other ∈ (g.addTask id a).ids ↔ other ∈ g.ids ∨ other = id := by
  rw [ids_addTask]
  split
  next known =>
    constructor
    · exact .inl
    · rintro (inside | rfl)
      · exact inside
      · exact contains_iff.mp known
  next =>
    rw [List.mem_append, List.mem_singleton]

theorem nodup_addTask {a : Attributes} (unique : g.ids.Nodup) : (g.addTask id a).ids.Nodup := by
  rw [ids_addTask]
  split
  · exact unique
  next unknown =>
    rw [contains_iff] at unknown
    exact List.concat_eq_append ▸ unique.concat unknown

@[simp] theorem edges_addTask (g : Graph) (id : String) (a : Attributes) :
    (g.addTask id a).edges = g.edges := by
  unfold addTask
  split <;> rfl

theorem mem_ensure : n ∈ (g.ensure id).nodes ↔ n ∈ g.nodes ∨ (id ∉ g.ids ∧ n = .ofId id) := by
  unfold ensure
  by_cases known : id ∈ g.ids
  · simp [contains_iff.mpr known, known]
  · simp [contains_eq_false_iff.mpr known, known]

theorem ids_ensure : (g.ensure id).ids = if id ∈ g.ids then g.ids else g.ids ++ [id] := by
  unfold ensure
  by_cases known : id ∈ g.ids
  · rw [if_pos (contains_iff.mpr known), if_pos known]
  · rw [if_neg (by rw [contains_iff]; exact known), if_neg known]
    simp [ids, Node.ofId]

theorem mem_ids_ensure {other : String} : other ∈ (g.ensure id).ids ↔ other ∈ g.ids ∨ other = id := by
  rw [ids_ensure]
  split
  next known =>
    constructor
    · exact .inl
    · rintro (inside | rfl)
      · exact inside
      · exact known
  next => rw [List.mem_append, List.mem_singleton]

theorem ensure_of_mem (known : id ∈ g.ids) : g.ensure id = g := by
  unfold ensure
  rw [if_pos (contains_iff.mpr known)]

theorem nodup_ensure (unique : g.ids.Nodup) : (g.ensure id).ids.Nodup := by
  rw [ids_ensure]
  split
  · exact unique
  next unknown => exact List.concat_eq_append ▸ unique.concat unknown

@[simp] theorem edges_ensure (g : Graph) (id : String) : (g.ensure id).edges = g.edges := by
  unfold ensure
  split <;> rfl

end Workflow.Graph
