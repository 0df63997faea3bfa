import Workflow.Proofs.Graph.Loading
import Workflow.Proofs.Results

/-!
Throughout a session, whatever document it starts from, the table of ids leads to the nodes that have
them, and keys tell transitions between the same nodes apart.
-/

namespace Workflow.Graph

variable {g : Graph} {id : String}

/-- The table of ids fits the nodes, and transitions differ in their ends or in their keys. -/
structure Indexed.Consistent (s : Indexed) : Prop where
  /-- A place is entered under an id just if the node there has it. -/
  entered : ∀ id i, s.index id = some i ↔ ∃ n, s.graph.nodes[i]? = some n ∧ n.id = id
  ids : s.graph.ids.Nodup
  identities : (s.graph.edges.map Edge.identity).Nodup

/-- The beginnings of sessions: the graph without nodes, and the graphs that are read. -/
inductive Indexed.Begun : Indexed → Prop where
  | empty : Begun .empty
  | read {d : Document} {s : Indexed} (states : Indexed.ofDocument d = .ok s) : Begun s

/-- A session begins with the table that the nodes state. -/
theorem Indexed.Begun.exists_graph {s : Indexed} (begun : s.Begun) :
    ∃ g : Graph, g.Begun ∧ s = g.indexed := by
  cases begun with
  | empty => exact ⟨_, .empty, rfl⟩
  | @read d s states =>
    rw [ofDocument_indexed] at states
    obtain ⟨g, stated, rfl⟩ := map_eq_ok_iff.mp states
    exact ⟨g, .read stated, rfl⟩

theorem index_eq_some_iff (unique : g.ids.Nodup) {i : Nat} :
    g.index id = some i ↔ ∃ n, g.nodes[i]? = some n ∧ n.id = id := by
  constructor
  · intro entered
    by_cases known : id ∈ g.ids
    · rw [index_of_mem known] at entered
      cases entered
      have bound := position_lt known
      exact ⟨_, List.getElem?_eq_getElem bound, id_getElem_position bound⟩
    · rw [index_of_not_mem known] at entered
      cases entered
  · rintro ⟨n, there, rfl⟩
    obtain ⟨bound, rfl⟩ := List.getElem?_eq_some_iff.mp there
    rw [index_of_mem (mem_ids_iff.mpr ⟨_, List.getElem_mem bound, rfl⟩),
      position_id_getElem unique bound]

theorem Sound.consistent (sound : g.Sound) : g.indexed.Consistent where
  entered _ _ := index_eq_some_iff sound.unique
  ids := sound.unique
  identities := sound.identities_nodup

/-- The key of a transition that is added is the one of the transition that it is merged with, or no
transition between these nodes has it. -/
theorem Sound.key_addTransition (sound : g.Sound) {source destination : String} {criteria : List String}
    {ordinal : Option Nat} {key : Nat} {g' : Graph}
    (added : g.addTransition source destination criteria ordinal = .ok (key, g')) :
    (g.alternatives source destination criteria).map Edge.key = [key] ∧
        g'.edges.map Edge.identity = g.edges.map Edge.identity ∨
      g.alternatives source destination criteria = [] ∧
        (∀ e ∈ g.between source destination, e.key ≠ key) ∧
        g'.edges = g.edges ++ [⟨source, destination, key, criteria, ordinal⟩] := by
  obtain ⟨e, found, result⟩ | ⟨found, result⟩ | ⟨_, result⟩ :=
    addTransition_cases sound source destination criteria ordinal
  · obtain ⟨rfl, rfl⟩ : e.key = key ∧ _ = g' := by simpa [result] using added
    exact .inl ⟨by simp [found], identities_modifyEdge fun _ => rfl⟩
  · obtain ⟨rfl, rfl⟩ : _ = key ∧ _ = g' := by simpa [result] using added
    exact .inr ⟨found, fun e there => Nat.ne_of_lt (key_lt_freshKey there), rfl⟩
  · simp [result] at added

/-- Nodes are added at the end, and none goes away or gets another id. -/
theorem Changes.ids_extend {o : Operation} {g' : Graph} (changes : g.Changes o g') :
    g.ids <+: g'.ids := by
  have ensured : ∀ (g : Graph) id, g.ids <+: (g.ensure id).ids := by
    intro g id
    rw [ids_ensure]
    split
    · exact List.prefix_rfl
    · exact List.prefix_append _ _
  cases changes with
  | failed => exact List.prefix_rfl
  | added id a =>
    rw [ids_addTask]
    split
    · exact List.prefix_rfl
    · exact List.prefix_append _ _
  | updated =>
    rw [ids_modifyNode]
    exact fun _ => rfl
  | barred =>
    rw [ids_modifyNode]
    exact fun _ => rfl
  | told => exact List.prefix_rfl
  | rewritten => exact List.prefix_rfl
  | linked => exact (ensured g _).trans (ensured (g.ensure _) _)

theorem Sound.ids_run (sound : g.Sound) (os : List Operation) : g.ids <+: (g.run os).ids := by
  induction os generalizing g with
  | nil => exact List.prefix_rfl
  | cons o os ih => exact (changes_after sound o).ids_extend.trans (ih (sound.after o))

/-- What is entered in the table stays entered with its place. -/
theorem Sound.index_run (sound : g.Sound) {i : Nat} (entered : g.index id = some i)
    (os : List Operation) : (g.run os).index id = some i := by
  obtain ⟨new, later⟩ := sound.ids_run os
  by_cases known : id ∈ g.ids
  · rw [index_of_mem known, position_eq_idxOf] at entered
    rw [index_of_mem (later ▸ List.mem_append_left new known), position_eq_idxOf, ← later,
      List.idxOf_append_of_mem known]
    exact entered
  · rw [index_of_not_mem known] at entered
    cases entered

/-- From the graph without nodes, or from one that is read, a session keeps the table and the nodes in
step, whether its operations fail or not: it goes through the graphs that it goes through without the
table, an id stays entered with its place, and every transition that is added gets a key of its own. -/
theorem session_consistent {s : Indexed} (begun : s.Begun) (os : List Operation) :
    (s.session os).Consistent ∧
    (s.session os).graph = s.graph.run os ∧
    (∀ id i later, (s.session os).index id = some i →
      ((s.session os).session later).index id = some i) ∧
    ∀ source destination criteria ordinal key s',
      (Operation.addTransition source destination criteria ordinal).carryOut.run (s.session os) =
          .ok (.key key) s' →
        ((s.session os).graph.alternatives source destination criteria).map Edge.key = [key] ∧
            s'.graph.edges.map Edge.identity = (s.session os).graph.edges.map Edge.identity ∨
          (s.session os).graph.alternatives source destination criteria = [] ∧
            (∀ e ∈ (s.session os).graph.between source destination, e.key ≠ key) ∧
            s'.graph.edges =
              (s.session os).graph.edges ++ [⟨source, destination, key, criteria, ordinal⟩] := by
  obtain ⟨g, begun', rfl⟩ := begun.exists_graph
  have sound : (g.run os).Sound := (sound_of_begun begun').run os
  rw [(sound_of_begun begun').session_indexed]
  refine ⟨sound.consistent, rfl, fun id i later entered => ?_, ?_⟩
  · rw [sound.session_indexed]
    exact sound.index_run entered later
  · intro source destination criteria ordinal key s' added
    rw [sound.run_carryOut] at added
    cases performed : (g.run os).addTransition source destination criteria ordinal with
    | error f => simp [perform, performed, Except.map] at added
    | ok r =>
      obtain ⟨key', g'⟩ := r
      obtain ⟨rfl, rfl⟩ : key' = key ∧ g'.indexed = s' := by
        simpa [perform, performed, Except.map] using added
      exact sound.key_addTransition performed

/-- Two nodes with two transitions between them, whose keys are neither in order nor close. -/
def gappedKeys : Document where
  directed := true
  multigraph := true
  attributes := .object []
  nodes := [{ id := "a" }, { id := "b" }]
  adjacency := [[{ id := "b", key := 7, criteria := ["x"] }, { id := "b", key := 2 }], []]

/-- The table is filled as the document is read, and goes on to be filled by the session. -/
theorem gappedKeys_consistent : ∃ s s', Indexed.ofDocument gappedKeys = .ok s ∧
    s.session [.updateTask "c" {}, .addTask "d" {}, .addTransition "a" "b" ["y"] none] = s' ∧
    s'.Consistent ∧ ["a", "b", "c", "d"].map s'.index = [some 0, some 1, none, some 2] ∧
    s'.graph.edges.map Edge.key = [7, 2, 8] := by
  have stated : ofDocument gappedKeys = .ok gappedKeys.graph := by rfl
  have states : Indexed.ofDocument gappedKeys = .ok gappedKeys.graph.indexed := by
    rw [ofDocument_indexed, stated]
    rfl
  obtain ⟨consistent, same, _⟩ := session_consistent (.read states)
    [.updateTask "c" {}, .addTask "d" {}, .addTransition "a" "b" ["y"] none]
  refine ⟨_, _, states, rfl, consistent, ?_, by rw [same]; decide⟩
  rw [(sound_of_ofDocument stated).session_indexed]
  decide

end Workflow.Graph
