import Mathlib
import Workflow.Proofs.Direct.Composed
import Workflow.Proofs.Expansion.Outcome
import Workflow.Proofs.Graph.Reading
import Workflow.Proofs.Graph.Session

/-!
What composition fails for. Nothing that it asks of a graph or does to one fails: the tasks that
arrivals are at are there, so are the nodes that were made before, and no transition that is added meets
several others. This is so for every graph that a session comes to, also where transitions share their
criteria, or come to share them when the names in their guards change.
-/

namespace Workflow.Composition

open Workflow.Graph

namespace Expansion

variable {logical g : Graph} {s : State} {t : String} {splits : List Split}

/-- The nodes behind these forks among those that are recorded for a task, where each is looked up by
its id. -/
def lookUpBehind (g : Graph) (task : String) (splits : List Split) :
    List (String × String) → Except Failure (List String)
  | [] => .ok []
  | (t, id) :: recorded =>
    if t == task then
      match g.task id, lookUpBehind g task splits recorded with
      | .error f, _ => .error (.graph f)
      | _, .error f => .error f
      | .ok n, .ok ids => .ok (if n.splits == splits then id :: ids else ids)
    else lookUpBehind g task splits recorded

/-- The nodes that were made, in order, each with the task that it was made for. -/
def State.recorded (s : State) : List (String × String) :=
  s.made.zip s.graph.ids

/-- Where ids tell nodes apart, each node that is recorded is found by its id. -/
theorem lookUpBehind_eq (unique : g.ids.Nodup) {nodes : List Node} (known : nodes ⊆ g.nodes)
    (made : List String) :
    lookUpBehind g t splits (made.zip (nodes.map Node.id)) = .ok (nodesBehind t splits made nodes) := by
  induction nodes generalizing made with
  | nil => cases made <;> rfl
  | cons n nodes ih =>
    obtain ⟨inside, others⟩ := List.cons_subset.mp known
    cases made with
    | nil => rfl
    | cons m made =>
      have found := task_of_mem unique inside
      simp only [List.map_cons, List.zip_cons_cons, lookUpBehind, nodesBehind, found,
        ih others made, Bool.and_eq_true]
      by_cases own : (m == t) = true
      · rw [if_pos own]
        by_cases behind : (n.splits == splits) = true <;> simp [own, behind]
      · rw [if_neg own, if_neg fun both => own both.1]

/-- Once an arrival has entered its node, all nodes are recorded. -/
theorem Grounded.map_snd_recorded (grounded : Grounded logical s) (n : Node) (t : String)
    (splits : List Split) :
    (s.entered n t splits).recorded.map Prod.snd = (s.entered n t splits).graph.ids := by
  unfold State.recorded
  refine List.map_snd_zip (le_of_eq ?_)
  have made := grounded.made
  unfold State.entered Graph.ids
  dsimp only
  rw [List.length_map, length_addTask]
  cases s.graph.contains (nodeId t splits) <;> simp [made]

/-- Once an arrival has entered its node, all nodes that are recorded are found. -/
theorem Grounded.lookUpBehind_eq (grounded : Grounded logical s) (n : Node) (t : String)
    (splits : List Split) (source : String) :
    lookUpBehind (s.entered n t splits).graph source splits (s.entered n t splits).recorded =
      .ok (nodesBehind source splits (s.entered n t splits).made
        (s.entered n t splits).graph.nodes) :=
  Expansion.lookUpBehind_eq (grounded.coherent.addTask _ _).unique (List.Subset.refl _) _

end Expansion

open Expansion

/-- No expansion fails on its graph. -/
theorem expand_ne_graph {logical : Graph} (sound : logical.Sound) (limits : Limits)
    (f : Graph.Failure) : expand limits logical ≠ .error (.graph f) := by
  intro failed
  rcases expand_cases sound limits with ⟨b, beyond⟩ | ⟨x, expanded⟩
  · cases beyond.symm.trans failed
  · cases expanded.symm.trans failed

/-- No direct composition fails on its graph. -/
theorem direct_ne_graph (limits : Limits) (p : Plan) (f : Graph.Failure) :
    direct limits p ≠ .error (.graph f) := by
  intro failed
  rcases direct_outcome limits p with
    ⟨b, beyond⟩ | ⟨_, none_⟩ | ⟨_, t, l, _, _, _, nowhere⟩ | ⟨_, g, composed⟩
  · cases beyond.symm.trans failed
  · cases none_.symm.trans failed
  · cases nowhere.symm.trans failed
  · cases composed.symm.trans failed

/-- Nothing that compositions ask of a graph or do to one fails, for plans, and for graphs that a session
comes to, whatever their keys, criteria and lineages are. All nodes that were made are recorded, and each
is found where those behind the same forks are looked up. -/
theorem no_graph_failure (limits : Limits) :
    (∀ p f, direct limits p ≠ .error (.graph f)) ∧
    (∀ p f, expanded limits p ≠ .error (.graph f)) ∧
    ∀ (g : Graph) (os : List Operation), g.Begun →
      (∀ f, expand limits (g.run os) ≠ .error (.graph f)) ∧
      ∀ s, Runs (step (g.run os) limits) (.start (g.run os)) s → ∀ n t splits,
        (s.entered n t splits).recorded.map Prod.snd = (s.entered n t splits).graph.ids ∧
        ∀ source,
          lookUpBehind (s.entered n t splits).graph source splits (s.entered n t splits).recorded =
            .ok (nodesBehind source splits (s.entered n t splits).made
              (s.entered n t splits).graph.nodes) := by
  refine ⟨direct_ne_graph limits, fun p f failed => ?_, fun g os begun => ?_⟩
  · unfold expanded at failed
    cases composed : direct limits p with
    | error f' =>
      rw [composed] at failed
      cases failed
      exact direct_ne_graph limits p f composed
    | ok g =>
      rw [composed] at failed
      exact expand_ne_graph (composed_of_direct composed).coherent.sound limits f failed
  · have sound := (sound_of_begun begun).run os
    refine ⟨expand_ne_graph sound limits, fun s run n t splits => ?_⟩
    have grounded := grounded_of_runs run
    exact ⟨grounded.map_snd_recorded n t splits, grounded.lookUpBehind_eq n t splits⟩

/-- A fork with three transitions to one task: two share their criteria, and the third comes to share
them when the guards name an instance. -/
def sharedCriteria : Document where
  directed := true
  multigraph := true
  attributes := .object []
  nodes := [{ id := "a" }, { id := "b" }, { id := "c", splits := [⟨"z", 4⟩] }, { id := "d" }]
  adjacency := [[{ id := "c", key := 3 }], [{ id := "c", key := 0 }],
    [{ id := "d", key := 9, criteria := ["c"] }, { id := "d", key := 4, criteria := ["c"] },
      { id := "d", key := 6, criteria := ["c__1"] }], []]

/-- The transitions of its expansion; the first instance of the fork has one of the three. -/
def sharedCriteriaEdges : List Edge :=
  [⟨"a", "c__1", 0, [], none⟩, ⟨"b", "c__2", 0, [], none⟩, ⟨"c__1", "d__1", 0, ["c__1"], none⟩,
    ⟨"c__2", "d__2", 0, ["c__2"], none⟩, ⟨"c__2", "d__2", 1, ["c__1"], none⟩]

/-- To add one more transition with shared criteria fails, but the graph that it leaves is expanded. -/
theorem sharedCriteria_no_graph_failure :
    ofDocument sharedCriteria = .ok sharedCriteria.graph ∧
    sharedCriteria.graph.addTransition "c" "d" ["c"] none = .error (.ambiguous "c" "d" 2) ∧
    (∀ f, expand {} (sharedCriteria.graph.run [.addTransition "c" "d" ["c"] none]) ≠
      .error (.graph f)) ∧
    ∃ x, expand {} (sharedCriteria.graph.run [.addTransition "c" "d" ["c"] none]) = .ok x ∧
      x.edges = sharedCriteriaEdges := by
  have states : ofDocument sharedCriteria = .ok sharedCriteria.graph := by rfl
  have failed : sharedCriteria.graph.addTransition "c" "d" ["c"] none =
      .error (.ambiguous "c" "d" 2) := by rfl
  have worked : (workOff (step (sharedCriteria.graph.run [.addTransition "c" "d" ["c"] none]) {}) 20
      (.start (sharedCriteria.graph.run [.addTransition "c" "d" ["c"] none]))).map
        (fun r => r.map fun s => s.graph.edges) = some (.ok sharedCriteriaEdges) := by
    cbv
  exact ⟨states, failed, ((no_graph_failure {}).2.2 _ _ (.read states)).1,
    exists_expand_of_workOff Graph.edges worked⟩

end Workflow.Composition
