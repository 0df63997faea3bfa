import Mathlib
import Workflow.Proofs.Direct.Limits
import Workflow.Proofs.Direct.Order
import Workflow.Proofs.Direct.ReachedPart
import Workflow.Proofs.Expansion.Agreement
import Workflow.Proofs.Expansion.Forkless
import Workflow.Proofs.Expansion.Instances
import Workflow.Proofs.Graph.Lookup

/-!
Plans in which there is nothing to split: tasks that several others lead to join them, or are on a cycle.
Then both compositions make the same nodes and transitions, and from one start in the same order.
-/

namespace Workflow.Composition

open Workflow.Graph Expansion
open Direct (Composed)

variable {p : Plan} {limits limits' : Limits} {g x : Graph} {t u r : String} {σ : List String}

/-- Nothing is to be split: tasks do not have the names of commands, and what is reached from several tasks
without joining them is on a cycle. -/
structure Unsplit (p : Plan) : Prop where
  unreserved : ∀ t ∈ p.tasks.names, isReserved t = false
  looped : ∀ t, p.isSplit t = true → p.inCycle t = true

theorem Unsplit.not_fork (unsplit : Unsplit p) (t : String) : Direct.isFork p t = false := by
  unfold Direct.isFork
  cases split : p.isSplit t with
  | false => rfl
  | true => simp [unsplit.looped t split]

/-- Where nothing is split, no way is behind a fork. -/
theorem Unsplit.behind_nil (unsplit : Unsplit p) (arrives : p.network.Arrives t σ) :
    p.network.behind t σ = [] := by
  have plain : ∀ t σ, p.network.behind t σ = σ := fun t _ =>
    Network.behind_of_not_fork (unsplit.not_fork t)
  rw [plain]
  induction arrives with
  | start => rfl
  | follow _ _ ih => rw [plain, ih]

namespace Direct.Composed

/-- Ways between tasks of the plan are ways between their nodes. -/
theorem transGen (composed : Composed p g) (unreserved : ∀ t ∈ p.tasks.names, isReserved t = false)
    (known : t ∈ g.ids) (way : Relation.TransGen (Within p.successors p.tasks.names) t u) :
    Relation.TransGen g.Adjacent t u ∧ u ∈ g.ids := by
  have step : ∀ {a b}, a ∈ g.ids → Within p.successors p.tasks.names a b →
      g.Adjacent a b ∧ b ∈ g.ids := by
    intro a b inside link
    have adjacent := (composed.adjacent_iff unreserved).mpr ⟨inside, link⟩
    obtain ⟨e, edge, _, target⟩ := adjacent
    exact ⟨⟨e, edge, ‹_›, target⟩, target ▸ composed.coherent.destination_mem e edge⟩
  induction way with
  | single link =>
    obtain ⟨adjacent, inside⟩ := step known link
    exact ⟨.single adjacent, inside⟩
  | tail _ link ih =>
    obtain ⟨adjacent, inside⟩ := step ih.2 link
    exact ⟨ih.1.tail adjacent, inside⟩

/-- A fork of the graph would be a task of the plan that is split and on no cycle. -/
theorem not_forkAt (composed : Composed p g) (unsplit : Unsplit p) (t : String) :
    forkAt g t = false := by
  by_contra fork
  obtain ⟨⟨n, found, none_⟩, ⟨a, b, first, second, differ⟩, acyclic⟩ :=
    forkAt_iff_splitPoint.mp ((Bool.not_eq_false _).mp fork)
  have known := mem_ids_of_task found
  obtain ⟨inside, rfl⟩ := mem_of_task found
  have plain : p.isJoin n.id = false := by
    rw [← (composed.nodes n inside).2.barrier_isSome, none_]
    rfl
  have leads : ∀ {a}, g.Adjacent a n.id → n.id ∈ p.successors a := fun adjacent =>
    ((composed.adjacent_iff unsplit.unreserved).mp adjacent).2.1
  have split : p.isSplit n.id = true := Plan.isSplit_iff.mpr
    ⟨composed.mem_names known, plain, a, b, leads first, leads second, differ⟩
  have cycle := Plan.inCycle_iff.mp (unsplit.looped n.id split)
  rw [(inCycle_iff_transGen composed.coherent.destination_mem).mpr
    (composed.transGen unsplit.unreserved known cycle).1] at acyclic
  cases acyclic

theorem outer (composed : Composed p g) (unsplit : Unsplit p) : ∀ n ∈ g.nodes, n.splits = [] := by
  intro n inside
  rcases (composed.nodes n inside).2.splits with none_ | ⟨σ, arrives, forks⟩
  · exact none_
  · rw [unsplit.behind_nil arrives] at forks
    exact List.map_eq_nil_iff.mp forks

/-- The links of a task lead where the transitions lead that are made of them. -/
theorem mem_following_iff (composed : Composed p g)
    (unreserved : ∀ t ∈ p.tasks.names, isReserved t = false) (known : t ∈ g.ids) :
    u ∈ p.following t ↔ u ∈ g.following t := by
  rw [Plan.mem_following_iff, Graph.mem_following_iff, composed.adjacent_iff unreserved]
  constructor
  · rintro ⟨leads, plain⟩
    obtain ⟨l, link, rfl⟩ := List.mem_map.mp leads
    obtain ⟨e, edge, _, target, _⟩ := composed.followed t known l link plain
    exact ⟨known, leads, composed.mem_names (target ▸ composed.coherent.destination_mem e edge)⟩
  · rintro ⟨_, leads, defined⟩
    exact ⟨leads, unreserved u defined⟩

theorem roots_eq_singleton (composed : Composed p g)
    (unreserved : ∀ t ∈ p.tasks.names, isReserved t = false) (single : p.starts = [r]) :
    g.roots = [r] := by
  refine List.perm_singleton.mp ((List.perm_ext_iff_of_nodup
    (roots_nodup composed.coherent.unique) (List.nodup_singleton r)).mpr fun t => ?_)
  rw [composed.mem_roots_iff unreserved, single]

end Direct.Composed

/-- Where nothing is to be split, the direct composition has no forks. -/
theorem forkless_of_direct (unsplit : Unsplit p) (composed : direct limits p = .ok g) :
    Forkless g where
  coherent := (composed_of_direct composed).coherent
  count := keys_between composed
  named n inside := ((composed_of_direct composed).nodes n inside).1
  outer := (composed_of_direct composed).outer unsplit
  plain := (composed_of_direct composed).not_forkAt unsplit

/-- From one start, nodes of the direct composition stand in the breadth-first order of its transitions. -/
theorem explored_following (unsplit : Unsplit p) (single : p.starts = [r])
    (composed : direct limits p = .ok g) :
    Explored g.roots g.following g.ids ∧ comeUp g.roots g.following g.ids = g.ids := by
  have whole := composed_of_direct composed
  obtain ⟨explored, all⟩ := Direct.explored_ids single unsplit.not_fork composed
  have alike : ∀ t ∈ g.ids, ∀ l : List String,
      (l ++ p.following t).eraseDups = (l ++ g.following t).eraseDups := fun t known l =>
    eraseDups_append_of_sorted l (p.following_sorted t) (g.following_sorted t) fun u =>
      whole.mem_following_iff unsplit.unreserved known
  rw [whole.roots_eq_singleton unsplit.unreserved single]
  exact ⟨explored.congr alike, (comeUp_congr alike).symm.trans all⟩

/-- The two compositions of a plan in which nothing is to be split have the same nodes and transitions; and
from one start they have the same document. -/
theorem expanded_repeats_direct (unsplit : Unsplit p) (composed : direct limits p = .ok g)
    (expanded : expanded limits' p = .ok x) :
    SameParts x g ∧ (p.starts.length = 1 → x.document = g.document) := by
  unfold Composition.expanded at expanded
  split at expanded
  next => cases expanded
  next g' composed' =>
    obtain rfl := direct_eq_of_ok composed composed'
    have whole := composed_of_direct composed
    have forkless := forkless_of_direct unsplit composed
    obtain ⟨same, explored, all⟩ := expand_of_forkless forkless
      (fun t known => whole.arrives_in_graph unsplit.unreserved known) expanded
    refine ⟨same, fun one => ?_⟩
    obtain ⟨r, single⟩ := List.length_eq_one_iff.mp one
    obtain ⟨explored', all'⟩ := explored_following unsplit single composed
    have ids : x.ids = g.ids := explored.eq all explored' all'
    have nodes : x.nodes = g.nodes :=
      nodes_eq_of_ids_eq whole.coherent.unique same.nodes.subset ids
    exact whole.coherent.sound.document_eq nodes same.edges

/-- A plan with loops, a join behind them, and several clauses that lead from one task to another under
different guards. -/
def roundabout : Definition where
  tasks := .ofList [
    ("a", { next := [{ condition := some "x", destinations := ["b"] },
      { condition := some "y", destinations := ["c", "b"] }] }),
    ("b", { next := [{ destinations := ["c", "d"] }] }),
    ("c", { next := [{ destinations := ["b", "c"] },
      { condition := some "z", destinations := ["d", "noop"] }] }),
    ("d", { join := some .all, retry := some { count := 2 } })]

def roundaboutGraph : Graph where
  nodes := [⟨"a", "a", none, [], none⟩, ⟨"b", "b", none, [], none⟩, ⟨"c", "c", none, [], none⟩,
    ⟨"d", "d", some .all, [], some { count := 2 }⟩]
  edges := [⟨"a", "b", 0, ["x"], some 0⟩, ⟨"a", "b", 1, ["y"], some 1⟩,
    ⟨"a", "c", 0, ["y"], some 1⟩, ⟨"b", "c", 0, [], some 0⟩, ⟨"b", "d", 0, [], some 0⟩,
    ⟨"c", "b", 0, [], some 0⟩, ⟨"c", "c", 0, [], some 0⟩, ⟨"c", "d", 0, ["z"], some 1⟩]

/-- The expansion adds the transitions in another order. -/
theorem roundabout_repeats_direct : Unsplit (.ofDefinition roundabout) ∧
    direct {} (.ofDefinition roundabout) = .ok roundaboutGraph ∧
      ∃ x, expanded {} (.ofDefinition roundabout) = .ok x ∧ x.edges ≠ roundaboutGraph.edges ∧
        SameParts x roundaboutGraph ∧ x.document = roundaboutGraph.document := by
  have unsplit : Unsplit (.ofDefinition roundabout) := by
    have looped : ((Plan.ofDefinition roundabout).tasks.names.all fun t =>
        !(Plan.ofDefinition roundabout).isSplit t || (Plan.ofDefinition roundabout).inCycle t) =
          true := by
      cbv
    refine ⟨by decide, fun t split => ?_⟩
    have known := (Plan.isSplit_iff.mp split).1
    simpa [split] using List.all_eq_true.mp looped t known
  have composed : direct {} (.ofDefinition roundabout) = .ok roundaboutGraph :=
    direct_of_workOff (n := 5) (by decide) (by cbv) (by cbv)
  have worked : (workOff (step roundaboutGraph {}) 10 (.start roundaboutGraph)).map
      (fun r => r.map fun s => decide (s.graph.edges ≠ roundaboutGraph.edges)) =
        some (.ok true) := by
    cbv
  obtain ⟨x, expanded, differ⟩ := exists_expanded_of_workOff
    (fun x => decide (x.edges ≠ roundaboutGraph.edges)) composed worked
  obtain ⟨same, document⟩ := expanded_repeats_direct unsplit composed expanded
  exact ⟨unsplit, composed, x, expanded, of_decide_eq_true differ, same, document (by cbv)⟩

end Workflow.Composition
