import Mathlib
import Workflow.Proofs.Expansion.Agreement
import Workflow.Proofs.Expansion.Arrivals

/-!
When an expansion loses a task. An early arrival at a join is dropped in the expectation of another one
behind more forks. The forks that the join is noted with are those of the plan, which counts links
that the graph does not have; if they are no forks of the graph, then the other arrival never comes.
-/

namespace Workflow.Composition

open Workflow.Graph Expansion

variable {p : Plan} {limits : Limits} {g x : Graph}

namespace Expansion

variable {s final : State} {v : Visit} {t : String} {splits : List Split}

/-- At every join that the walk comes to, some arrival is not early: it is not behind a proper part of
the forks that the join was noted with. -/
def SomeOnTime (logical : Graph) (limits : Limits) : Prop :=
  ∀ n ∈ logical.nodes, n.barrier.isSome = true → ∀ splits, Comes logical limits n.id splits →
    ∃ splits', Comes logical limits n.id splits' ∧ isEarly n.splits splits' = false

/-- Arrivals come to tasks of the graph. -/
theorem Comes.mem (coherent : g.Coherent) (separated : Separated g.ids)
    (comes : Comes g limits t splits) : t ∈ g.ids := by
  obtain ⟨s, v, queue, run, next, rfl, _⟩ := comes
  have expected := (unfolded_of_runs separated run).queue v (next ▸ List.mem_cons_self)
  exact expected.arrives.mem (network_among coherent)

theorem tooEarly_of_mem (coherent : g.Coherent) {n : Node} (inside : n ∈ g.nodes)
    (splits : List Split) :
    tooEarly g n.id splits = (n.barrier.isSome && isEarly n.splits splits) := by
  unfold tooEarly
  rw [task_of_mem coherent.unique inside]

/-- Where some arrival is on time, an arrival is let in at every task that the walk comes to. -/
theorem SomeOnTime.exists_letIn (onTime : SomeOnTime g limits) (coherent : g.Coherent)
    (separated : Separated g.ids) (comes : Comes g limits t splits) :
    ∃ splits', LetIn g limits t splits' := by
  obtain ⟨n, inside, rfl⟩ := mem_ids_iff.mp (comes.mem coherent separated)
  have free : ∃ splits', Comes g limits n.id splits' ∧ tooEarly g n.id splits' = false := by
    cases join : n.barrier.isSome with
    | false => exact ⟨splits, comes, by rw [tooEarly_of_mem coherent inside, join, Bool.false_and]⟩
    | true =>
      obtain ⟨splits', comes', free⟩ := onTime n inside join splits comes
      exact ⟨splits', comes', by rw [tooEarly_of_mem coherent inside, free, Bool.and_false]⟩
  obtain ⟨splits', ⟨s, v, queue, run, next, same, rfl⟩, free⟩ := free
  rw [← same] at free ⊢
  exact ⟨_, s, v, queue, run, next, rfl, rfl, free⟩

namespace Finished

variable (finished : Finished g limits final) (separated : Separated g.ids)

include finished separated

/-- Where the walk comes, a node is entered, if some arrival is on time. -/
theorem exists_node_of_queued (onTime : SomeOnTime g limits) (coherent : g.Coherent)
    (run : Runs (step g limits) (.start g) s) (waiting : v ∈ s.queue) :
    ∃ u ∈ final.graph.nodes, u.name = v.task := by
  have comes := finished.comes separated run waiting
  obtain ⟨splits, letIn⟩ := onTime.exists_letIn coherent separated comes
  obtain ⟨_, u, inside, _, name, _⟩ := finished.exists_node separated letIn
  exact ⟨u, inside, name⟩

/-- Every task that is arrived at from the roots is then named by a node. -/
theorem exists_node_of_arrives (onTime : SomeOnTime g limits) (coherent : g.Coherent)
    {σ : List String} (arrives : (network g).Arrives t σ) :
    ∃ u ∈ final.graph.nodes, u.name = t := by
  induction arrives with
  | @start t root =>
    have waiting : (⟨t, [], none⟩ : Visit) ∈ (State.start g).queue :=
      List.mem_map.mpr ⟨t, root, rfl⟩
    exact finished.exists_node_of_queued separated onTime coherent .refl waiting
  | follow _ link ih =>
    obtain ⟨u, inside, rfl⟩ := ih
    obtain ⟨f, known, source, rfl⟩ := link
    obtain ⟨m, run, v, waiting, same⟩ :=
      exists_queued_of_mem separated finished.run inside known source
    rw [← same]
    exact finished.exists_node_of_queued separated onTime coherent run waiting

end Finished

end Expansion

/-- The expansion of a plan names every task of the direct composition just if some arrival is on time
at every join that it comes to. -/
theorem expanded_complete_iff (unreserved : ∀ t ∈ p.tasks.names, isReserved t = false)
    (separated : Separated p.tasks.names) (composed : direct limits p = .ok g)
    (expanded : expanded limits p = .ok x) :
    (∀ t ∈ g.ids, ∃ u ∈ x.nodes, u.name = t) ↔ SomeOnTime g limits := by
  have composed' := composed_of_direct composed
  have coherent := composed'.coherent
  have separated' : Separated g.ids := separated.mono fun t => composed'.mem_names
  have expanded' : expand limits g = .ok x := by
    rw [Composition.expanded, composed] at expanded
    exact expanded
  obtain ⟨final, run, done, rfl⟩ := expand_ok expanded'
  have finished : Finished g limits final := ⟨run, done⟩
  constructor
  · intro complete n inside join splits comes
    obtain ⟨u, inside', name⟩ := complete n.id (comes.mem coherent separated')
    obtain ⟨s, v, queue, run', next, same, _, free⟩ := letIn_of_mem separated' run inside'
    rw [name] at same free
    rw [tooEarly_of_mem coherent inside, join, Bool.true_and] at free
    exact ⟨v.splits, ⟨s, v, queue, run', next, same, rfl⟩, free⟩
  · intro onTime t known
    obtain ⟨σ, arrives⟩ := composed'.arrives_in_graph unreserved known
    exact finished.exists_node_of_arrives separated' onTime coherent arrives

/-- A join that is reached on its way past a fork, too, where it is early. -/
def earlyJoin : Plan :=
  .bare ⟨[("a", .leading ["c", "j"] none), ("b", .leading ["c"] none), ("c", .leading ["j"] none),
    ("j", .leading [] (some .all))], by decide⟩

def earlyJoinGraph : Graph where
  nodes := [⟨"a", "a", none, [], none⟩, ⟨"c", "c", none, [⟨"c", 0⟩], none⟩,
    ⟨"j", "j", some .all, [⟨"c", 0⟩], none⟩, ⟨"b", "b", none, [], none⟩]
  edges := [⟨"a", "c", 0, [], some 0⟩, ⟨"a", "j", 0, [], some 0⟩, ⟨"b", "c", 0, [], some 0⟩,
    ⟨"c", "j", 0, [], some 0⟩]

/-- The arrival past the fork is dropped, and those behind it are on time. -/
theorem earlyJoin_complete_iff : direct {} earlyJoin = .ok earlyJoinGraph ∧
    ∃ x, expanded {} earlyJoin = .ok x ∧
      x.nodes.map Node.name = ["a", "b", "c", "c", "j", "j"] ∧
      (∀ t ∈ earlyJoinGraph.ids, ∃ u ∈ x.nodes, u.name = t) ∧ SomeOnTime earlyJoinGraph {} := by
  have composed : direct {} earlyJoin = .ok earlyJoinGraph :=
    direct_of_workOff (n := 9) (by decide) (by cbv) (by cbv)
  have worked : (workOff (step earlyJoinGraph {}) 9 (.start earlyJoinGraph)).map
      (fun r => r.map fun s => s.graph.nodes.map Node.name) =
        some (.ok ["a", "b", "c", "c", "j", "j"]) := by
    cbv
  obtain ⟨x, expanded, names⟩ :=
    exists_expanded_of_workOff (fun x => x.nodes.map Node.name) composed worked
  have complete : ∀ t ∈ earlyJoinGraph.ids, ∃ u ∈ x.nodes, u.name = t := by
    intro t known
    have named : t ∈ x.nodes.map Node.name := by
      rw [names]
      exact (by decide : ∀ t ∈ earlyJoinGraph.ids, t ∈ ["a", "b", "c", "c", "j", "j"]) t known
    exact List.mem_map.mp named
  exact ⟨composed, x, expanded, names, complete, (expanded_complete_iff (by decide)
    (separated_of_not_mem (by decide)) composed expanded).mp complete⟩

/-- A task that is linked to by one that is never reached: in the plan it is a fork, in the graph it is
none, so the join behind it waits for an arrival that never comes. -/
def lostJoin : Plan :=
  .bare ⟨[("a", .leading ["s"] none), ("u", .leading ["s", "u"] none), ("s", .leading ["j"] none),
    ("j", .leading [] (some .all))], by decide⟩

/-- The direct composition, in which the join is noted with the fork of the plan. -/
def lostJoinGraph : Graph where
  nodes := [⟨"a", "a", none, [], none⟩, ⟨"s", "s", none, [⟨"s", 0⟩], none⟩,
    ⟨"j", "j", some .all, [⟨"s", 0⟩], none⟩]
  edges := [⟨"a", "s", 0, [], some 0⟩, ⟨"s", "j", 0, [], some 0⟩]

/-- The join has a node in the direct composition and none in the expansion. -/
theorem lostJoin_not_complete : (∀ t ∈ lostJoin.tasks.names, isReserved t = false) ∧
    Separated lostJoin.tasks.names ∧ direct {} lostJoin = .ok lostJoinGraph ∧
      ∃ x, expanded {} lostJoin = .ok x ∧
        ¬∀ t ∈ lostJoinGraph.ids, ∃ u ∈ x.nodes, u.name = t := by
  have composed : direct {} lostJoin = .ok lostJoinGraph :=
    direct_of_workOff (n := 6) (by decide) (by cbv) (by cbv)
  have worked : (workOff (step lostJoinGraph {}) 4 (.start lostJoinGraph)).map
      (fun r => r.map fun s => s.graph.nodes.map Node.name) = some (.ok ["a", "s"]) := by
    cbv
  obtain ⟨x, expanded, names⟩ :=
    exists_expanded_of_workOff (fun x => x.nodes.map Node.name) composed worked
  refine ⟨by decide, separated_of_not_mem (by decide), composed, x, expanded, fun complete => ?_⟩
  obtain ⟨u, inside, name⟩ := complete "j" (by decide)
  have listed : "j" ∈ x.nodes.map Node.name := List.mem_map.mpr ⟨u, inside, name⟩
  rw [names] at listed
  exact absurd listed (by decide)

end Workflow.Composition
