import Workflow.Proofs.Direct.Traces
import Workflow.Proofs.Expansion.Instances
import Workflow.Proofs.Expansion.Loops

/-!
The forks that nodes are behind, in both compositions. Whatever visits there have been to a task, the
forks noted at its node are those on one way to it, so they are a chain of forks to it.
-/

namespace Workflow.Composition

open Workflow.Graph Expansion

variable {p : Plan} {limits : Limits} {g x : Graph}

namespace Expansion

variable {s : State} {u : Node}

/-- A task on a cycle is no fork, so no fork leads back to itself. -/
theorem network_acyclic (coherent : g.Coherent) : (network g).Acyclic := by
  intro t fork cycle
  have looped := (inCycle_iff_transGen coherent.destination_mem).mpr cycle
  have fork : forkAt g t = true := fork
  rw [not_fork_of_inCycle looped] at fork
  cases fork

/-- The forks that a node of an expansion is behind are a chain to its task. -/
theorem Instance.forkChain (instance_ : Instance g s u) (coherent : g.Coherent) :
    ForkChain (SplitPoint g) g.Adjacent u.name (splitTasks u.splits) := by
  obtain ⟨σ, arrives, splits⟩ := instance_.lineage
  rw [splits]
  exact (arrives.forkChain (network_acyclic coherent)).of_iff fun _ => forkAt_iff_splitPoint

end Expansion

/-- The forks that a node is behind are different split points on no cycle, each of which can reach the
next along the transitions, and the last one the task of the node; the task is among them just if it is
such a split point, and is the last one then. That is so in the direct composition of a plan, where the
forks are those of the plan and none has a number; and, if the ids can be told from those of instances, in
what this is expanded to, where the forks are those of the direct composition. -/
theorem lineages_are_forkChains (composed : direct limits p = .ok g) :
    (∀ n ∈ g.nodes, (∀ s ∈ n.splits, s.instance_ = 0) ∧
      ForkChain (fun f => p.isSplit f = true ∧ p.inCycle f = false) g.Adjacent n.name
        (splitTasks n.splits)) ∧
    (Separated g.ids → ∀ limits' x, expand limits' g = .ok x → ∀ u ∈ x.nodes,
      ForkChain (SplitPoint g) g.Adjacent u.name (splitTasks u.splits)) := by
  refine ⟨direct_forkChain composed, fun separated limits' x expanded u inside => ?_⟩
  obtain ⟨s, run, _, rfl⟩ := expand_ok expanded
  have instance_ := (unfolded_of_runs separated run).nodes u inside
  exact instance_.forkChain (composed_of_direct composed).coherent

/-- A fork with two ways to another one, and a task behind both that leads to itself. -/
def nestedForks : Plan :=
  .bare ⟨[("a", .leading ["f"] none), ("b", .leading ["f"] none), ("f", .leading ["h", "u"] none),
    ("u", .leading ["h"] none), ("h", .leading ["t"] none), ("t", .leading ["t"] none)], by decide⟩

def nestedForksGraph : Graph where
  nodes := [.ofId "a", { Node.ofId "f" with splits := [⟨"f", 0⟩] }, .ofId "b",
    { Node.ofId "h" with splits := [⟨"f", 0⟩, ⟨"h", 0⟩] },
    { Node.ofId "u" with splits := [⟨"f", 0⟩] },
    { Node.ofId "t" with splits := [⟨"f", 0⟩, ⟨"h", 0⟩] }]
  edges := [⟨"a", "f", 0, [], some 0⟩, ⟨"b", "f", 0, [], some 0⟩, ⟨"f", "h", 0, [], some 0⟩,
    ⟨"f", "u", 0, [], some 0⟩, ⟨"h", "t", 0, [], some 0⟩, ⟨"u", "h", 0, [], some 0⟩,
    ⟨"t", "t", 0, [], some 0⟩]

/-- The task on a loop is behind both forks, and each of its nodes is behind one instance of each. -/
theorem nestedForks_are_forkChains :
    direct {} nestedForks = .ok nestedForksGraph ∧ Separated nestedForksGraph.ids ∧
    ∃ x, expand {} nestedForksGraph = .ok x ∧
      (x.nodes.filter fun u => u.name == "t").map Node.splits =
        [[⟨"f", 1⟩, ⟨"h", 1⟩], [⟨"f", 2⟩, ⟨"h", 2⟩], [⟨"f", 1⟩, ⟨"h", 3⟩], [⟨"f", 2⟩, ⟨"h", 4⟩]] ∧
      ∀ u ∈ x.nodes, ForkChain (SplitPoint nestedForksGraph) nestedForksGraph.Adjacent u.name
        (splitTasks u.splits) := by
  have composed : direct {} nestedForks = .ok nestedForksGraph :=
    direct_of_workOff (n := 12) (by decide) (by cbv) (by cbv)
  have separated : Separated nestedForksGraph.ids := separated_of_not_mem (by decide)
  have worked : (workOff (step nestedForksGraph {}) 20 (.start nestedForksGraph)).map
      (fun r => r.map fun s => (s.graph.nodes.filter fun u => u.name == "t").map Node.splits) =
        some (.ok [[⟨"f", 1⟩, ⟨"h", 1⟩], [⟨"f", 2⟩, ⟨"h", 2⟩], [⟨"f", 1⟩, ⟨"h", 3⟩],
          [⟨"f", 2⟩, ⟨"h", 4⟩]]) := by
    cbv
  obtain ⟨x, expanded, noted⟩ := exists_expand_of_workOff
    (fun x => (x.nodes.filter fun u => u.name == "t").map Node.splits) worked
  exact ⟨composed, separated, x, expanded, noted,
    (lineages_are_forkChains composed).2 separated {} x expanded⟩

end Workflow.Composition
