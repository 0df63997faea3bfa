import Workflow.Proofs.Direct.Composed
import Workflow.Proofs.Expansion.Outcome

/-!
The graph that is composed from a plan without complaints has the network of the plan: it starts at
the same tasks, its transitions are the links, and its forks are forks of the plan.
-/

namespace Workflow.Composition

open Workflow.Graph Expansion
open Workflow.Inspection.Structure (Clean)

variable {p : Plan} {g : Graph} {t u : String} {σ : List String}

namespace Direct

/-- Without tasks that have the names of commands, every task that is arrived at has a node. -/
theorem Composed.mem_ids_iff (composed : Composed p g)
    (unreserved : ∀ t ∈ p.tasks.names, isReserved t = false) :
    t ∈ g.ids ↔ ∃ σ, p.network.Arrives t σ := by
  refine ⟨composed.arrives t, ?_⟩
  rintro ⟨σ, arrives⟩
  induction arrives with
  | start first => exact composed.starts _ first
  | @follow t u σ _ link ih =>
    obtain ⟨l, known, rfl⟩ := List.mem_map.mp link.1
    obtain ⟨e, inside, _, target, _⟩ := composed.followed t ih l known (unreserved _ link.2)
    exact target ▸ composed.coherent.destination_mem e inside

/-- A node leads to another just if it is there and its task leads to the other. -/
theorem Composed.adjacent_iff (composed : Composed p g)
    (unreserved : ∀ t ∈ p.tasks.names, isReserved t = false) :
    g.Adjacent t u ↔ t ∈ g.ids ∧ p.network.leads t u := by
  constructor
  · intro link
    have ⟨e, inside, source, _⟩ := link
    exact ⟨source ▸ composed.coherent.source_mem e inside, composed.leads_of_adjacent link⟩
  · rintro ⟨source, link⟩
    obtain ⟨l, known, rfl⟩ := List.mem_map.mp link.1
    exact (composed.followed t source l known (unreserved _ link.2)).adjacent

/-- The roots of a direct composition are the start tasks. -/
theorem Composed.mem_roots_iff (composed : Composed p g)
    (unreserved : ∀ t ∈ p.tasks.names, isReserved t = false) :
    t ∈ g.roots ↔ t ∈ p.starts := by
  rw [Graph.mem_roots_iff]
  constructor
  · rintro ⟨known, first⟩
    obtain ⟨σ, arrives⟩ := composed.arrives t known
    cases arrives with
    | start start => exact start
    | @follow s _ τ before link =>
      have source := (composed.mem_ids_iff unreserved).mpr ⟨τ, before⟩
      obtain ⟨e, inside, _, target⟩ := (composed.adjacent_iff unreserved).mpr ⟨source, link⟩
      exact absurd target (first e inside)
  · intro start
    refine ⟨composed.starts t start, fun e inside target => ?_⟩
    obtain ⟨l, known, _, target', _⟩ := composed.edges e inside
    exact (Plan.mem_starts_iff.mp start).2 e.source
      (List.mem_map.mpr ⟨l, known, target'.trans target⟩)

theorem Composed.mem_names (composed : Composed p g) (known : t ∈ g.ids) : t ∈ p.tasks.names := by
  obtain ⟨σ, arrives⟩ := composed.arrives t known
  exact arrives.mem p.network_among

/-- Every node of the composed graph is arrived at from its roots. -/
theorem Composed.arrives_in_graph (composed : Composed p g)
    (unreserved : ∀ t ∈ p.tasks.names, isReserved t = false) (known : t ∈ g.ids) :
    ∃ σ, (network g).Arrives t σ := by
  obtain ⟨σ, arrives⟩ := composed.arrives t known
  clear known
  induction arrives with
  | start first => exact ⟨[], .start ((composed.mem_roots_iff unreserved).mpr first)⟩
  | @follow t u τ before link ih =>
    obtain ⟨σ, before'⟩ := ih
    have source := (composed.mem_ids_iff unreserved).mpr ⟨τ, before⟩
    have link' : (network g).leads t u := (composed.adjacent_iff unreserved).mpr ⟨source, link⟩
    exact ⟨_, before'.follow link'⟩

/-- In a plan without complaints, every task has a node. -/
theorem Composed.ids_iff (composed : Composed p g) (clean : Clean p) :
    t ∈ g.ids ↔ t ∈ p.tasks.names := by
  rw [composed.mem_ids_iff clean.unreserved]
  exact ⟨fun ⟨_, arrives⟩ => arrives.mem p.network_among, clean.reached t⟩

theorem Composed.leads_iff (composed : Composed p g) (clean : Clean p) :
    g.Adjacent t u ↔ p.network.leads t u := by
  rw [composed.adjacent_iff clean.unreserved, composed.ids_iff clean]
  refine ⟨And.right, fun link => ⟨?_, link⟩⟩
  obtain ⟨task, found, _⟩ := Plan.mem_successors_iff.mp link.1
  exact Table.mem_names_iff.mpr ⟨task, found⟩

end Direct

open Direct

/-- A fork of a graph has no barrier, several predecessors, and no way back to itself. -/
theorem forkAt_iff (unique : g.ids.Nodup) {n : Node} (inside : n ∈ g.nodes) :
    forkAt g n.id = true ↔ n.barrier = none ∧
      (∃ a b, g.Adjacent a n.id ∧ g.Adjacent b n.id ∧ a ≠ b) ∧
      ¬Relation.TransGen (Within g.successors g.ids) n.id n.id := by
  have found := task_of_mem unique inside
  obtain ⟨inbound, led⟩ := exists_prev (Graph.mem_ids_iff.mpr ⟨n, inside, rfl⟩)
  have sources : ∀ a, a ∈ inbound.map Edge.source ↔ g.Adjacent a n.id := by
    intro a
    simp only [List.mem_map, mem_prev_iff led]
    constructor
    · rintro ⟨e, ⟨link, target⟩, source⟩
      exact ⟨e, link, source, target⟩
    · rintro ⟨e, link, source, target⟩
      exact ⟨e, ⟨link, target⟩, source⟩
  unfold forkAt Expansion.isFork
  rw [found, led]
  simp only [Bool.and_eq_true, Option.isNone_iff_eq_none, decide_eq_true_iff,
    one_lt_length_eraseDups_iff, sources, Bool.not_eq_true', ← Bool.not_eq_true, inCycle_iff]
  constructor
  · rintro ⟨⟨none_, a, first, b, second, differ⟩, acyclic⟩
    exact ⟨none_, ⟨a, b, first, second, differ⟩, acyclic⟩
  · rintro ⟨none_, ⟨a, b, first, second, differ⟩, acyclic⟩
    exact ⟨⟨none_, a, first, b, second, differ⟩, acyclic⟩

/-- The forks of the network join nothing, several tasks lead to them, and they are on no cycle. -/
theorem forks_iff : p.network.forks t = true ↔
    (t ∈ p.tasks.names ∧ p.isJoin t = false ∧
      ∃ a b, t ∈ p.successors a ∧ t ∈ p.successors b ∧ a ≠ b) ∧
    ¬Relation.TransGen (Within p.successors p.tasks.names) t t := by
  unfold Plan.network
  simp only [Bool.and_eq_true, Plan.isSplit_iff, Bool.not_eq_true', ← Bool.not_eq_true,
    Plan.inCycle_iff]

/-- A join is no fork. -/
theorem forks_eq_false_of_isJoin (join : p.isJoin t = true) : p.network.forks t = false := by
  by_contra fork
  rw [Bool.not_eq_false, forks_iff, join] at fork
  exact Bool.noConfusion fork.1.2.1

namespace Direct

theorem Stamped.barrier_isSome {n : Node} (stamped : Stamped p n) :
    n.barrier.isSome = p.isJoin n.id := by
  obtain ⟨task, found, barrier, _⟩ := stamped.task
  unfold Plan.isJoin
  rw [found, barrier]
  rfl

/-- The forks of the graph are those of the plan. -/
theorem Composed.forkAt_eq (composed : Composed p g) (clean : Clean p) (known : t ∈ g.ids) :
    forkAt g t = p.network.forks t := by
  obtain ⟨n, inside, rfl⟩ := Graph.mem_ids_iff.mp known
  have join := (composed.nodes n inside).2.barrier_isSome
  have within : Within g.successors g.ids = Within p.successors p.tasks.names := by
    funext a b
    unfold Within
    rw [mem_successors_iff, composed.leads_iff clean, composed.ids_iff clean]
    exact propext ⟨And.left, fun link => ⟨link, link.2⟩⟩
  have named := (composed.ids_iff clean).mp known
  have into : ∀ a, g.Adjacent a n.id ↔ n.id ∈ p.successors a := by
    intro a
    rw [composed.leads_iff clean]
    exact ⟨And.left, fun link => ⟨link, named⟩⟩
  have none_ : n.barrier = none ↔ p.isJoin n.id = false := by
    rw [← join, Option.isSome_eq_false_iff, Option.isNone_iff_eq_none]
  rw [Bool.eq_iff_iff, forkAt_iff composed.coherent.unique inside, forks_iff, within]
  simp only [into, none_]
  exact ⟨fun ⟨plain, several, acyclic⟩ => ⟨⟨named, plain, several⟩, acyclic⟩,
    fun ⟨⟨_, plain, several⟩, acyclic⟩ => ⟨plain, several, acyclic⟩⟩

/-- What arrives in the graph arrives in the plan. -/
theorem Composed.arrives_of_network (composed : Composed p g) (clean : Clean p)
    (arrives : (network g).Arrives t σ) : p.network.Arrives t σ := by
  have among := network_among composed.coherent
  refine arrives.mono (fun t root => (composed.mem_roots_iff clean.unreserved).mp root)
    (fun t u link => (composed.leads_iff clean).mp link) (fun t σ before => ?_)
  exact composed.forkAt_eq clean (before.mem among)

/-- A join is noted with the forks of the only arrivals at it, so none of them is early. -/
theorem Composed.on_time (composed : Composed p g) (clean : Clean p) {splits : List Split}
    (arrives : p.network.Arrives t (splitTasks splits)) : tooEarly g t splits = false := by
  have known := (composed.mem_ids_iff clean.unreserved).mpr ⟨_, arrives⟩
  obtain ⟨n, found, rfl⟩ := exists_task known
  have stamped := (composed.nodes n (mem_of_task found).1).2
  unfold tooEarly isEarly
  rw [found]
  dsimp only
  rw [stamped.barrier_isSome]
  cases join : p.isJoin n.id with
  | false => rfl
  | true =>
    have short : ¬splits.length < n.splits.length := by
      rcases stamped.splits with none_ | ⟨τ, arrives', forks⟩
      · rw [none_]
        exact Nat.not_lt_zero _
      · rw [Network.behind_of_not_fork (forks_eq_false_of_isJoin join),
          clean.unambiguous _ join _ _ arrives' arrives] at forks
        have lengths := congrArg List.length forks
        simp only [splitTasks, List.length_map] at lengths
        omega
    simp [short]

end Direct

end Workflow.Composition
