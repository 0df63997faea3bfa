import Workflow.Plan.Links
import Workflow.Proofs.Arrivals
import Workflow.Proofs.Lists
import Workflow.Proofs.Reachability
import Workflow.Proofs.Table

/-!
The network of a plan: what the look-ups of links say about the clauses of its tasks, and the tasks that
the work comes to. Commands are not gone on to, so a task that is called like one is reached only if it is
a start task. Without cycles and commands, all tasks are reached (`reached_of_acyclic`).
-/

namespace Workflow

namespace Plan

variable {p : Plan} {t u : String} {l : Link}

theorem mem_links_iff {c : Clause} :
    l ∈ c.links ↔ l.task ∈ c.destinations ∧ l.condition = c.condition ∧ l.ordinal = c.ordinal := by
  obtain ⟨task, condition, ordinal⟩ := l
  unfold Clause.links
  simp only [List.mem_map, Link.mk.injEq]
  constructor
  · rintro ⟨d, inside, rfl, rfl, rfl⟩
    exact ⟨inside, rfl, rfl⟩
  · rintro ⟨inside, rfl, rfl⟩
    exact ⟨task, inside, rfl, rfl, rfl⟩

theorem mem_next_iff :
    l ∈ p.next t ↔ ∃ task, p.tasks.get? t = some task ∧ ∃ c ∈ task.clauses, l ∈ c.links := by
  unfold next
  cases p.tasks.get? t with
  | none => simp
  | some task => simp

theorem mem_successors_iff :
    u ∈ p.successors t ↔
      ∃ task, p.tasks.get? t = some task ∧ ∃ c ∈ task.clauses, u ∈ c.destinations := by
  unfold successors
  simp only [List.mem_map, mem_next_iff, mem_links_iff]
  constructor
  · rintro ⟨l, ⟨task, found, c, clause, inside, _⟩, rfl⟩
    exact ⟨task, found, c, clause, inside⟩
  · rintro ⟨task, found, c, clause, inside⟩
    exact ⟨⟨u, c.condition, c.ordinal⟩, ⟨task, found, c, clause, inside, rfl, rfl⟩, rfl⟩

theorem mem_prev_iff : u ∈ (p.prev t).map Link.task ↔ t ∈ p.successors u := by
  unfold prev linksTo
  rw [mem_successors_iff]
  simp only [List.mem_map, List.mem_mergeSort, List.mem_flatMap, List.mem_filter]
  constructor
  · rintro ⟨_, ⟨⟨_, task⟩, entry, c, ⟨clause, leads⟩, rfl⟩, rfl⟩
    exact ⟨task, Table.get?_eq_some_iff.mpr entry, c, clause, by simpa using leads⟩
  · rintro ⟨task, found, c, clause, leads⟩
    exact ⟨⟨u, c.condition, c.ordinal⟩, ⟨(u, task), Table.get?_eq_some_iff.mp found, c,
      ⟨clause, by simpa using leads⟩, rfl⟩, rfl⟩

theorem isTargeted_iff : p.isTargeted t = true ↔ ∃ u, t ∈ p.successors u := by
  unfold isTargeted Table.values
  simp only [List.any_eq_true, List.mem_map, List.contains_iff_mem, mem_successors_iff]
  constructor
  · rintro ⟨_, ⟨⟨u, task⟩, entry, rfl⟩, c, clause, leads⟩
    exact ⟨u, task, Table.get?_eq_some_iff.mpr entry, c, clause, leads⟩
  · rintro ⟨u, task, found, c, clause, leads⟩
    exact ⟨task, ⟨(u, task), Table.get?_eq_some_iff.mp found, rfl⟩, c, clause, leads⟩

theorem mem_starts_iff : t ∈ p.starts ↔ t ∈ p.tasks.names ∧ ∀ u, t ∉ p.successors u := by
  unfold starts
  rw [List.mem_mergeSort, List.mem_filter, Bool.not_eq_true', ← Bool.not_eq_true, isTargeted_iff,
    not_exists]

theorem starts_nodup (p : Plan) : p.starts.Nodup := by
  unfold starts
  exact (List.mergeSort_perm _ _).nodup_iff.mpr ((Table.names_nodup _).filter _)

theorem isJoin_eq_false (none : p.tasks.values.all (fun task => task.join.isNone) = true)
    (t : String) : p.isJoin t = false := by
  unfold isJoin
  cases found : p.tasks.get? t with
  | none => rfl
  | some task =>
    have joinless := List.all_eq_true.mp none task (Table.mem_values_of_get? found)
    simpa using joinless

/-- A task is split just if it joins nothing and several tasks lead to it. -/
theorem isSplit_iff :
    p.isSplit t = true ↔ t ∈ p.tasks.names ∧ p.isJoin t = false ∧
      ∃ u v, t ∈ p.successors u ∧ t ∈ p.successors v ∧ u ≠ v := by
  unfold isSplit
  rw [Bool.and_eq_true, Bool.and_eq_true, Table.contains_iff, Bool.not_eq_true', decide_eq_true_iff,
    one_lt_length_eraseDups_iff, and_assoc]
  simp only [mem_prev_iff]
  constructor
  · rintro ⟨known, plain, u, first, v, second, differ⟩
    exact ⟨known, plain, u, v, first, second, differ⟩
  · rintro ⟨known, plain, u, v, first, second, differ⟩
    exact ⟨known, plain, u, first, v, second, differ⟩

theorem inCycle_iff :
    p.inCycle t = true ↔ Relation.TransGen (Within p.successors p.tasks.names) t t := by
  unfold inCycle
  rw [List.contains_iff_mem, mem_reach_next_iff]

/-- The network of a plan. Its links lead to tasks that are defined. -/
def network (p : Plan) : Network where
  starts t := t ∈ p.starts
  leads := Within p.successors p.tasks.names
  forks t := p.isSplit t && !p.inCycle t

/-- Tasks on cycles are no forks, so no fork leads back to itself. -/
theorem network_acyclic (p : Plan) : p.network.Acyclic := by
  intro t fork cycle
  simp only [network, Bool.and_eq_true, Bool.not_eq_true'] at fork cycle
  rw [inCycle_iff.mpr cycle] at fork
  exact Bool.noConfusion fork.2

theorem network_among (p : Plan) : p.network.Among p.tasks.names :=
  ⟨fun _ first => (mem_starts_iff.mp first).1, fun _ _ link => link.2⟩

section Reached

variable {d : String}

/-- The start tasks, and every destination of a clause of a task that is reached, apart from commands.
-/
inductive Reached (p : Plan) : String → Prop where
  | start {t : String} (first : t ∈ p.starts) : Reached p t
  | follow {t d : String} {task : Task} {c : Clause} (before : Reached p t)
      (found : p.tasks.get? t = some task) (clause : c ∈ task.clauses)
      (destination : d ∈ c.destinations) (plain : isReserved d = false) : Reached p d

theorem Reached.next (before : p.Reached t) (link : l ∈ p.next t)
    (plain : isReserved l.task = false) : p.Reached l.task := by
  obtain ⟨task, found, c, clause, inside⟩ := mem_next_iff.mp link
  exact before.follow found clause (mem_links_iff.mp inside).1 plain

/-- Without cycles and commands, the way back from any task ends at a start task. -/
theorem reached_of_acyclic (acyclic : ∀ t ∈ p.tasks.names, p.inCycle t = false)
    (plain : ∀ t d, d ∈ p.successors t → isReserved d = false) (known : t ∈ p.tasks.names) :
    p.Reached t := by
  have free : ∀ t ∈ p.tasks.names,
      ¬Relation.TransGen (Within p.successors p.tasks.names) t t := by
    intro t known cycle
    have none_ := acyclic t known
    rw [inCycle_iff.mpr cycle] at none_
    cases none_
  refine acyclic_induction free (fun t known ih => ?_) known
  by_cases first : t ∈ p.starts
  · exact .start first
  · have led : ∃ s, t ∈ p.successors s := by
      simpa [mem_starts_iff, known] using first
    obtain ⟨s, leads⟩ := led
    obtain ⟨task, found, c, clause, destination⟩ := mem_successors_iff.mp leads
    have defined : s ∈ p.tasks.names := Table.mem_names_iff.mpr ⟨task, found⟩
    exact (ih s defined ⟨leads, known⟩).follow found clause destination (plain s t leads)

end Reached

/-- A task with one clause, which leads to these tasks. -/
def Task.leading (destinations : List String) (join : Option Join) : Task where
  clauses := [⟨0, none, [], destinations, ""⟩]
  join := join
  retry := none
  forEach := none
  sites := []

/-- A plan of tasks that declares nothing. -/
def bare (tasks : Table Task) : Plan :=
  ⟨tasks, [], [], []⟩

end Plan

end Workflow
