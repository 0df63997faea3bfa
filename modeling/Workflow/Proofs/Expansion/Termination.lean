import Mathlib
import Workflow.Proofs.Direct.Composed
import Workflow.Proofs.Expansion.Loops

/-!
Compositions come to an end without their limits. A fork is on no cycle, so the nodes that arrivals at
it are sent from bear the numbers of forks before it. If those have given out no more than so many
numbers, then there are no more than so many ids for such nodes, so the fork is arrived at no more than
so often. In the order in which forks lead to each other, all of them give out finitely many numbers,
whatever the limits are, and there are finitely many nodes.
-/

namespace Workflow.Composition

open Workflow.Graph

namespace Expansion

variable {logical : Graph} {limits : Limits} {s s' : State} {v : Visit} {queue : List Visit}
  {t f : String} {splits : List Split} {log : List (String × List Split)}

/-- A transition leads from the one task to the other, which is there. -/
abbrev Onward (logical : Graph) : String → String → Prop :=
  Within logical.successors logical.ids

/-- The last fork on the way, if any, is one that has given out its number, and that leads on. -/
def BehindFork (logical : Graph) (s : State) (leads : String → Prop) (splits : List Split) : Prop :=
  ∀ split, splits.getLast? = some split → forkAt logical split.task = true ∧
    split.instance_ ≤ s.counter split.task ∧ leads split.task

/-- The arrival is along a transition behind its last fork. -/
def Awaited (logical : Graph) (s : State) (v : Visit) : Prop :=
  BehindFork logical s (fun f => ∃ u, Relation.ReflTransGen (Onward logical) f u ∧
    v.task ∈ logical.successors u) v.splits

/-- A task is there that was arrived at, and its last fork leads to it. -/
def Arrived (logical : Graph) (s : State) (a : String × List Split) : Prop :=
  a.1 ∈ logical.ids ∧
    BehindFork logical s (fun f => Relation.ReflTransGen (Onward logical) f a.1) a.2

/-- What the log of the arrivals that made nodes tells of the state. It tells the ids of the nodes; and
the numbers that a fork has given out, with the arrivals that wait at it, are no more than the arrivals
that were sent to it. -/
structure Logged (logical : Graph) (s : State) (log : List (String × List Split)) : Prop where
  made : s.made = log.map Prod.fst
  ids : s.graph.ids = log.map fun a => nodeId a.1 a.2
  arrived : ∀ a ∈ log, Arrived logical s a
  queue : ∀ v ∈ s.queue, Awaited logical s v
  sent : ∀ t, forkAt logical t = true → (s.queue.map Visit.task).count t + s.counter t ≤
    (s.made.flatMap logical.following).count t

theorem logged_start (logical : Graph) : Logged logical (.start logical) [] := by
  refine ⟨rfl, rfl, nofun, ?_, ?_⟩
  · intro v waiting split last
    obtain ⟨id, _, rfl⟩ := List.mem_map.mp waiting
    cases last
  · intro t fork
    have tasks : (State.start logical).queue.map Visit.task = logical.roots := by
      simp [State.start, Function.comp_def]
    have absent : t ∉ logical.roots := by
      intro root
      rw [not_fork_of_root root] at fork
      cases fork
    have counter : (State.start logical).counter t = 0 := rfl
    rw [tasks, List.count_eq_zero_of_not_mem absent, counter]
    exact Nat.zero_le _

theorem BehindFork.mono {leads leads' : String → Prop} (behind : BehindFork logical s leads splits)
    (counter : ∀ t, s.counter t ≤ s'.counter t) (further : ∀ f, leads f → leads' f) :
    BehindFork logical s' leads' splits := by
  intro split last
  obtain ⟨fork, given, way⟩ := behind split last
  exact ⟨fork, given.trans (counter _), further _ way⟩

namespace Admits

theorem counter_le (admits : Admits logical limits s v queue s') (t : String) :
    s.counter t ≤ s'.counter t := by
  rw [admits.counter]
  split <;> omega

/-- An arrival that is admitted is behind a fork that leads to its task: a fork leads to itself. -/
theorem arrived (admits : Admits logical limits s v queue s') (defined : v.task ∈ logical.ids)
    (awaited : Awaited logical s v) : Arrived logical s' (v.task, s.lineage logical v) := by
  refine ⟨defined, ?_⟩
  cases fork : forkAt logical v.task with
  | true =>
    rw [lineage_of_fork fork]
    intro split last
    rw [List.getLast?_concat, Option.some.injEq] at last
    subst last
    refine ⟨fork, ?_, .refl⟩
    rw [admits.counter, if_pos ⟨fork, rfl⟩]
  | false =>
    rw [lineage_of_not_fork fork]
    refine awaited.mono admits.counter_le ?_
    rintro f ⟨u, way, next⟩
    exact way.tail ⟨next, defined⟩

/-- What it sends on is behind the same fork. -/
theorem awaited (admits : Admits logical limits s v queue s') (defined : v.task ∈ logical.ids)
    (before : Awaited logical s v) (held : ∀ w ∈ queue, Awaited logical s w) :
    ∀ w ∈ s'.queue, Awaited logical s' w := by
  intro w waiting
  rcases admits.queue_cases waiting with old | ⟨_, e, known, source, rfl⟩
  · exact (held w old).mono admits.counter_le fun _ => id
  · refine (admits.arrived defined before).2.mono (fun _ => le_rfl) fun f way => ?_
    exact ⟨v.task, way, mem_successors_iff.mpr ⟨e, known, source, rfl⟩⟩

/-- The arrivals at a fork and the numbers that it has given out remain as many, as one is admitted. -/
theorem count_add_counter (admits : Admits logical limits s v queue s')
    (next : s.queue = v :: queue) (fork : forkAt logical t = true) :
    (queue.map Visit.task).count t + s'.counter t =
      (s.queue.map Visit.task).count t + s.counter t := by
  rw [admits.counter, next, List.map_cons, List.count_cons]
  by_cases same : t = v.task
  · subst same
    simp only [fork, and_self, if_true, beq_self_eq_true]
    omega
  · simp [same, Ne.symm same]

/-- An arrival that makes a node is entered in the log. -/
theorem logged (admits : Admits logical limits s v queue s') (before : Logged logical s log)
    (next : s.queue = v :: queue) (defined : v.task ∈ logical.ids) :
    ∃ log', Logged logical s' log' := by
  obtain ⟨first, held⟩ : Awaited logical s v ∧ ∀ w ∈ queue, Awaited logical s w :=
    List.forall_mem_cons.mp (next ▸ before.queue)
  have kept : ∀ a ∈ log, Arrived logical s' a := fun a inside =>
    ⟨(before.arrived a inside).1, (before.arrived a inside).2.mono admits.counter_le fun _ => id⟩
  have queued := admits.awaited defined first held
  rcases admits.node with ⟨ids, _, made, queue'⟩ | ⟨ids, _, made, es, links, queue'⟩
  · refine ⟨log, made.trans before.made, ids.trans before.ids, kept, queued, fun t fork => ?_⟩
    rw [queue', made, admits.count_add_counter next fork]
    exact before.sent t fork
  · refine ⟨log ++ [(v.task, s.lineage logical v)], ?_, ?_, ?_, queued, fun t fork => ?_⟩
    · rw [made, before.made, List.map_append, List.map_singleton]
    · rw [ids, before.ids, List.map_append, List.map_singleton]
    · exact List.forall_mem_append.mpr
        ⟨kept, List.forall_mem_singleton.mpr (admits.arrived defined first)⟩
    · have sent := before.sent t fork
      have same := admits.count_add_counter next fork
      have tasks : s'.queue.map Visit.task = queue.map Visit.task ++ logical.following v.task := by
        rw [queue', following_of_next links, List.map_append, List.map_map]
        rfl
      rw [tasks, made, List.flatMap_append, List.count_append, List.count_append,
        List.flatMap_singleton]
      omega

end Admits

/-- A step keeps the log, or enters an arrival. -/
theorem Logged.takes (logged : Logged logical s log) (grounded : Grounded logical s)
    (taken : Takes (step logical limits) s s') : ∃ log', Logged logical s' log' := by
  obtain ⟨v, queue, next⟩ := exists_head_of_takes taken
  rcases grounded.cases_of_takes next taken with ⟨_, rfl⟩ | admits
  · refine ⟨log, logged.made, logged.ids, logged.arrived, fun w inside => ?_, fun t fork => ?_⟩
    · exact logged.queue w (next ▸ List.mem_cons_of_mem v inside)
    · refine le_trans (Nat.add_le_add_right ?_ _) (logged.sent t fork)
      rw [next]
      exact (List.sublist_cons_self _ _).count_le t
  · exact admits.logged logged next (defined_of_takes next taken)

/-- Every state of an expansion has a log. -/
theorem logged_of_runs (run : Runs (step logical limits) (.start logical) s) :
    ∃ log, Logged logical s log := by
  induction run with
  | refl => exact ⟨[], logged_start logical⟩
  | tail run taken ih =>
    obtain ⟨log, logged⟩ := ih
    exact logged.takes (grounded_of_runs run) taken

/-- The ids that instances of tasks with numbers up to a bound may have, and those without a number. -/
def idsUpTo (tasks : List String) (most : Nat) : List String :=
  tasks.flatMap fun t => t :: (List.range (most + 1)).map fun k => t ++ "__" ++ toString k

theorem length_idsUpTo (tasks : List String) (most : Nat) :
    (idsUpTo tasks most).length = tasks.length * (most + 2) := by
  unfold idsUpTo
  induction tasks with
  | nil => simp
  | cons t tasks ih =>
    rw [List.flatMap_cons, List.length_append, ih]
    simp only [List.length_cons, List.length_map, List.length_range]
    ring

/-- Where the last fork has a small number, the id is one of finitely many. -/
theorem nodeId_mem_idsUpTo {tasks : List String} (known : t ∈ tasks) {most : Nat}
    (few : ∀ split, splits.getLast? = some split → split.instance_ ≤ most) :
    nodeId t splits ∈ idsUpTo tasks most := by
  refine List.mem_flatMap.mpr ⟨t, known, ?_⟩
  unfold nodeId
  cases last : splits.getLast? with
  | none => exact List.mem_cons_self
  | some split =>
    have small := few split last
    exact List.mem_cons_of_mem _
      (List.mem_map.mpr ⟨split.instance_, List.mem_range.mpr (by omega), rfl⟩)

/-- If the forks that lead to some of the tasks have given out no more than so many numbers, then there
are ids for no more than so many arrivals at these tasks. -/
theorem Logged.length_filter_le (logged : Logged logical s log)
    (grounded : Grounded logical s) (some_ : String → Bool) {most : Nat}
    (few : ∀ t, some_ t = true → ∀ f, forkAt logical f = true →
      Relation.ReflTransGen (Onward logical) f t → s.counter f ≤ most) :
    (log.filter fun a => some_ a.1).length ≤ logical.ids.length * (most + 2) := by
  have unique : ((log.filter fun a => some_ a.1).map fun a => nodeId a.1 a.2).Nodup := by
    have all := grounded.coherent.unique
    rw [logged.ids] at all
    exact all.sublist (List.filter_sublist.map _)
  have known : ((log.filter fun a => some_ a.1).map fun a => nodeId a.1 a.2) ⊆
      idsUpTo logical.ids most := by
    intro id inside
    obtain ⟨a, there, rfl⟩ := List.mem_map.mp inside
    obtain ⟨entry, own⟩ := List.mem_filter.mp there
    obtain ⟨defined, behind⟩ := logged.arrived a entry
    refine nodeId_mem_idsUpTo defined fun split last => ?_
    obtain ⟨fork, given, way⟩ := behind split last
    exact given.trans (few a.1 own split.task fork way)
  have length := (unique.subperm known).length_le
  rwa [List.length_map, length_idsUpTo] at length

theorem count_following_le (logical : Graph) (t u : String) :
    (logical.following u).count t ≤ logical.edges.length := by
  refine List.count_le_length.trans ?_
  unfold following
  rw [List.length_map, List.length_mergeSort]
  exact List.length_filter_le _ _

/-- The arrivals that nodes send to a task are no more than the transitions, for each node that has
one to it. -/
theorem count_flatMap_following_le (logical : Graph) (t : String) (made : List String) :
    (made.flatMap logical.following).count t ≤
      (made.filter fun u => (logical.following u).contains t).length * logical.edges.length := by
  induction made with
  | nil => simp
  | cons u made ih =>
    rw [List.flatMap_cons, List.count_append]
    by_cases leads : (logical.following u).contains t = true
    · simp only [List.filter_cons, leads, if_true, List.length_cons, Nat.succ_mul]
      have one := count_following_le logical t u
      omega
    · simp only [List.filter_cons, leads, if_false, Bool.false_eq_true]
      rw [List.count_eq_zero_of_not_mem (by rwa [← List.contains_iff_mem]), Nat.zero_add]
      exact ih

theorem mem_ids_of_fork (fork : forkAt logical f = true) : f ∈ logical.ids := by
  unfold forkAt at fork
  split at fork
  next n _ found _ => exact mem_ids_of_task found
  next => cases fork

/-- A fork has given out no more numbers than its predecessors could send arrivals. -/
theorem Logged.counter_le (logged : Logged logical s log) (grounded : Grounded logical s)
    (fork : forkAt logical f = true) {most : Nat}
    (few : ∀ g, forkAt logical g = true →
      Relation.TransGen (Onward logical) g f → s.counter g ≤ most) :
    s.counter f ≤ logical.ids.length * (most + 2) * logical.edges.length := by
  have sent := logged.sent f fork
  have defined := mem_ids_of_fork fork
  have senders := logged.length_filter_le grounded
    (fun u => (logical.following u).contains f) fun u leads g fork' way => by
      have adjacent := mem_following_iff.mp (List.contains_iff_mem.mp leads)
      exact few g fork' (.tail' way ⟨mem_successors_iff.mpr adjacent, defined⟩)
  have length : (s.made.filter fun u => (logical.following u).contains f).length =
      (log.filter fun a => (logical.following a.1).contains f).length := by
    rw [logged.made, List.filter_map, List.length_map]
    rfl
  calc s.counter f ≤ (s.made.flatMap logical.following).count f := by omega
    _ ≤ (s.made.filter fun u => (logical.following u).contains f).length * logical.edges.length :=
      count_flatMap_following_le logical f s.made
    _ ≤ logical.ids.length * (most + 2) * logical.edges.length := by
      rw [length]
      exact Nat.mul_le_mul_right _ senders

/-- A fork gives out finitely many numbers, whatever the limits are. -/
def Bounded (logical : Graph) (f : String) (most : Nat) : Prop :=
  ∀ limits s, Runs (step logical limits) (.start logical) s → s.counter f ≤ most

theorem Bounded.mono {m n : Nat} (bounded : Bounded logical f m) (le : m ≤ n) : Bounded logical f n :=
  fun limits s run => (bounded limits s run).trans le

theorem mem_forks_iff : f ∈ logical.ids.filter (forkAt logical) ↔ forkAt logical f = true := by
  rw [List.mem_filter]
  exact ⟨And.right, fun fork => ⟨mem_ids_of_fork fork, fork⟩⟩

/-- Each fork gives out finitely many numbers, as those before it do. -/
theorem exists_bounded (fork : forkAt logical f = true) : ∃ most, Bounded logical f most := by
  have acyclic : ∀ g ∈ logical.ids.filter (forkAt logical),
      ¬Relation.TransGen (Relation.TransGen (Onward logical)) g g := by
    intro g inside cycle
    rw [Relation.transGen_eq_self] at cycle
    have plain := not_fork_of_inCycle (inCycle_iff.mpr cycle)
    rw [mem_forks_iff.mp inside] at plain
    cases plain
  refine acyclic_induction acyclic ?_ (mem_forks_iff.mpr fork)
  intro f inside earlier
  obtain ⟨most, few⟩ : ∃ most, ∀ g ∈ logical.ids.filter (forkAt logical),
      Relation.TransGen (Onward logical) g f → Bounded logical g most := by
    refine exists_le_of_forall_mem (fun g m n le few way => (few way).mono le) fun g known => ?_
    by_cases way : Relation.TransGen (Onward logical) g f
    · obtain ⟨most, few⟩ := earlier g known way
      exact ⟨most, fun _ => few⟩
    · exact ⟨0, fun way' => absurd way' way⟩
  refine ⟨logical.ids.length * (most + 2) * logical.edges.length, fun limits s run => ?_⟩
  obtain ⟨log, logged⟩ := logged_of_runs run
  exact logged.counter_le (grounded_of_runs run) (mem_forks_iff.mp inside) fun g fork way =>
    few g (mem_forks_iff.mpr fork) way limits s run

/-- There is a number of nodes that no expansion of a graph goes beyond, whatever its limits are. -/
theorem exists_length_nodes_le (logical : Graph) : ∃ most, ∀ limits s,
    Runs (step logical limits) (.start logical) s → s.graph.nodes.length ≤ most := by
  obtain ⟨most, few⟩ : ∃ most, ∀ f ∈ logical.ids.filter (forkAt logical), Bounded logical f most :=
    exists_le_of_forall_mem (fun _ _ _ le few => few.mono le)
      fun f known => exists_bounded (mem_forks_iff.mp known)
  refine ⟨logical.ids.length * (most + 2), fun limits s run => ?_⟩
  obtain ⟨log, logged⟩ := logged_of_runs run
  have all := logged.length_filter_le (grounded_of_runs run) (fun _ => true)
    fun t _ f fork _ => few f (mem_forks_iff.mpr fork) limits s run
  have length := congrArg List.length logged.ids
  simp only [Graph.ids, List.length_map] at length
  rw [List.filter_true, ← length] at all
  exact all

/-- There is a number of steps after which every expansion of a graph has come to its end, whatever its
limits are. -/
theorem exists_steps (logical : Graph) :
    ∃ steps, ∀ limits, (workOff (step logical limits) steps (.start logical)).isSome := by
  obtain ⟨most, few⟩ := exists_length_nodes_le logical
  -- The measure is the one of an expansion that may make so many nodes.
  let measure := remaining logical { maxInstances := most }
  refine ⟨measure (.start logical) + 1, fun limits => ?_⟩
  have smaller : ∀ a b, Runs (step logical limits) (.start logical) a →
      Takes (step logical limits) a b → measure b < measure a := fun a b run taken =>
    (grounded_of_runs run).remaining_lt taken fun _ => few limits b (run.tail taken)
  exact workOff_isSome measure (fun a b run taken => run.tail taken) smaller _ _ .refl
    (Nat.lt_succ_self _)

end Expansion

open Expansion

/-- Both compositions come to an end after a number of steps that does not depend on the limits: then
nothing is left to do, or a step has failed. So do expansions of graphs that no plan comes to, with
cycles, joins and lineages of any kind. -/
theorem compositions_end :
    (∀ p : Plan, ∃ steps, ∀ limits, ∃ r,
      workOff (Direct.step p limits) steps (.start p) = some r ∧
      ((∃ s, r = .ok s ∧ s.queue = []) ∨ ∃ f, r = .error f) ∧
      direct limits p =
        if limits.maxTasks < p.tasks.size then .error (.beyond limits .tasks)
        else if p.starts.isEmpty then .error .noStartTasks
        else r.map Direct.State.graph) ∧
    ∀ logical : Graph, ∃ steps, ∀ limits, ∃ r,
      workOff (step logical limits) steps (.start logical) = some r ∧
      ((∃ s, r = .ok s ∧ s.queue = []) ∨ ∃ f, r = .error f) ∧
      expand limits logical = r.map State.graph := by
  constructor
  · intro p
    refine ⟨Direct.maxSteps p, fun limits => ?_⟩
    unfold direct
    rcases workOff_cases (Direct.walk_ends p limits) with ⟨s, worked, _, done⟩ | ⟨f, _, worked, _⟩
    · rw [worked]
      exact ⟨_, rfl, .inl ⟨s, rfl, Direct.queue_eq_nil_of_step done⟩, rfl⟩
    · rw [worked]
      exact ⟨_, rfl, .inr ⟨f, rfl⟩, rfl⟩
  · intro logical
    obtain ⟨steps, ends⟩ := exists_steps logical
    refine ⟨steps, fun limits => ?_⟩
    rcases workOff_cases (ends limits) with ⟨s, worked, _, done⟩ | ⟨f, _, worked, _⟩
    · exact ⟨_, worked, .inl ⟨s, rfl, queue_eq_nil_of_step done⟩, expand_eq_of_workOff worked⟩
    · exact ⟨_, worked, .inr ⟨f, rfl⟩, expand_eq_of_workOff worked⟩

end Workflow.Composition
