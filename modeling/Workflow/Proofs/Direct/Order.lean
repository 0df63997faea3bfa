import Workflow.Proofs.Direct.Parallel

/-!
The order of the nodes of a direct composition without forks. Every task is arrived at once, and gets its
node when it comes up; so if there is one start, nodes stand in the breadth-first order of the links
(`explored_ids`).
-/

namespace Workflow

namespace Plan

/-- The tasks that links lead to; commands are none. -/
def tasksOf (ls : List Link) : List String :=
  (ls.filter fun l => !isReserved l.task).map Link.task

/-- The tasks that follow a task, in the order of the links. -/
def following (p : Plan) (t : String) : List String :=
  tasksOf (p.next t)

theorem tasksOf_cons (l : Link) (ls : List Link) :
    tasksOf (l :: ls) = (if isReserved l.task then [] else [l.task]) ++ tasksOf ls := by
  unfold tasksOf
  cases reserved : isReserved l.task <;> simp [reserved]

theorem mem_following_iff {p : Plan} {t d : String} :
    d ∈ p.following t ↔ d ∈ p.successors t ∧ isReserved d = false := by
  simp only [following, tasksOf, successors, List.mem_map, List.mem_filter, Bool.not_eq_true']
  constructor
  · rintro ⟨l, ⟨link, plain⟩, rfl⟩
    exact ⟨⟨l, link, rfl⟩, plain⟩
  · rintro ⟨⟨l, link, rfl⟩, plain⟩
    exact ⟨l, ⟨link, plain⟩, rfl⟩

/-- Links are sorted by task. -/
theorem following_sorted (p : Plan) (t : String) : (p.following t).Pairwise (· ≤ ·) := by
  refine List.pairwise_map.mpr (((p.next_sorted t).filter _).imp fun {a b} le => ?_)
  rcases le with before | ⟨same, _⟩
  · exact before.le
  · exact same.le

end Plan

namespace Composition.Direct

open Workflow.Graph
open Workflow.Plan (Link tasksOf tasksOf_cons)

variable {p : Plan} {limits : Limits} {g : Graph} {s s' : State} {r t : String} {l : Link}
  {ls : List Link} {passed seen : List String}

/-- The arrivals to come are behind no forks, at the tasks that have come up and have not been passed,
and each task that has come up is arrived at once. -/
structure InOrder (passed seen : List String) (s : State) : Prop where
  outer : ∀ v ∈ s.queue, v.splits = []
  waiting : passed ++ s.queue.map Visit.task = seen.eraseDups
  queued : ∀ t, (t, []) ∈ s.queued ↔ t ∈ seen

/-- An arrival at a task that has come up before is none to come. -/
theorem InOrder.again (inOrder : InOrder passed seen s) (old : t ∈ seen) :
    InOrder passed (seen ++ [t]) s := by
  refine ⟨inOrder.outer, ?_, fun u => ?_⟩
  · rw [inOrder.waiting, eraseDups_append_of_subset (by simpa using old)]
  · rw [inOrder.queued, List.mem_append, List.mem_singleton]
    constructor
    · exact .inl
    · rintro (before | rfl)
      · exact before
      · exact old

/-- A task that comes up is arrived at, last of all, unless it has come up before. -/
theorem InOrder.arrive (inOrder : InOrder passed seen s) (t : String) :
    InOrder passed (seen ++ [t]) (s.arrive ⟨t, []⟩) := by
  rcases arrive_cases s ⟨t, []⟩ with ⟨before, stays⟩ | ⟨unknown, added⟩
  · rw [stays]
    exact inOrder.again ((inOrder.queued t).mp before)
  · have new : t ∉ seen := fun old => unknown ((inOrder.queued t).mpr old)
    rw [added]
    refine ⟨fun v waiting => ?_, ?_, fun u => ?_⟩
    · rcases List.mem_append.mp waiting with old | last
      · exact inOrder.outer v old
      · rw [List.mem_singleton.mp last]
    · rw [eraseDups_concat_of_not_mem new, ← inOrder.waiting]
      simp
    · simp [Visit.key, splitTasks, inOrder.queued u, or_comm]

/-- The node of a task that comes up stands last, unless the task has come up before. -/
theorem ids_ensure_eraseDups (ids : g.ids = seen.eraseDups) :
    (g.ensure t).ids = (seen ++ [t]).eraseDups := by
  rw [ids_ensure, ids]
  split
  next known => rw [eraseDups_append_of_subset (by simpa using known)]
  next unknown =>
    rw [List.mem_eraseDups] at unknown
    rw [eraseDups_concat_of_not_mem unknown]

/-- A task that is followed comes up. -/
theorem InOrder.follow (inOrder : InOrder passed seen s) (ids : s.graph.ids = seen.eraseDups)
    (coherent : s.graph.Coherent) (known : t ∈ s.graph.ids)
    (ok : follow p t [] s l = .ok s') :
    InOrder passed (seen ++ if isReserved l.task then [] else [l.task]) s' ∧
      s'.graph.ids = (seen ++ if isReserved l.task then [] else [l.task]).eraseDups := by
  rcases follow_cases coherent t [] l with
    ⟨reserved, skipped⟩ | ⟨_, _, failed⟩ | ⟨plain, _, g, ensures, followed⟩
  · cases skipped.symm.trans ok
    simpa [reserved] using ⟨inOrder, ids⟩
  · cases failed.symm.trans ok
  · have ids' : g.ids = (seen ++ [l.task]).eraseDups := by
      have nodes : g.nodes = (s.graph.ensure l.task).nodes := by
        rw [ensures.nodes, ensure_of_mem known]
      unfold Graph.ids
      rw [nodes]
      exact ids_ensure_eraseDups ids
    have inOrder' : InOrder passed seen { s with graph := g } :=
      ⟨inOrder.outer, inOrder.waiting, inOrder.queued⟩
    rw [if_neg (by rw [plain]; exact Bool.false_ne_true)]
    cases followed.symm.trans ok
    split
    next again =>
      have old : l.task ∈ seen := by
        rw [Bool.and_eq_true, contains_iff, ids, List.mem_eraseDups] at again
        exact again.1
      exact ⟨inOrder'.again old, ids'⟩
    next =>
      rw [arrive_graph]
      exact ⟨inOrder'.arrive l.task, ids'⟩

/-- The links of a task bring up the tasks that they lead to, in their order. -/
theorem InOrder.followAll (inOrder : InOrder passed seen s) (ids : s.graph.ids = seen.eraseDups)
    (coherent : s.graph.Coherent) (known : t ∈ seen) (ok : followAll p t [] s ls = .ok s') :
    InOrder passed (seen ++ tasksOf ls) s' ∧ s'.graph.ids = (seen ++ tasksOf ls).eraseDups := by
  induction ls generalizing s seen with
  | nil =>
    cases ok
    simpa [tasksOf] using ⟨inOrder, ids⟩
  | cons l ls ih =>
    unfold Direct.followAll at ok
    split at ok
    next => cases ok
    next s₁ first =>
      have known' : t ∈ s.graph.ids := by
        rw [ids, List.mem_eraseDups]
        exact known
      obtain ⟨inOrder₁, ids₁⟩ := inOrder.follow ids coherent known' first
      rw [tasksOf_cons, ← List.append_assoc]
      exact ih inOrder₁ ids₁ (follow_between coherent first).1 (List.mem_append_left _ known) ok

/-- How far the walk from one start has come: the tasks that have been passed are the first in the
breadth-first order, and those that have come up have nodes, from the first arrival on. -/
structure Explores (p : Plan) (r : String) (passed : List String) (s : State) : Prop where
  explored : Explored [r] p.following passed
  inOrder : InOrder passed ([r] ++ passed.flatMap p.following) s
  ids : s.graph.ids = if passed = [] then [] else comeUp [r] p.following passed

theorem explores_start (single : p.starts = [r]) : Explores p r [] (.start p) := by
  refine ⟨.nil, ⟨fun v waiting => ?_, ?_, fun t => ?_⟩, rfl⟩
  · obtain ⟨t, _, rfl⟩ := List.mem_map.mp waiting
    rfl
  · simp [State.start, single, List.eraseDups_cons]
  · simp [State.start, single, Visit.key, splitTasks]

/-- A task that has come up has a node when it is arrived at. -/
theorem Explores.ids_addTask (explores : Explores p r passed s)
    (seen : t ∈ [r] ++ passed.flatMap p.following) (a : Attributes) :
    (s.graph.addTask t a).ids = comeUp [r] p.following passed := by
  have ids := explores.ids
  rw [Graph.ids_addTask]
  by_cases first : passed = []
  · subst first
    obtain rfl : t = r := by simpa using seen
    rw [if_pos rfl] at ids
    have none_ : s.graph.contains t = false := by
      rw [contains_eq_false_iff, ids]
      exact List.not_mem_nil
    simp [none_, ids, comeUp, List.eraseDups_cons]
  · rw [if_neg first] at ids
    rw [if_pos, ids]
    rw [contains_iff, ids, comeUp, List.mem_eraseDups]
    exact seen

/-- One visit passes the next task in the breadth-first order. -/
theorem Explores.takes (explores : Explores p r passed s) (forkless : ∀ t, isFork p t = false)
    (walked : Walked p [] s) (taken : Takes (step p limits) s s') :
    ∃ t, Explores p r (passed ++ [t]) s' := by
  have ⟨explored, inOrder, _⟩ := explores
  obtain ⟨v, queue, task, next, _, followed⟩ := takes_cases walked taken
  have outer : extended p v = [] := by
    unfold extended
    rw [forkless, if_neg Bool.false_ne_true]
    exact inOrder.outer v (next ▸ List.mem_cons_self)
  have waiting := inOrder.waiting
  rw [next, List.map_cons] at waiting
  have seen : v.task ∈ [r] ++ passed.flatMap p.following := by
    rw [← List.mem_eraseDups, ← waiting]
    simp
  have entered : InOrder (passed ++ [v.task]) ([r] ++ passed.flatMap p.following)
      ⟨s.graph.addTask v.task (attributes task []), queue, s.queued⟩ := by
    refine ⟨fun w waiting => inOrder.outer w (next ▸ List.mem_cons_of_mem v waiting), ?_,
      inOrder.queued⟩
    simpa using waiting
  rw [outer] at followed
  obtain ⟨inOrder', ids⟩ := entered.followAll (explores.ids_addTask seen _)
    (walked.coherent.addTask _ _) seen followed
  have more : [r] ++ passed.flatMap p.following ++ tasksOf (p.next v.task) =
      [r] ++ (passed ++ [v.task]).flatMap p.following := by
    simp [Plan.following]
  rw [more] at inOrder' ids
  refine ⟨v.task, explored.concat ?_, inOrder', ?_⟩
  · rw [comeUp, ← waiting]
    simp
  · rw [if_neg (by simp)]
    exact ids

theorem exists_explores_of_runs (single : p.starts = [r]) (forkless : ∀ t, isFork p t = false)
    (run : Runs (step p limits) (.start p) s) : ∃ passed, Explores p r passed s := by
  induction run with
  | refl => exact ⟨[], explores_start single⟩
  | tail before taken ih =>
    obtain ⟨passed, explores⟩ := ih
    obtain ⟨t, explores'⟩ := explores.takes forkless (walked_of_runs before) taken
    exact ⟨passed ++ [t], explores'⟩

/-- If no task is a fork and one is the start, nodes stand in the order in which tasks come up. -/
theorem explored_ids (single : p.starts = [r]) (forkless : ∀ t, isFork p t = false)
    (composed : direct limits p = .ok g) :
    Explored [r] p.following g.ids ∧ comeUp [r] p.following g.ids = g.ids := by
  obtain ⟨s, run, done, rfl⟩ := exists_runs_of_direct composed
  obtain ⟨passed, explored, inOrder, ids⟩ := exists_explores_of_runs single forkless run
  have all : passed = comeUp [r] p.following passed := by
    have waiting := inOrder.waiting
    rwa [done, List.map_nil, List.append_nil] at waiting
  have some_ : passed ≠ [] := by
    rintro rfl
    simp [comeUp, List.eraseDups_cons] at all
  rw [if_neg some_, ← all] at ids
  rw [ids]
  exact ⟨explored, all.symm⟩

end Composition.Direct

end Workflow
