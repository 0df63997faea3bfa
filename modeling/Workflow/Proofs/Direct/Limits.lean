import Workflow.Proofs.Direct.Composed

/-!
What limits do to a direct composition. Wider limits change nothing of what it comes to, unless it went
beyond one of the narrower ones; and a graph that is composed keeps within them.
-/

namespace Workflow

/-- No bound is beyond the same bound of the others. -/
structure Limits.AtMost (narrow wide : Limits) : Prop where
  tasks : narrow.maxTasks ≤ wide.maxTasks
  splitDepth : narrow.maxSplitDepth ≤ wide.maxSplitDepth
  instances : narrow.maxInstances ≤ wide.maxInstances

/-- The limits that allow what one or the other of two allow. -/
def Limits.either (a b : Limits) : Limits :=
  ⟨max a.maxTasks b.maxTasks, max a.maxSplitDepth b.maxSplitDepth,
    max a.maxInstances b.maxInstances⟩

theorem Limits.atMost_either_left (a b : Limits) : a.AtMost (a.either b) :=
  ⟨Nat.le_max_left .., Nat.le_max_left .., Nat.le_max_left ..⟩

theorem Limits.atMost_either_right (a b : Limits) : b.AtMost (a.either b) :=
  ⟨Nat.le_max_right .., Nat.le_max_right .., Nat.le_max_right ..⟩

namespace Composition

open Workflow.Graph

def Failure.Beyond (f : Failure) : Prop :=
  ∃ bound max, f = .limitExceeded bound max

theorem Failure.beyond_beyond (l : Limits) (b : Bound) : (Failure.beyond l b).Beyond :=
  ⟨b, b.value l, rfl⟩

namespace Direct

variable {p : Plan} {limits wide : Limits} {s s' : State} {t : String} {splits : List Split}

/-- A step goes beyond a limit, or does what it does within wider ones. -/
theorem step_eq_or_beyond (wider : limits.AtMost wide) (s : State) :
    step p wide s = step p limits s ∨ ∃ f, f.Beyond ∧ step p limits s = .error f := by
  cases next : s.queue with
  | nil => exact .inl (by rw [step_of_nil next, step_of_nil next])
  | cons v queue =>
    rw [step_of_cons next, step_of_cons next]
    cases found : p.tasks.get? v.task with
    | none =>
      unfold visit
      rw [found]
      exact .inl rfl
    | some task =>
      rw [visit_eq found, visit_eq found]
      have depth := wider.splitDepth
      by_cases deep : (isFork p v.task && limits.maxSplitDepth < (extended p v).length) = true
      · rw [if_pos deep]
        exact .inr ⟨_, Failure.beyond_beyond limits .splitDepth, rfl⟩
      · have shallow :
            ¬(isFork p v.task && wide.maxSplitDepth < (extended p v).length) = true := by
          simp only [Bool.and_eq_true, decide_eq_true_eq, not_and] at deep ⊢
          intro fork
          have := deep fork
          omega
        rw [if_neg deep, if_neg shallow]
        exact .inl rfl

/-- Neither nodes nor arrivals are behind more forks than the limits allow. -/
structure Shallow (limits : Limits) (s : State) : Prop where
  nodes : ∀ n ∈ s.graph.nodes, n.splits.length ≤ limits.maxSplitDepth
  queue : ∀ v ∈ s.queue, v.splits.length ≤ limits.maxSplitDepth

theorem shallow_start (p : Plan) (limits : Limits) : Shallow limits (.start p) := by
  refine ⟨nofun, fun v waiting => ?_⟩
  obtain ⟨t, _, rfl⟩ := List.mem_map.mp waiting
  exact Nat.zero_le _

theorem Shallow.arrive (shallow : Shallow limits s) {v : Visit}
    (few : v.splits.length ≤ limits.maxSplitDepth) : Shallow limits (s.arrive v) := by
  rcases arrive_cases s v with ⟨_, as_is⟩ | ⟨_, added⟩
  · rw [as_is]
    exact shallow
  · rw [added]
    refine ⟨shallow.nodes, fun w waiting => ?_⟩
    rcases List.mem_append.mp waiting with old | new
    · exact shallow.queue w old
    · rw [List.mem_singleton.mp new]
      exact few

/-- A link that is followed leads to a node that is there, or to one that is behind no fork yet. -/
theorem Shallow.follow (shallow : Shallow limits s) (coherent : s.graph.Coherent)
    (few : splits.length ≤ limits.maxSplitDepth) {l : Plan.Link}
    (followed : follow p t splits s l = .ok s') : Shallow limits s' ∧ s'.graph.Coherent := by
  rcases follow_cases coherent t splits l with
    ⟨_, skipped⟩ | ⟨_, _, failed⟩ | ⟨_, _, g, ensures, done⟩
  · cases skipped.symm.trans followed
    exact ⟨shallow, coherent⟩
  · cases failed.symm.trans followed
  · have linked : Shallow limits { s with graph := g } := by
      refine ⟨fun n inside => ?_, shallow.queue⟩
      dsimp only at inside
      rw [ensures.nodes, mem_ensure, mem_ensure] at inside
      rcases inside with (old | ⟨_, rfl⟩) | ⟨_, rfl⟩
      · exact shallow.nodes n old
      · exact Nat.zero_le _
      · exact Nat.zero_le _
    have same := Except.ok.inj (done.symm.trans followed)
    split at same
    next =>
      subst same
      exact ⟨linked, ensures.coherent⟩
    next =>
      subst same
      refine ⟨linked.arrive few, ?_⟩
      rcases arrive_cases { s with graph := g } ⟨l.task, splits⟩ with ⟨_, as_is⟩ | ⟨_, added⟩
      · rw [as_is]
        exact ensures.coherent
      · rw [added]
        exact ensures.coherent

/-- Following links keeps within the limits if what they are followed behind does. -/
theorem Shallow.followAll (shallow : Shallow limits s) (coherent : s.graph.Coherent)
    (few : splits.length ≤ limits.maxSplitDepth) {ls : List Plan.Link}
    (followed : followAll p t splits s ls = .ok s') : Shallow limits s' := by
  induction ls generalizing s with
  | nil =>
    cases followed
    exact shallow
  | cons l ls ih =>
    unfold Direct.followAll at followed
    split at followed
    next => cases followed
    next s₁ first =>
      obtain ⟨shallow₁, coherent₁⟩ := shallow.follow coherent few first
      exact ih shallow₁ coherent₁ followed

/-- The forks that a node gets are those of its arrival, if any; otherwise it keeps its own. -/
theorem splits_merge_attributes (n : Node) (task : Plan.Task) (splits : List Split) :
    (n.merge (attributes task splits)).splits = splits ∨
      (n.merge (attributes task splits)).splits = n.splits := by
  cases splits with
  | nil => exact .inr rfl
  | cons a as => exact .inl rfl

/-- A visit that is made keeps the depth: a fork was checked, and any other task adds no fork. -/
theorem Shallow.takes (shallow : Shallow limits s) (walked : Walked p [] s)
    (taken : Takes (step p limits) s s') : Shallow limits s' := by
  obtain ⟨v, queue, task, next, found, followed⟩ := takes_cases walked taken
  have head := shallow.queue v (next ▸ List.mem_cons_self)
  have few : (extended p v).length ≤ limits.maxSplitDepth := by
    unfold Takes at taken
    rw [step_of_cons next, map_some_eq_ok_iff, visit_eq found] at taken
    split at taken
    next => cases taken
    next fits =>
      cases fork : isFork p v.task with
      | false =>
        unfold extended
        rw [fork]
        exact head
      | true =>
        rw [fork] at fits
        simpa using fits
  refine Shallow.followAll ⟨fun n inside => ?_, fun w waiting => ?_⟩
    (walked.coherent.addTask _ _) few followed
  · rcases mem_addTask.mp inside with ⟨old, _⟩ | ⟨m, before, rfl⟩
    · exact shallow.nodes n old
    · rcases splits_merge_attributes m task (extended p v) with new | kept
      · rw [new]
        exact few
      · rw [kept]
        rcases before with ⟨old, _⟩ | ⟨_, rfl⟩
        · exact shallow.nodes m old
        · exact Nat.zero_le _
  · exact shallow.queue w (next ▸ List.mem_cons_of_mem v waiting)

theorem shallow_of_runs (run : Runs (step p limits) (.start p) s) : Shallow limits s := by
  induction run with
  | refl => exact shallow_start p limits
  | tail run taken ih => exact ih.takes (walked_of_runs run) taken

end Direct

open Direct

variable {p : Plan} {limits wide : Limits} {g : Graph}

/-- A direct composition goes beyond a limit, or comes to the same within wider ones. -/
theorem direct_eq_or_beyond (wider : limits.AtMost wide) (p : Plan) :
    direct wide p = direct limits p ∨ ∃ f, f.Beyond ∧ direct limits p = .error f := by
  have tasks := wider.tasks
  unfold direct
  by_cases many : limits.maxTasks < p.tasks.size
  · rw [if_pos many]
    exact .inr ⟨_, Failure.beyond_beyond limits .tasks, rfl⟩
  · rw [if_neg many, if_neg (by omega : ¬wide.maxTasks < p.tasks.size)]
    by_cases none_ : p.starts.isEmpty = true
    · rw [if_pos none_, if_pos none_]
      exact .inl rfl
    · rw [if_neg none_, if_neg none_]
      obtain ⟨r, worked⟩ := Option.isSome_iff_exists.mp (walk_ends p limits)
      rcases workOff_of_agree (step_eq_or_beyond wider) worked with same | ⟨f, beyond, rfl⟩
      · rw [worked, same]
        exact .inl rfl
      · rw [worked]
        exact .inr ⟨f, beyond, rfl⟩

/-- Wider limits do not change a graph that was composed. -/
theorem direct_of_wider (wider : limits.AtMost wide) (composed : direct limits p = .ok g) :
    direct wide p = .ok g := by
  rcases direct_eq_or_beyond wider p with same | ⟨f, _, failed⟩
  · exact same.trans composed
  · cases failed.symm.trans composed

/-- Compositions that succeed within different limits are the same. -/
theorem direct_eq_of_ok {limits' : Limits} {g' : Graph} (composed : direct limits p = .ok g)
    (composed' : direct limits' p = .ok g') : g = g' := by
  have first := direct_of_wider (limits.atMost_either_left limits') composed
  have second := direct_of_wider (limits.atMost_either_right limits') composed'
  exact Except.ok.inj (first.symm.trans second)

/-- Every node is that of a task. -/
theorem Direct.Composed.length_nodes_le (composed : Composed p g) :
    g.nodes.length ≤ p.tasks.size := by
  have known : g.ids ⊆ p.tasks.names := by
    intro t inside
    obtain ⟨σ, arrives⟩ := composed.arrives t inside
    exact arrives.mem p.network_among
  have length := (composed.coherent.unique.subperm known).length_le
  have size : p.tasks.names.length = p.tasks.size := List.length_map _
  rwa [size, Graph.ids, List.length_map] at length

/-- A graph that is composed has no more nodes than the limits allow tasks, and none behind more forks
than they allow. -/
theorem direct_within (composed : direct limits p = .ok g) :
    g.nodes.length ≤ limits.maxTasks ∧ ∀ n ∈ g.nodes, n.splits.length ≤ limits.maxSplitDepth := by
  constructor
  · have room : ¬limits.maxTasks < p.tasks.size := by
      intro many
      unfold direct at composed
      rw [if_pos many] at composed
      cases composed
    have length := (composed_of_direct composed).length_nodes_le
    omega
  · obtain ⟨s, run, _, rfl⟩ := exists_runs_of_direct composed
    exact (shallow_of_runs run).nodes

end Composition

end Workflow
