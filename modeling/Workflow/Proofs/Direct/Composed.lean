import Workflow.Proofs.Direct.Walk
import Workflow.Proofs.Inspection.Structure
import Workflow.Proofs.Results

/-!
What the direct composition makes: a graph of all tasks that the network of the plan arrives at, with
the transitions of their links.
-/

namespace Workflow.Composition.Direct

open Workflow.Graph

variable {p : Plan} {limits : Limits} {s s' : State}

/-- A visit to a task that is defined stamps its node and follows its links. -/
theorem visit_eq {v : Visit} {task : Plan.Task} (found : p.tasks.get? v.task = some task) :
    visit p limits s v =
      if isFork p v.task && limits.maxSplitDepth < (extended p v).length then
        .error (.beyond limits .splitDepth)
      else
        followAll p v.task (extended p v)
          { s with graph := s.graph.addTask v.task (attributes task (extended p v)) }
          (p.next v.task) := by
  unfold visit
  rw [found]

theorem step_of_nil (done : s.queue = []) : step p limits s = .ok none := by
  unfold step
  rw [done]

theorem step_of_cons {v : Visit} {queue : List Visit} (next : s.queue = v :: queue) :
    step p limits s = (visit p limits { s with queue := queue } v).map some := by
  unfold step
  rw [next]

theorem queue_eq_nil_of_step (done : step p limits s = .ok none) : s.queue = [] := by
  cases next : s.queue with
  | nil => rfl
  | cons v queue =>
    rw [step_of_cons next] at done
    exact absurd done map_some_ne_ok_none

/-- Only tasks that are defined are visited. -/
theorem Walked.defined {v : Visit} {queue : List Visit} (walked : Walked p [] s)
    (next : s.queue = v :: queue) :
    p.network.Arrives v.task (splitTasks v.splits) ∧
      ∃ task, p.tasks.get? v.task = some task := by
  have arrives : p.network.Arrives v.task (splitTasks v.splits) :=
    walked.arrive _ (walked.queue v (next ▸ List.mem_cons_self))
  exact ⟨arrives, Table.mem_names_iff.mp (arrives.mem p.network_among)⟩

/-- A step visits the first task of the queue, and follows its links. -/
theorem takes_cases (walked : Walked p [] s) (taken : Takes (step p limits) s s') :
    ∃ v queue task, s.queue = v :: queue ∧ p.tasks.get? v.task = some task ∧
      followAll p v.task (extended p v)
        ⟨s.graph.addTask v.task (attributes task (extended p v)), queue, s.queued⟩
        (p.next v.task) = .ok s' := by
  unfold Takes at taken
  cases next : s.queue with
  | nil =>
    rw [step_of_nil next] at taken
    cases taken
  | cons v queue =>
    obtain ⟨_, task, found⟩ := walked.defined next
    rw [step_of_cons next, map_some_eq_ok_iff, visit_eq found] at taken
    refine ⟨v, queue, task, rfl, found, ?_⟩
    split at taken
    next => cases taken
    next => exact taken

theorem mem_ids_visited {v : Visit} {a : Attributes} : v.task ∈ (s.graph.addTask v.task a).ids :=
  mem_ids_addTask.mpr (.inr rfl)

/-- What holds throughout the walk is kept by one visit, after which no links are left to do. -/
theorem Walked.takes (walked : Walked p [] s) (taken : Takes (step p limits) s s') :
    Walked p [] s' := by
  obtain ⟨v, queue, task, next, found, followed⟩ := takes_cases walked taken
  have arrives := (walked.defined next).1
  exact ((walked.enter next found).followAll mem_ids_visited (List.Subset.refl _) arrives
    (splitTasks_extended p v) followed).1

theorem walked_of_runs (run : Runs (step p limits) (.start p) s) : Walked p [] s :=
  run.preserves (fun _ _ => Walked.takes) (walked_start p)

/-- How many arrivals are to come at most. -/
def remaining (p : Plan) (s : State) : Nat :=
  (p.tasks.size + 1) ^ (p.tasks.size + 2) - s.queued.length + s.queue.length

/-- Arrivals are behind different forks in a row, so there are finitely many. -/
theorem Walked.length_queued_le {todo : List (String × Plan.Link)} (walked : Walked p todo s) :
    s.queued.length ≤ (p.tasks.size + 1) ^ (p.tasks.size + 2) := by
  have bound := Network.arrivals_length_le p.network_acyclic p.network_among walked.unique
    walked.arrive
  have size : p.tasks.names.length = p.tasks.size := List.length_map _
  rwa [size] at bound

/-- Each visit takes an arrival that never comes again. -/
theorem Walked.remaining_lt (walked : Walked p [] s) (taken : Takes (step p limits) s s') :
    remaining p s' < remaining p s := by
  have room := (walked.takes taken).length_queued_le
  obtain ⟨v, queue, task, next, found, followed⟩ := takes_cases walked taken
  have arrives := (walked.defined next).1
  have grown := ((walked.enter next found).followAll mem_ids_visited (List.Subset.refl _) arrives
    (splitTasks_extended p v) followed).2.2
  have room' := walked.length_queued_le
  unfold remaining
  rw [next, List.length_cons]
  generalize (p.tasks.size + 1) ^ (p.tasks.size + 2) = bound at room room' ⊢
  dsimp only at grown
  omega

/-- A step fails beyond the limit of forks, or where a link leads to nowhere. -/
theorem Walked.step_error {f : Failure} (walked : Walked p [] s)
    (failed : step p limits s = .error f) :
    f = .beyond limits .splitDepth ∨
      ∃ t, ∃ l ∈ p.next t, isReserved l.task = false ∧ l.task ∉ p.tasks.names ∧
        f = .unknownTask l.task t := by
  cases next : s.queue with
  | nil =>
    rw [step_of_nil next] at failed
    cases failed
  | cons v queue =>
    obtain ⟨arrives, task, found⟩ := walked.defined next
    rw [step_of_cons next, map_eq_error_iff, visit_eq found] at failed
    split at failed
    next =>
      cases failed
      exact .inl rfl
    next =>
      exact .inr ⟨v.task, (walked.enter next found).followAll_error mem_ids_visited
        (List.Subset.refl _) arrives (splitTasks_extended p v) failed⟩

/-- The graph of the tasks that the network arrives at. -/
structure Composed (p : Plan) (g : Graph) : Prop where
  coherent : g.Coherent
  nodes : ∀ n ∈ g.nodes, n.name = n.id ∧ Stamped p n
  edges : ∀ e ∈ g.edges, ∃ l ∈ p.next e.source,
    isReserved l.task = false ∧ l.task = e.destination ∧ l.condition.toList = e.criteria
  followed : ∀ t ∈ g.ids, ∀ l ∈ p.next t, Followed g t l
  arrives : ∀ t ∈ g.ids, ∃ σ, p.network.Arrives t σ
  starts : ∀ t ∈ p.starts, t ∈ g.ids

/-- The transitions of the graph are links of the plan. -/
theorem Composed.leads_of_adjacent {g : Graph} (composed : Composed p g) {t u : String}
    (link : g.Adjacent t u) : p.network.leads t u := by
  obtain ⟨e, inside, rfl, rfl⟩ := link
  obtain ⟨σ, arrives⟩ := composed.arrives _ (composed.coherent.destination_mem e inside)
  obtain ⟨l, known, _, target, _⟩ := composed.edges e inside
  exact ⟨List.mem_map.mpr ⟨l, known, target⟩, arrives.mem p.network_among⟩

/-- Where the walk ends, the graph is the composed one. -/
theorem Walked.composed (walked : Walked p [] s) (done : s.queue = []) : Composed p s.graph := by
  have settled : ∀ n ∈ s.graph.nodes, Settled p [] s.graph n := by
    intro n inside
    rcases walked.settled n inside with settled | ⟨_, v, waiting, _⟩
    · exact settled
    · rw [done] at waiting
      cases waiting
  refine ⟨walked.coherent, fun n inside => ⟨(walked.nodes n inside).1, (settled n inside).1⟩,
    walked.edges, ?_, ?_, ?_⟩
  · intro t known l link
    obtain ⟨n, inside, rfl⟩ := mem_ids_iff.mp known
    rcases (settled n inside).2 l link with open_ | followed
    · cases open_
    · exact followed
  · intro t known
    obtain ⟨n, inside, rfl⟩ := mem_ids_iff.mp known
    exact (walked.nodes n inside).2
  · intro t first
    rcases walked.visited _ (walked.starts t first) with ⟨v, waiting, _⟩ | ⟨n, inside, named, _⟩
    · rw [done] at waiting
      cases waiting
    · exact mem_ids_iff.mpr ⟨n, inside, named⟩

/-- The walk comes to its end: there are steps enough for all arrivals. -/
theorem walk_ends (p : Plan) (limits : Limits) :
    (workOff (step p limits) (maxSteps p) (.start p)).isSome := by
  refine workOff_isSome (remaining p) (fun _ _ => Walked.takes) (fun _ _ => Walked.remaining_lt)
    _ _ (walked_start p) ?_
  have room := (walked_start p).length_queued_le
  have equal : (State.start p).queue.length = (State.start p).queued.length := by
    simp [State.start]
  unfold remaining maxSteps
  rw [Nat.pow_eq, equal]
  omega

end Direct

open Direct

variable {p : Plan} {limits : Limits} {g : Graph}

/-- A composition that succeeds walks to the end of the queue. -/
theorem exists_runs_of_direct (composed : direct limits p = .ok g) :
    ∃ s, Runs (step p limits) (.start p) s ∧ s.queue = [] ∧ s.graph = g := by
  unfold direct at composed
  split at composed
  next => cases composed
  next =>
    split at composed
    next => cases composed
    next =>
      rcases workOff_cases (walk_ends p limits) with ⟨s, worked, run, done⟩ | ⟨f, _, worked, _⟩
      · rw [worked] at composed
        cases composed
        exact ⟨s, run, queue_eq_nil_of_step done, rfl⟩
      · rw [worked] at composed
        cases composed

theorem composed_of_direct (composed : direct limits p = .ok g) : Composed p g := by
  obtain ⟨s, run, done, rfl⟩ := exists_runs_of_direct composed
  exact (walked_of_runs run).composed done

/-- A walk of any number of steps that comes to an end is the one that is taken. -/
theorem direct_eq_of_workOff {n : Nat} {r : Except Failure State}
    (room : p.tasks.size ≤ limits.maxTasks) (some_ : p.starts.isEmpty = false)
    (worked : workOff (step p limits) n (.start p) = some r) :
    direct limits p = r.map State.graph := by
  have worked' := workOff_eq_of_isSome (walk_ends p limits) (Option.isSome_of_eq_some worked)
  unfold direct
  rw [if_neg (Nat.not_lt_of_le room), some_, worked', worked]
  cases r <;> rfl

theorem direct_of_workOff {n : Nat} (room : p.tasks.size ≤ limits.maxTasks)
    (some_ : p.starts.isEmpty = false)
    (worked : (workOff (step p limits) n (.start p)).map (fun r => r.map State.graph) =
      some (.ok g)) : direct limits p = .ok g := by
  obtain ⟨r, worked', same⟩ := Option.map_eq_some_iff.mp worked
  exact (direct_eq_of_workOff room some_ worked').trans same

/-- What comes of a composition: a failure beyond a limit, for want of a start, or at a link to nowhere,
or a graph. -/
theorem direct_outcome (limits : Limits) (p : Plan) :
    (∃ b, direct limits p = .error (.beyond limits b)) ∨
      p.starts = [] ∧ direct limits p = .error .noStartTasks ∨
      p.starts ≠ [] ∧ (∃ t, ∃ l ∈ p.next t, isReserved l.task = false ∧ l.task ∉ p.tasks.names ∧
        direct limits p = .error (.unknownTask l.task t)) ∨
      p.starts ≠ [] ∧ ∃ g, direct limits p = .ok g := by
  unfold direct
  by_cases few : limits.maxTasks < p.tasks.size
  · exact .inl ⟨.tasks, if_pos few⟩
  · rw [if_neg few]
    by_cases none_ : p.starts = []
    · exact .inr (.inl ⟨none_, if_pos (List.isEmpty_iff.mpr none_)⟩)
    · rw [if_neg (by rwa [List.isEmpty_iff])]
      rcases workOff_cases (walk_ends p limits) with ⟨s, worked, _⟩ | ⟨f, s, worked, run, failed⟩
      · rw [worked]
        exact .inr (.inr (.inr ⟨none_, s.graph, rfl⟩))
      · rw [worked]
        rcases (walked_of_runs run).step_error failed with rfl | ⟨t, l, link, plain, nowhere, rfl⟩
        · exact .inl ⟨_, rfl⟩
        · exact .inr (.inr (.inl ⟨none_, t, l, link, plain, nowhere, rfl⟩))

/-- Nothing is arrived at where nothing starts. -/
theorem not_arrives_of_starts_eq_nil (none_ : p.starts = []) {t : String} {σ : List String} :
    ¬p.network.Arrives t σ := by
  intro arrives
  induction arrives with
  | start first =>
    have inside : _ ∈ p.starts := first
    rw [none_] at inside
    cases inside
  | follow _ _ ih => exact ih

open Inspection.Structure (Clean)

/-- A plan without complaints is composed, unless this goes beyond one of the limits. -/
theorem direct_cases (clean : Clean p) (some_ : p.tasks.isEmpty = false) (limits : Limits) :
    (∃ b, direct limits p = .error (.beyond limits b)) ∨ ∃ g, direct limits p = .ok g := by
  rcases direct_outcome limits p with
    beyond | ⟨none_, _⟩ | ⟨_, t, l, link, plain, nowhere, _⟩ | ⟨_, composed⟩
  · exact .inl beyond
  · cases tasks : p.tasks.entries with
    | nil => simp [Table.isEmpty, tasks] at some_
    | cons e entries =>
      have known : e.1 ∈ p.tasks.names := by
        simp [Table.names, tasks]
      obtain ⟨σ, arrives⟩ := clean.reached e.1 known
      exact absurd arrives (not_arrives_of_starts_eq_nil none_)
  · exact absurd (clean.defined t l.task (List.mem_map.mpr ⟨l, link, rfl⟩) plain) nowhere
  · exact .inr composed

end Workflow.Composition
