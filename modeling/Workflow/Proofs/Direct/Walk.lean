import Workflow.Composition.Direct
import Workflow.Proofs.Graph.Transitions
import Workflow.Proofs.Plan.Network
import Workflow.Proofs.Worklist

/-!
The walk of the direct composition. In every state the graph holds tasks that the network arrives at,
and each of them is either settled, with the attributes of the task and the transitions of all its
links, or to be visited yet.
-/

namespace Workflow.Composition.Direct

open Workflow.Graph

variable {p : Plan} {limits : Limits} {t : String} {σ : List String} {splits : List Split}
  {s s' : State} {l : Plan.Link} {todo : List (String × Plan.Link)}

/-- The node has the attributes of its task, and the forks of one of the arrivals at it, if any. -/
structure Stamped (p : Plan) (n : Node) : Prop where
  task : ∃ task, p.tasks.get? n.id = some task ∧ n.barrier = task.join ∧ n.retry = task.retry
  splits : n.splits = [] ∨
    ∃ σ, p.network.Arrives n.id σ ∧ splitTasks n.splits = p.network.behind n.id σ

/-- The transition of a link is there, unless the link leads to a command. -/
def Followed (g : Graph) (t : String) (l : Plan.Link) : Prop :=
  isReserved l.task = false → g.Leads t l.task l.condition.toList

/-- The node is stamped, and its links are followed, apart from those still to do. -/
def Settled (p : Plan) (todo : List (String × Plan.Link)) (g : Graph) (n : Node) : Prop :=
  Stamped p n ∧ ∀ l ∈ p.next n.id, (n.id, l) ∈ todo ∨ Followed g n.id l

/-- What holds throughout the walk, with some links of visited tasks still to do. -/
structure Walked (p : Plan) (todo : List (String × Plan.Link)) (s : State) : Prop where
  coherent : s.graph.Coherent
  nodes : ∀ n ∈ s.graph.nodes, n.name = n.id ∧ ∃ σ, p.network.Arrives n.id σ
  edges : ∀ e ∈ s.graph.edges, ∃ l ∈ p.next e.source,
    isReserved l.task = false ∧ l.task = e.destination ∧ l.condition.toList = e.criteria
  unique : s.queued.Nodup
  arrive : ∀ a ∈ s.queued, p.network.Arrives a.1 a.2
  queue : ∀ v ∈ s.queue, v.key ∈ s.queued
  starts : ∀ t ∈ p.starts, (t, []) ∈ s.queued
  visited : ∀ a ∈ s.queued, (∃ v ∈ s.queue, v.key = a) ∨
    ∃ n ∈ s.graph.nodes, n.id = a.1 ∧ Settled p todo s.graph n
  settled : ∀ n ∈ s.graph.nodes, Settled p todo s.graph n ∨
    n = .ofId n.id ∧ ∃ v ∈ s.queue, v.task = n.id

theorem walked_start (p : Plan) : Walked p [] (.start p) := by
  have keys : (State.start p).queued = p.starts.map fun name => (name, []) := by
    simp [State.start, Visit.key, splitTasks]
  have listed : ∀ a ∈ (State.start p).queued, ∃ t ∈ p.starts, a = (t, []) := by
    intro a inside
    rw [keys] at inside
    obtain ⟨t, first, rfl⟩ := List.mem_map.mp inside
    exact ⟨t, first, rfl⟩
  refine ⟨coherent_empty, nofun, nofun, ?_, ?_, ?_, ?_, ?_, nofun⟩
  · rw [keys]
    exact p.starts_nodup.map fun a b same => (Prod.mk.inj same).1
  · intro a inside
    obtain ⟨t, first, rfl⟩ := listed a inside
    exact .start first
  · exact fun v waiting => List.mem_map.mpr ⟨v, waiting, rfl⟩
  · intro t first
    rw [keys]
    exact List.mem_map.mpr ⟨t, first, rfl⟩
  · exact fun a inside => .inl (List.mem_map.mp inside)

theorem Settled.mono {g g' : Graph} {n : Node} {todo' : List (String × Plan.Link)}
    (settled : Settled p todo g n)
    (kept : ∀ l ∈ p.next n.id, (n.id, l) ∈ todo ∨ Followed g n.id l →
      (n.id, l) ∈ todo' ∨ Followed g' n.id l) : Settled p todo' g' n :=
  ⟨settled.1, fun l link => kept l link (settled.2 l link)⟩

/-- An arrival that was not queued before is queued once; nothing else changes. -/
theorem arrive_cases (s : State) (v : Visit) :
    v.key ∈ s.queued ∧ s.arrive v = s ∨
      v.key ∉ s.queued ∧ s.arrive v = ⟨s.graph, s.queue ++ [v], v.key :: s.queued⟩ := by
  unfold State.arrive
  by_cases known : v.key ∈ s.queued
  · exact .inl ⟨known, if_pos (List.contains_iff_mem.mpr known)⟩
  · exact .inr ⟨known, if_neg (by rwa [List.contains_iff_mem])⟩

/-- Following a link, case by case: to a command, to nowhere, and to a task, which is arrived at
unless it lies on a cycle and has a node already. -/
theorem follow_cases (coherent : s.graph.Coherent) (t : String) (splits : List Split)
    (l : Plan.Link) :
    isReserved l.task = true ∧ follow p t splits s l = .ok s ∨
    isReserved l.task = false ∧ l.task ∉ p.tasks.names ∧
      follow p t splits s l = .error (.unknownTask l.task t) ∨
    isReserved l.task = false ∧ l.task ∈ p.tasks.names ∧
      ∃ g, Ensures s.graph t l.task l.condition.toList (some l.ordinal) g ∧
        follow p t splits s l = .ok (if s.graph.contains l.task && p.inCycle l.task then
          { s with graph := g } else { s with graph := g }.arrive ⟨l.task, splits⟩) := by
  unfold follow
  cases reserved : isReserved l.task with
  | true => exact .inl ⟨rfl, rfl⟩
  | false =>
    by_cases known : l.task ∈ p.tasks.names
    · obtain ⟨g, added, ensures⟩ :=
        ensureTransition_ok coherent t l.task l.condition.toList (some l.ordinal)
      refine .inr (.inr ⟨rfl, known, g, ensures, ?_⟩)
      simp [Table.contains_iff.mpr known, addLink, added]
    · have missing : p.tasks.contains l.task = false := by
        rw [← Bool.not_eq_true, Table.contains_iff]
        exact known
      exact .inr (.inl ⟨rfl, known, by simp [missing]⟩)

/-- A link to a command leaves nothing to do. -/
private theorem Walked.skip (walked : Walked p ((t, l) :: todo) s)
    (reserved : isReserved l.task = true) : Walked p todo s := by
  have kept : ∀ n, Settled p ((t, l) :: todo) s.graph n → Settled p todo s.graph n := by
    intro n settled
    refine settled.mono fun k _ held => ?_
    rcases held with open_ | followed
    · rcases List.mem_cons.mp open_ with same | later
      · obtain ⟨_, rfl⟩ := Prod.mk.inj same
        exact .inr fun plain => absurd (reserved.symm.trans plain) Bool.noConfusion
      · exact .inl later
    · exact .inr followed
  refine { walked with visited := ?_, settled := ?_ }
  · intro a inside
    exact (walked.visited a inside).imp_right fun ⟨n, known, named, settled⟩ =>
      ⟨n, known, named, kept n settled⟩
  · exact fun n inside => (walked.settled n inside).imp_left (kept n)

/-- A link to a task leaves one transition more; the task may be new, and then is to be visited. -/
private theorem Walked.link {g : Graph} (walked : Walked p ((t, l) :: todo) s) (known : t ∈ s.graph.ids)
    (link : l ∈ p.next t) (plain : isReserved l.task = false) (defined : l.task ∈ p.tasks.names)
    (arrives : p.network.Arrives t σ)
    (ensures : Ensures s.graph t l.task l.condition.toList (some l.ordinal) g)
    (queue : List Visit) (queued : List (String × List String))
    (unique : queued.Nodup) (arrive : ∀ a ∈ queued, p.network.Arrives a.1 a.2)
    (waiting : ∀ v ∈ queue, v.key ∈ queued) (kept_queue : s.queue ⊆ queue)
    (kept_queued : s.queued ⊆ queued)
    (fresh : ∀ a ∈ queued, a ∈ s.queued ∨ ∃ v ∈ queue, v.key = a)
    (new : l.task ∉ s.graph.ids → ∃ v ∈ queue, v.task = l.task) :
    Walked p todo ⟨g, queue, queued⟩ := by
  have nodes : ∀ n, n ∈ g.nodes ↔ n ∈ s.graph.nodes ∨ l.task ∉ s.graph.ids ∧ n = .ofId l.task := by
    intro n
    rw [ensures.nodes, ensure_of_mem known, mem_ensure]
  have kept : ∀ n, Settled p ((t, l) :: todo) s.graph n → Settled p todo g n := by
    intro n settled
    refine settled.mono fun k _ held => ?_
    rcases held with open_ | followed
    · rcases List.mem_cons.mp open_ with same | later
      · obtain ⟨rfl, rfl⟩ := Prod.mk.inj same
        exact .inr fun _ => ensures.leads
      · exact .inl later
    · exact .inr fun plain => ensures.kept (followed plain)
  have leads : p.network.leads t l.task := ⟨List.mem_map.mpr ⟨l, link, rfl⟩, defined⟩
  refine ⟨ensures.coherent, ?_, ?_, unique, arrive, waiting,
    fun t first => kept_queued (walked.starts t first), ?_, ?_⟩
  · intro n inside
    rcases (nodes n).mp inside with old | ⟨_, rfl⟩
    · exact walked.nodes n old
    · exact ⟨rfl, _, .follow arrives leads⟩
  · intro e inside
    rcases ensures.known e inside with old | ⟨rfl, target, criteria, _⟩
    · exact walked.edges e old
    · exact ⟨l, link, plain, target.symm, criteria.symm⟩
  · intro a inside
    rcases fresh a inside with old | pending
    · rcases walked.visited a old with ⟨v, before, same⟩ | ⟨n, before, named, settled⟩
      · exact .inl ⟨v, kept_queue before, same⟩
      · exact .inr ⟨n, (nodes n).mpr (.inl before), named, kept n settled⟩
    · exact .inl pending
  · intro n inside
    rcases (nodes n).mp inside with old | ⟨missing, rfl⟩
    · rcases walked.settled n old with settled | ⟨blank, v, before, same⟩
      · exact .inl (kept n settled)
      · exact .inr ⟨blank, v, kept_queue before, same⟩
    · exact .inr ⟨rfl, new missing⟩

/-- A link to a task that lies behind forks that it was not arrived at behind before. -/
private theorem Walked.linkAnew {g : Graph} (walked : Walked p ((t, l) :: todo) s)
    (known : t ∈ s.graph.ids) (link : l ∈ p.next t) (plain : isReserved l.task = false)
    (defined : l.task ∈ p.tasks.names) (arrives : p.network.Arrives t σ)
    (forks : splitTasks splits = p.network.behind t σ)
    (ensures : Ensures s.graph t l.task l.condition.toList (some l.ordinal) g)
    (new : (l.task, splitTasks splits) ∉ s.queued) :
    Walked p todo ⟨g, s.queue ++ [⟨l.task, splits⟩], (l.task, splitTasks splits) :: s.queued⟩ := by
  have leads : p.network.leads t l.task := ⟨List.mem_map.mpr ⟨l, link, rfl⟩, defined⟩
  have next := arrives.follow leads
  rw [← forks] at next
  have last : (⟨l.task, splits⟩ : Visit) ∈ s.queue ++ [⟨l.task, splits⟩] :=
    List.mem_append_right _ List.mem_cons_self
  refine walked.link known link plain defined arrives ensures _ _
    (List.nodup_cons.mpr ⟨new, walked.unique⟩) ?_ ?_ (List.subset_append_left _ _)
    (List.subset_cons_self _ _) ?_ (fun _ => ⟨_, last, rfl⟩)
  · intro a inside
    rcases List.mem_cons.mp inside with rfl | old
    · exact next
    · exact walked.arrive a old
  · intro v inside
    rcases List.mem_append.mp inside with old | last
    · exact List.mem_cons_of_mem _ (walked.queue v old)
    · rw [List.mem_singleton.mp last]
      exact List.mem_cons_self
  · intro a inside
    rcases List.mem_cons.mp inside with rfl | old
    · exact .inr ⟨_, last, rfl⟩
    · exact .inl old

/-- What following links does to the state, apart from the graph: every arrival that is queued is
new. -/
def Grown (s s' : State) : Prop :=
  s.graph.ids ⊆ s'.graph.ids ∧
    s'.queue.length + s.queued.length = s.queue.length + s'.queued.length

/-- Following one link keeps what holds throughout the walk, with one link less to do. -/
theorem Walked.follow (walked : Walked p ((t, l) :: todo) s) (known : t ∈ s.graph.ids)
    (link : l ∈ p.next t) (arrives : p.network.Arrives t σ)
    (forks : splitTasks splits = p.network.behind t σ) (ok : follow p t splits s l = .ok s') :
    Walked p todo s' ∧ Grown s s' := by
  rcases follow_cases walked.coherent t splits l with
    ⟨reserved, skipped⟩ | ⟨_, _, failed⟩ | ⟨plain, defined, g, ensures, followed⟩
  · cases Except.ok.inj (skipped.symm.trans ok)
    exact ⟨walked.skip reserved, List.Subset.refl _, rfl⟩
  · rw [failed] at ok
    cases ok
  · have ids : s.graph.ids ⊆ g.ids := by
      intro id inside
      unfold ids
      rw [ensures.nodes]
      exact mem_ids_ensure.mpr (.inl (mem_ids_ensure.mpr (.inl inside)))
    -- An arrival that was queued before is in the queue, or was made: then the task has a node.
    have seen : (l.task, splitTasks splits) ∈ s.queued → l.task ∉ s.graph.ids →
        ∃ v ∈ s.queue, v.task = l.task := by
      intro before missing
      rcases walked.visited _ before with ⟨v, waiting, same⟩ | ⟨n, inside, named, _⟩
      · exact ⟨v, waiting, congrArg Prod.fst same⟩
      · exact absurd (mem_ids_iff.mpr ⟨n, inside, named⟩) missing
    have same := Except.ok.inj (followed.symm.trans ok)
    have stay : (l.task ∉ s.graph.ids → ∃ v ∈ s.queue, v.task = l.task) →
        Walked p todo { s with graph := g } := fun new =>
      walked.link known link plain defined arrives ensures s.queue s.queued walked.unique
        walked.arrive walked.queue (List.Subset.refl _) (List.Subset.refl _) (fun a => .inl) new
    split at same
    next again =>
      subst same
      rw [Bool.and_eq_true, contains_iff] at again
      exact ⟨stay fun missing => absurd again.1 missing, ids, rfl⟩
    next =>
      subst same
      rcases arrive_cases { s with graph := g } ⟨l.task, splits⟩ with ⟨before, as_is⟩ | ⟨new, added⟩
      · rw [as_is]
        exact ⟨stay (seen before), ids, rfl⟩
      · rw [added]
        refine ⟨walked.linkAnew known link plain defined arrives forks ensures new, ids, ?_⟩
        simp only [List.length_append, List.length_cons, List.length_nil]
        omega

theorem Grown.trans {s'' : State} (first : Grown s s') (second : Grown s' s'') : Grown s s'' := by
  refine ⟨List.Subset.trans first.1 second.1, ?_⟩
  have := first.2
  have := second.2
  omega

/-- Following the links of a task leaves none to do. -/
theorem Walked.followAll {ls : List Plan.Link}
    (walked : Walked p (ls.map fun l => (t, l)) s) (known : t ∈ s.graph.ids)
    (links : ls ⊆ p.next t) (arrives : p.network.Arrives t σ)
    (forks : splitTasks splits = p.network.behind t σ) (ok : followAll p t splits s ls = .ok s') :
    Walked p [] s' ∧ Grown s s' := by
  induction ls generalizing s with
  | nil =>
    cases Except.ok.inj ok
    exact ⟨walked, List.Subset.refl _, rfl⟩
  | cons l ls ih =>
    obtain ⟨link, others⟩ := List.cons_subset.mp links
    unfold Direct.followAll at ok
    split at ok
    next => cases ok
    next s₁ followed =>
      obtain ⟨walked₁, grown⟩ := walked.follow known link arrives forks followed
      obtain ⟨walked', grown'⟩ := ih walked₁ (grown.1 known) others ok
      exact ⟨walked', grown.trans grown'⟩

/-- Following links fails only where one leads to nowhere. -/
theorem Walked.followAll_error {ls : List Plan.Link} {f : Failure}
    (walked : Walked p (ls.map fun l => (t, l)) s) (known : t ∈ s.graph.ids)
    (links : ls ⊆ p.next t) (arrives : p.network.Arrives t σ)
    (forks : splitTasks splits = p.network.behind t σ)
    (failed : Direct.followAll p t splits s ls = .error f) :
    ∃ l ∈ p.next t, isReserved l.task = false ∧ l.task ∉ p.tasks.names ∧
      f = .unknownTask l.task t := by
  induction ls generalizing s with
  | nil => cases failed
  | cons l ls ih =>
    obtain ⟨link, others⟩ := List.cons_subset.mp links
    unfold Direct.followAll at failed
    split at failed
    next f' first =>
      rcases follow_cases walked.coherent t splits l with
        ⟨_, skipped⟩ | ⟨plain, nowhere, stops⟩ | ⟨_, _, g, _, followed⟩
      · rw [skipped] at first
        cases first
      · rw [stops] at first
        cases first
        cases failed
        exact ⟨l, link, plain, nowhere, rfl⟩
      · rw [followed] at first
        cases first
    next s₁ followed =>
      obtain ⟨walked₁, grown⟩ := walked.follow known link arrives forks followed
      exact ih walked₁ (grown.1 known) others failed

theorem splitTasks_extended (p : Plan) (v : Visit) :
    splitTasks (extended p v) = p.network.behind v.task (splitTasks v.splits) := by
  have fork : isFork p v.task = p.network.forks v.task := rfl
  unfold extended Network.behind
  rw [fork]
  split
  next => simp [splitTasks]
  next => rfl

/-- The node of a task that is visited. -/
private theorem stamped_merge {task : Plan.Task} {v : Visit} {n : Node}
    (found : p.tasks.get? v.task = some task)
    (arrives : p.network.Arrives v.task (splitTasks v.splits)) (named : n.id = v.task)
    (before : Stamped p n ∨ n = .ofId n.id) :
    Stamped p (n.merge (attributes task (extended p v))) := by
  have old : (n.barrier = task.join ∧ n.retry = task.retry) ∨
      n.barrier = none ∧ n.retry = none := by
    rcases before with stamped | blank
    · obtain ⟨task', found', barrier, retry⟩ := stamped.task
      rw [named, found] at found'
      cases found'
      exact .inl ⟨barrier, retry⟩
    · rw [blank]
      exact .inr ⟨rfl, rfl⟩
  constructor
  · refine ⟨task, by rw [merge_id, named, found], ?_⟩
    simp only [Node.merge, attributes]
    rcases old with ⟨barrier, retry⟩ | ⟨barrier, retry⟩
    · rw [barrier, retry]
      cases task.join <;> cases task.retry <;> exact ⟨rfl, rfl⟩
    · rw [barrier, retry]
      cases task.join <;> cases task.retry <;> exact ⟨rfl, rfl⟩
  · rw [merge_id]
    have forks := splitTasks_extended p v
    cases splits : extended p v with
    | nil =>
      have kept : (n.merge (attributes task [])).splits = n.splits := rfl
      rw [kept]
      rcases before with stamped | blank
      · exact stamped.splits
      · rw [blank]
        exact .inl rfl
    | cons a as =>
      rw [splits] at forks
      rw [named]
      exact .inr ⟨_, arrives, forks⟩

/-- An arrival is taken out of the queue; its task is stamped, and all its links are to do. -/
theorem Walked.enter {v : Visit} {queue : List Visit} {task : Plan.Task} (walked : Walked p [] s)
    (next : s.queue = v :: queue) (found : p.tasks.get? v.task = some task) :
    Walked p ((p.next v.task).map fun l => (v.task, l))
      ⟨s.graph.addTask v.task (attributes task (extended p v)), queue, s.queued⟩ := by
  have head : v ∈ s.queue := next ▸ List.mem_cons_self
  have arrives : p.network.Arrives v.task (splitTasks v.splits) :=
    walked.arrive _ (walked.queue v head)
  have later : ∀ w ∈ s.queue, w.task ≠ v.task → w ∈ queue := by
    intro w waiting other
    rw [next] at waiting
    rcases List.mem_cons.mp waiting with rfl | waiting
    · exact absurd rfl other
    · exact waiting
  have entered : ∀ m, s.graph.Before v.task m →
      Settled p ((p.next v.task).map fun l => (v.task, l))
        (s.graph.addTask v.task (attributes task (extended p v)))
        (m.merge (attributes task (extended p v))) := by
    intro m before
    refine ⟨stamped_merge found arrives before.named ?_, ?_⟩
    · rcases before with ⟨inside, _⟩ | ⟨_, rfl⟩
      · exact (walked.settled m inside).imp And.left And.left
      · exact .inr rfl
    · intro l link
      rw [merge_id, before.named] at link ⊢
      exact .inl (List.mem_map.mpr ⟨l, link, rfl⟩)
  have others : ∀ n, Settled p [] s.graph n →
      Settled p ((p.next v.task).map fun l => (v.task, l))
        (s.graph.addTask v.task (attributes task (extended p v))) n := by
    intro n settled
    refine settled.mono fun l _ held => .inr fun plain => ?_
    rcases held with open_ | followed
    · cases open_
    · unfold Leads
      rw [edges_addTask]
      exact followed plain
  obtain ⟨m, before⟩ := exists_before s.graph v.task
  refine ⟨walked.coherent.addTask _ _, ?_, ?_, walked.unique, walked.arrive,
    fun w waiting => walked.queue w (next ▸ List.mem_cons_of_mem v waiting), walked.starts, ?_, ?_⟩
  · intro n inside
    rcases mem_addTask.mp inside with ⟨old, _⟩ | ⟨m, before, rfl⟩
    · exact walked.nodes n old
    · rw [merge_id, before.named]
      refine ⟨?_, _, arrives⟩
      rcases before with ⟨old, named⟩ | ⟨_, rfl⟩
      · exact (walked.nodes m old).1.trans named
      · rfl
  · intro e inside
    rw [edges_addTask] at inside
    exact walked.edges e inside
  · intro a inside
    by_cases same : a.1 = v.task
    · refine .inr ⟨_, mem_addTask.mpr (.inr ⟨m, before, rfl⟩), ?_, entered m before⟩
      rw [merge_id, before.named, same]
    · rcases walked.visited a inside with ⟨w, waiting, rfl⟩ | ⟨n, old, named, settled⟩
      · exact .inl ⟨w, later w waiting same, rfl⟩
      · exact .inr ⟨n, mem_addTask.mpr (.inl ⟨old, named ▸ same⟩), named, others n settled⟩
  · intro n inside
    rcases mem_addTask.mp inside with ⟨old, other⟩ | ⟨m, before, rfl⟩
    · rcases walked.settled n old with settled | ⟨blank, w, waiting, same⟩
      · exact .inl (others n settled)
      · exact .inr ⟨blank, w, later w waiting (same ▸ other), same⟩
    · exact .inl (entered m before)

end Workflow.Composition.Direct
