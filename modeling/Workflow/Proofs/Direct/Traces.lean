import Workflow.Proofs.Direct.Composed
import Workflow.Proofs.ForkChains

/-!
The forks that the direct composition notes at its nodes. A node is given the forks of every visit, but
for those that are behind none, so what counts is what any visit may be behind: the forks on a way along
transitions that have been made by then.
-/

namespace Workflow.Composition.Direct

open Workflow.Graph

variable {p : Plan} {limits : Limits} {g g' : Graph} {s s' : State} {t : String} {σ : List String}
  {splits : List Split} {l : Plan.Link} {todo : List (String × Plan.Link)} {n : Node}

/-- The forks as a direct composition notes them, with all of their branches. -/
def unnumbered (σ : List String) : List Split :=
  σ.map fun f => ⟨f, 0⟩

@[simp] theorem splitTasks_unnumbered (σ : List String) : splitTasks (unnumbered σ) = σ := by
  simp [splitTasks, unnumbered, Function.comp_def]

/-- The network of the transitions that have been made, with the forks of the plan. -/
def passed (p : Plan) (g : Graph) : Network where
  starts t := t ∈ p.starts
  leads := g.Adjacent
  forks := isFork p

theorem extended_unnumbered {v : Visit} (splits : v.splits = unnumbered σ) (g : Graph) :
    extended p v = unnumbered ((passed p g).behind v.task σ) := by
  have fork : (passed p g).forks v.task = isFork p v.task := rfl
  unfold extended Network.behind
  rw [fork, splits]
  split
  next => simp [unnumbered]
  next => rfl

/-- The node is behind the forks on a way to it. -/
def Traces (p : Plan) (g : Graph) (n : Node) : Prop :=
  ∃ σ, (passed p g).Arrives n.id σ ∧ n.splits = unnumbered ((passed p g).behind n.id σ)

/-- More transitions allow more arrivals. -/
theorem passed_mono (kept : ∀ a b, g.Adjacent a b → g'.Adjacent a b)
    (arrives : (passed p g).Arrives t σ) : (passed p g').Arrives t σ := by
  refine Network.Arrives.mono ?_ kept ?_ arrives
  · exact fun _ first => first
  · exact fun _ _ _ => rfl

theorem Traces.mono (kept : ∀ a b, g.Adjacent a b → g'.Adjacent a b) (traces : Traces p g n) :
    Traces p g' n := by
  obtain ⟨σ, arrives, splits⟩ := traces
  exact ⟨σ, passed_mono kept arrives, splits⟩

/-- All visits to come are behind the forks on ways to their tasks; and all nodes are, but for those that
have not been visited yet. -/
structure Traced (p : Plan) (s : State) : Prop where
  queue : ∀ v ∈ s.queue, ∃ σ, (passed p s.graph).Arrives v.task σ ∧ v.splits = unnumbered σ
  nodes : ∀ n ∈ s.graph.nodes,
    Traces p s.graph n ∨ n.splits = [] ∧ ∃ v ∈ s.queue, v.task = n.id

theorem traced_start (p : Plan) : Traced p (.start p) := by
  refine ⟨fun v waiting => ?_, nofun⟩
  obtain ⟨t, first, rfl⟩ := List.mem_map.mp waiting
  exact ⟨[], .start first, rfl⟩

theorem adjacent_of_ensures {source destination : String} {criteria : List String}
    {ordinal : Option Nat} (ensures : Ensures g source destination criteria ordinal g') (a b : String)
    (link : g.Adjacent a b) : g'.Adjacent a b := by
  obtain ⟨e, inside, origin, target⟩ := link
  exact (ensures.kept ⟨e, inside, origin, target, rfl⟩).adjacent

/-- A transition is made to the task of a link; what is queued with it is behind the forks on the ways out
of the task before it. -/
private theorem Traced.link (traced : Traced p s) (known : t ∈ s.graph.ids)
    (arrives : (passed p s.graph).Arrives t σ)
    (ensures : Ensures s.graph t l.task l.condition.toList (some l.ordinal) g)
    {queue : List Visit} {queued : List (String × List String)} (kept : s.queue ⊆ queue)
    (fresh : ∀ v ∈ queue, v ∈ s.queue ∨
      v = ⟨l.task, unnumbered ((passed p s.graph).behind t σ)⟩)
    (new : l.task ∉ s.graph.ids → ∃ v ∈ queue, v.task = l.task) : Traced p ⟨g, queue, queued⟩ := by
  have more := adjacent_of_ensures ensures
  refine ⟨fun v waiting => ?_, fun n inside => ?_⟩
  · rcases fresh v waiting with old | rfl
    · obtain ⟨τ, arrives', splits⟩ := traced.queue v old
      exact ⟨τ, passed_mono more arrives', splits⟩
    · exact ⟨_, (passed_mono more arrives).follow ensures.leads.adjacent, rfl⟩
  · dsimp only at inside
    rw [ensures.nodes, ensure_of_mem known, mem_ensure] at inside
    rcases inside with old | ⟨missing, rfl⟩
    · rcases traced.nodes n old with traces | ⟨none_, v, waiting, same⟩
      · exact .inl (traces.mono more)
      · exact .inr ⟨none_, v, kept waiting, same⟩
    · exact .inr ⟨rfl, new missing⟩

/-- Following one link keeps the forks traced. -/
theorem Traced.follow (traced : Traced p s) (walked : Walked p ((t, l) :: todo) s)
    (known : t ∈ s.graph.ids) (arrives : (passed p s.graph).Arrives t σ)
    (followed : follow p t (unnumbered ((passed p s.graph).behind t σ)) s l = .ok s') :
    Traced p s' ∧ ∀ a b, s.graph.Adjacent a b → s'.graph.Adjacent a b := by
  rcases follow_cases walked.coherent t (unnumbered ((passed p s.graph).behind t σ)) l with
    ⟨_, skipped⟩ | ⟨_, _, failed⟩ | ⟨_, _, g, ensures, done⟩
  · cases skipped.symm.trans followed
    exact ⟨traced, fun _ _ => id⟩
  · cases failed.symm.trans followed
  · have more := adjacent_of_ensures ensures
    have stay : (l.task ∉ s.graph.ids → ∃ v ∈ s.queue, v.task = l.task) →
        Traced p { s with graph := g } := fun new =>
      traced.link known arrives ensures (List.Subset.refl _) (fun _ => .inl) new
    have same := Except.ok.inj (done.symm.trans followed)
    split at same
    next again =>
      subst same
      rw [Bool.and_eq_true, contains_iff] at again
      exact ⟨stay fun missing => absurd again.1 missing, more⟩
    next =>
      subst same
      rcases arrive_cases { s with graph := g } ⟨l.task, _⟩ with ⟨before, as_is⟩ | ⟨_, added⟩
      · -- What was queued before waits yet, or its task has been visited and has a node.
        rw [as_is]
        refine ⟨stay fun missing => ?_, more⟩
        rcases walked.visited _ before with ⟨v, waiting, same⟩ | ⟨n, inside, named, _⟩
        · exact ⟨v, waiting, congrArg Prod.fst same⟩
        · exact absurd (mem_ids_iff.mpr ⟨n, inside, named⟩) missing
      · rw [added]
        have last := List.mem_append_right s.queue (List.mem_singleton_self
          (⟨l.task, unnumbered ((passed p s.graph).behind t σ)⟩ : Visit))
        refine ⟨traced.link known arrives ensures (List.subset_append_left _ _) (fun v waiting => ?_)
          fun _ => ⟨_, last, rfl⟩, more⟩
        exact (List.mem_append.mp waiting).imp_right List.mem_singleton.mp

theorem Traced.followAll {ls : List Plan.Link} (traced : Traced p s)
    (walked : Walked p (ls.map fun l => (t, l)) s) (known : t ∈ s.graph.ids) (links : ls ⊆ p.next t)
    (arrives : (passed p s.graph).Arrives t σ) (arrives' : p.network.Arrives t σ)
    (followed : followAll p t (unnumbered ((passed p s.graph).behind t σ)) s ls = .ok s') :
    Traced p s' := by
  induction ls generalizing s with
  | nil =>
    cases followed
    exact traced
  | cons l ls ih =>
    obtain ⟨link, others⟩ := List.cons_subset.mp links
    unfold Direct.followAll at followed
    split at followed
    next => cases followed
    next s₁ first =>
      obtain ⟨traced₁, more⟩ := traced.follow walked known arrives first
      obtain ⟨walked₁, grown⟩ :=
        walked.follow known link arrives' (splitTasks_unnumbered _) first
      exact ih traced₁ walked₁ (grown.1 known) others (passed_mono more arrives) followed

/-- A node gets the forks of a visit, or keeps its own where the visit is behind none. -/
theorem traces_merge {v : Visit} {task : Plan.Task} (named : n.id = v.task)
    (before : Traces p g n ∨ n.splits = []) (arrives : (passed p g).Arrives v.task σ)
    (splits : v.splits = unnumbered σ) : Traces p g (n.merge (attributes task (extended p v))) := by
  have forks : extended p v = unnumbered ((passed p g).behind n.id σ) :=
    named ▸ extended_unnumbered splits g
  rw [← named] at arrives
  cases given : extended p v with
  | nil =>
    have kept : (n.merge (attributes task [])).splits = n.splits := rfl
    rcases before with ⟨τ, arrives', own⟩ | none_
    · exact ⟨τ, arrives', kept.trans own⟩
    · exact ⟨σ, arrives, (kept.trans none_).trans (given.symm.trans forks)⟩
  | cons a as => exact ⟨σ, arrives, given.symm.trans forks⟩

theorem adjacent_addTask (g : Graph) (id : String) (attributes : Attributes) (a b : String)
    (link : g.Adjacent a b) : (g.addTask id attributes).Adjacent a b := by
  unfold Adjacent
  rw [edges_addTask]
  exact link

/-- A visit is taken out of the queue; the node of its task is behind the forks of a way to it then. -/
theorem Traced.enter {v : Visit} {queue : List Visit} {task : Plan.Task} (traced : Traced p s)
    (next : s.queue = v :: queue) :
    Traced p ⟨s.graph.addTask v.task (attributes task (extended p v)), queue, s.queued⟩ := by
  have kept := adjacent_addTask s.graph v.task (attributes task (extended p v))
  obtain ⟨σ, arrives, splits⟩ := traced.queue v (next ▸ List.mem_cons_self)
  refine ⟨fun w waiting => ?_, fun n inside => ?_⟩
  · obtain ⟨τ, arrives', splits'⟩ := traced.queue w (next ▸ List.mem_cons_of_mem v waiting)
    exact ⟨τ, passed_mono kept arrives', splits'⟩
  · rcases mem_addTask.mp inside with ⟨old, other⟩ | ⟨m, before, rfl⟩
    · rcases traced.nodes n old with traces | ⟨none_, w, waiting, named⟩
      · exact .inl (traces.mono kept)
      · rw [next] at waiting
        rcases List.mem_cons.mp waiting with rfl | later
        · exact absurd named.symm other
        · exact .inr ⟨none_, w, later, named⟩
    · have own : Traces p s.graph m ∨ m.splits = [] := by
        rcases before with ⟨old, _⟩ | ⟨_, rfl⟩
        · exact (traced.nodes m old).imp_right And.left
        · exact .inr rfl
      exact .inl ((traces_merge before.named own arrives splits).mono kept)

/-- One visit keeps the forks traced. -/
theorem Traced.takes (traced : Traced p s) (walked : Walked p [] s)
    (taken : Takes (step p limits) s s') : Traced p s' := by
  obtain ⟨v, queue, task, next, found, followed⟩ := takes_cases walked taken
  obtain ⟨σ, arrives, splits⟩ := traced.queue v (next ▸ List.mem_cons_self)
  have here : (passed p (s.graph.addTask v.task (attributes task (extended p v)))).Arrives v.task σ :=
    passed_mono (adjacent_addTask _ _ _) arrives
  obtain ⟨arrives', _⟩ := walked.defined next
  rw [splits, splitTasks_unnumbered] at arrives'
  refine (traced.enter next).followAll (walked.enter next found) mem_ids_visited
    (List.Subset.refl _) here arrives' ?_
  rw [← extended_unnumbered splits]
  exact followed

theorem traced_of_runs (run : Runs (step p limits) (.start p) s) : Traced p s := by
  induction run with
  | refl => exact traced_start p
  | tail run taken ih => exact ih.takes (walked_of_runs run) taken

/-- No fork of the plan leads back to itself in its composition. -/
theorem Composed.passed_acyclic (composed : Composed p g) : (passed p g).Acyclic := by
  intro t fork cycle
  exact p.network_acyclic t fork (cycle.lift id fun _ _ => composed.leads_of_adjacent)

end Direct

open Direct Workflow.Graph

variable {p : Plan} {limits : Limits} {g : Graph}

/-- The forks that a node of a direct composition is behind, all of them with all their branches, are a
chain to it. -/
theorem direct_forkChain (composed : direct limits p = .ok g) :
    ∀ n ∈ g.nodes, (∀ x ∈ n.splits, x.instance_ = 0) ∧
      ForkChain (fun f => p.isSplit f = true ∧ p.inCycle f = false) g.Adjacent n.name
        (splitTasks n.splits) := by
  intro n inside
  have acyclic := (composed_of_direct composed).passed_acyclic
  have named := ((composed_of_direct composed).nodes n inside).1
  obtain ⟨s, run, done, rfl⟩ := exists_runs_of_direct composed
  rcases (traced_of_runs run).nodes n inside with ⟨σ, arrives, splits⟩ | ⟨_, v, waiting, _⟩
  · rw [splits, splitTasks_unnumbered, named]
    refine ⟨fun x noted => ?_, (arrives.forkChain acyclic).of_iff fun f => ?_⟩
    · obtain ⟨f, _, rfl⟩ := List.mem_map.mp noted
      rfl
    · have fork : (passed p s.graph).forks f = (p.isSplit f && !p.inCycle f) := rfl
      rw [fork, Bool.and_eq_true, Bool.not_eq_true']
  · rw [done] at waiting
    cases waiting

end Workflow.Composition
