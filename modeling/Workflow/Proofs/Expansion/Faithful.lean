import Mathlib
import Workflow.Proofs.Expansion.Agreement

/-!
Expansions of plans without complaints: the graph with its forks carried out is a faithful unfolding
of the direct composition, and its joins wait for the branches that they wait for in the plan.
-/

namespace Workflow.Composition

open Workflow.Graph
open Direct (Composed)
open Workflow.Inspection.Structure (Clean clean_of_problems_eq_nil)

variable {p : Plan} {limits : Limits} {g x : Graph}

/-- The graph `x` unfolds `g`. Its nodes are copies of tasks and its transitions copies of
transitions, with the guards told the ids of the copies; every task has a copy, and every copy has
all ways out of its task; and the roots are the same. -/
structure Unfolding (tasks : List String) (g x : Graph) : Prop where
  unique : x.ids.Nodup
  nodes : ∀ u ∈ x.nodes, ∃ n ∈ g.nodes, n.id = u.name ∧ u.barrier = n.barrier ∧ u.retry = n.retry
  edges : ∀ e ∈ x.edges, ∃ u ∈ x.nodes, ∃ w ∈ x.nodes, e.source = u.id ∧ e.destination = w.id ∧
    ∃ f ∈ g.edges, f.source = u.name ∧ f.destination = w.name ∧ e.ordinal = f.ordinal ∧
      e.criteria = renameInGuards f.criteria u.name u.id
  tasks : ∀ t ∈ tasks, ∃ u ∈ x.nodes, u.name = t
  ways : ∀ u ∈ x.nodes, ∀ f ∈ g.edges, f.source = u.name →
    ∃ w ∈ x.nodes, w.name = f.destination ∧
      x.Leads u.id w.id (renameInGuards f.criteria u.name u.id)
  roots : x.roots = g.roots

namespace Expansion

/-- The composition and the end of the walk that an expansion comes from. -/
theorem expanded_ok (separated : Separated p.tasks.names) (expanded : expanded limits p = .ok x) :
    ∃ g s, direct limits p = .ok g ∧ Composed p g ∧ Separated g.ids ∧
      Runs (step g limits) (.start g) s ∧ s.queue = [] ∧ s.graph = x := by
  unfold Composition.expanded at expanded
  split at expanded
  next => cases expanded
  next g composed_ =>
    have composed := composed_of_direct composed_
    have separated' : Separated g.ids := separated.mono fun t => composed.mem_names
    obtain ⟨s, run, done, graph⟩ := expand_ok expanded
    exact ⟨g, s, composed_, composed, separated', run, done, graph⟩

variable {s : State} {u : Node}

/-- At the end of a walk in which nothing is early, all ways out of all nodes are taken. -/
theorem Unfolded.ways (unfolded : Unfolded g s) (clean : Clean p) (composed : Composed p g)
    (done : s.queue = []) (inside : u ∈ s.graph.nodes) {f : Edge} (link : f ∈ g.edges)
    (source : f.source = u.name) :
    ∃ w ∈ s.graph.nodes, w.name = f.destination ∧
      (forkAt g w.name = false → lastNumber w.splits = lastNumber u.splits) ∧
      s.graph.Leads u.id w.id (renameInGuards f.criteria u.name u.id) := by
  obtain ⟨splits, _, ⟨σ, arrives, forks⟩, ways⟩ := unfolded.left u inside
  rcases ways f link source with waiting | early | taken
  · rw [done] at waiting
    cases waiting
  · have leads : (network g).leads u.name f.destination := ⟨f, link, source, rfl⟩
    have next := arrives.follow leads
    rw [← forks] at next
    rw [composed.on_time clean (composed.arrives_of_network clean next)] at early
    cases early
  · exact taken

/-- Every root has a node behind no fork, for in a clean plan no arrival at one is early. -/
theorem Unfolded.root (unfolded : Unfolded g s) (clean : Clean p) (composed : Composed p g)
    (done : s.queue = []) {r : String} (root : r ∈ g.roots) :
    ∃ u ∈ s.graph.nodes, u.name = r ∧ u.splits = [] := by
  rcases unfolded.roots r root with waiting | early | entered
  · rw [done] at waiting
    cases waiting
  · have arrives : (network g).Arrives r (splitTasks []) := .start root
    rw [composed.on_time clean (composed.arrives_of_network clean arrives)] at early
    cases early
  · exact entered

/-- Every task of the plan is named by a node. -/
theorem Unfolded.tasks (unfolded : Unfolded g s) (clean : Clean p) (composed : Composed p g)
    (done : s.queue = []) {t : String} {σ : List String} (arrives : p.network.Arrives t σ) :
    ∃ u ∈ s.graph.nodes, u.name = t := by
  induction arrives with
  | start first =>
    have root := (composed.mem_roots_iff clean.unreserved).mpr first
    obtain ⟨u, inside, name, _⟩ := unfolded.root clean composed done root
    exact ⟨u, inside, name⟩
  | follow _ link ih =>
    obtain ⟨u, inside, rfl⟩ := ih
    obtain ⟨f, known, source, target⟩ := (composed.leads_iff clean).mpr link
    obtain ⟨w, inside', name, _⟩ := unfolded.ways clean composed done inside known source
    exact ⟨w, inside', name.trans target⟩

/-- A node of a root is behind no fork. -/
theorem Instance.outer (instance_ : Instance g s u) (root : u.name ∈ g.roots) : u.splits = [] := by
  obtain ⟨σ, arrives, forks⟩ := instance_.lineage
  rw [Network.behind_of_not_fork (not_fork_of_root root)] at forks
  generalize named : u.name = r at arrives root
  cases arrives with
  | start => exact List.map_eq_nil_iff.mp forks
  | follow _ link =>
    obtain ⟨e, inside, _, target⟩ := link
    exact absurd target ((Graph.mem_roots_iff.mp root).2 e inside)

theorem Instance.root_id (instance_ : Instance g s u) (root : u.name ∈ g.roots) : u.id = u.name := by
  rw [instance_.copied.id_eq, instance_.outer root]
  rfl

/-- The expansion has the same roots. -/
theorem Unfolded.mem_roots_iff (unfolded : Unfolded g s) (clean : Clean p)
    (composed : Composed p g) (done : s.queue = []) {r : String} :
    r ∈ s.graph.roots ↔ r ∈ g.roots := by
  constructor
  · intro root
    obtain ⟨known, first⟩ := Graph.mem_roots_iff.mp root
    obtain ⟨u, inside, rfl⟩ := Graph.mem_ids_iff.mp known
    rcases unfolded.led u inside with start | ⟨a, e, link, _, target⟩
    · exact (unfolded.nodes u inside).root_id start ▸ start
    · exact absurd target (first e link)
  · intro root
    obtain ⟨u, inside, rfl, _⟩ := unfolded.root clean composed done root
    have id := (unfolded.nodes u inside).root_id root
    rw [Graph.mem_roots_iff]
    refine ⟨Graph.mem_ids_iff.mpr ⟨u, inside, id⟩, fun e link target => ?_⟩
    obtain ⟨f, known, _, _, w, inside', repeats⟩ := unfolded.edges e link
    -- The node that the transition leads to is the root, and so is the task it is a copy of.
    have same : w.id = u.id := repeats.destination.2.symm.trans (target.trans id.symm)
    obtain rfl := Graph.eq_of_id_eq unfolded.coherent.unique inside' inside same
    exact (Graph.mem_roots_iff.mp root).2 f known repeats.destination.1

/-- The ends of a transition are copies of the ends of the one that it repeats. -/
theorem Unfolded.adjacent (unfolded : Unfolded g s) {w : Node} (inside : u ∈ s.graph.nodes)
    (inside' : w ∈ s.graph.nodes) (adjacent : s.graph.Adjacent u.id w.id) :
    g.Adjacent u.name w.name ∧
      (forkAt g w.name = false → lastNumber u.splits = lastNumber w.splits) := by
  obtain ⟨e, link, source, target⟩ := adjacent
  obtain ⟨f, known, u', known', w', known'', repeats⟩ := unfolded.edges e link
  have unique := unfolded.coherent.unique
  obtain rfl : u' = u :=
    Graph.eq_of_id_eq unique known' inside (repeats.source.2.symm.trans source)
  obtain rfl : w' = w :=
    Graph.eq_of_id_eq unique known'' inside' (repeats.destination.2.symm.trans target)
  exact ⟨⟨f, known, repeats.source.1, repeats.destination.1⟩, repeats.level⟩

/-- Whatever is alive behind these forks: a task from which the work goes on behind forks of their
names has a copy behind a fork of the same number. The induction is on the way from the last fork to
the task, which passes no other fork. -/
theorem Unfolded.exists_copy (unfolded : Unfolded g s) (clean : Clean p) (composed : Composed p g)
    (done : s.queue = []) {splits : List Split} (alive : Alive g s.graph splits) {t : String}
    {σ : List String} (arrives : p.network.Arrives t σ)
    (forks : p.network.behind t σ = splitTasks splits) :
    ∃ u ∈ s.graph.nodes, u.name = t ∧ lastNumber u.splits = lastNumber splits := by
  have known : ∀ {t σ}, p.network.Arrives t σ → forkAt g t = p.network.forks t := by
    intro t σ arrives
    exact composed.forkAt_eq clean ((composed.mem_ids_iff clean.unreserved).mpr ⟨σ, arrives⟩)
  induction arrives with
  | @start t first =>
    have root := (composed.mem_roots_iff clean.unreserved).mpr first
    have plain := not_fork_of_root root
    rw [known (.start first)] at plain
    rw [Network.behind_of_not_fork plain] at forks
    have outer : splits = [] := List.map_eq_nil_iff.mp forks.symm
    obtain ⟨u, inside, name, none_⟩ := unfolded.root clean composed done root
    exact ⟨u, inside, name, by rw [none_, outer]⟩
  | @follow t' t σ' before link ih =>
    have agree := known (before.follow link)
    cases fork : p.network.forks t with
    | true =>
      -- The task is the last fork itself, so the node of that fork is its copy.
      rw [Network.behind_of_fork fork] at forks
      rcases alive with rfl | ⟨w, inside, fork', behind⟩
      · simp [splitTasks] at forks
      · obtain ⟨outer, k, own, _⟩ := (unfolded.nodes w inside).counted fork'
        rw [← behind, own, splitTasks, List.map_append] at forks
        have last := (List.append_inj_right' forks rfl : [t] = [w.name])
        exact ⟨w, inside, (List.cons.inj last).1.symm, congrArg lastNumber behind⟩
    | false =>
      rw [Network.behind_of_not_fork fork] at forks
      obtain ⟨u, inside, rfl, number⟩ := ih forks
      obtain ⟨f, known', source, target⟩ := (composed.leads_iff clean).mpr link
      obtain ⟨w, inside', name, level, _⟩ := unfolded.ways clean composed done inside known' source
      have name' := name.trans target
      rw [name', agree, fork] at level
      exact ⟨w, inside', name', (level rfl).trans number⟩

end Expansion

open Expansion

/-- The expansion of a plan without complaints fails beyond one of the limits, or is a faithful
unfolding of the direct composition of the plan. -/
theorem expanded_faithful (some_ : p.tasks.isEmpty = false)
    (clean : Inspection.Structure.problems p = []) (separated : Separated p.tasks.names)
    (limits : Limits) :
    (∃ b, expanded limits p = .error (.beyond limits b)) ∨
      ∃ g x, direct limits p = .ok g ∧ expanded limits p = .ok x ∧
        Unfolding p.tasks.names g x := by
  have clean := clean_of_problems_eq_nil clean
  rcases direct_cases clean some_ limits with ⟨b, failed⟩ | ⟨g, composed_⟩
  · exact .inl ⟨b, by simp [expanded, failed]⟩
  have composed := composed_of_direct composed_
  have separated' : Separated g.ids :=
    separated.mono fun t known => (composed.ids_iff clean).mp known
  rcases expand_cases composed.coherent.sound limits with ⟨b, failed⟩ | ⟨x, expanded_⟩
  · exact .inl ⟨b, by simp [expanded, composed_, failed]⟩
  refine .inr ⟨g, x, composed_, by simp [expanded, composed_, expanded_], ?_⟩
  obtain ⟨s, run, done, rfl⟩ := expand_ok expanded_
  have unfolded := unfolded_of_runs separated' run
  refine ⟨unfolded.coherent.unique, ?_, ?_, ?_, ?_, ?_⟩
  · intro u inside
    obtain ⟨n, found, _⟩ := (unfolded.nodes u inside).copied
    obtain ⟨known, named⟩ := mem_of_task found
    exact ⟨n, known, named, (unfolded.nodes u inside).copied.attributes found⟩
  · intro e inside
    obtain ⟨f, link, u, known, w, known', repeats⟩ := unfolded.edges e inside
    exact ⟨u, known, w, known', repeats.source.2, repeats.destination.2, f, link,
      repeats.source.1, repeats.destination.1, repeats.ordinal, repeats.criteria⟩
  · intro t known
    obtain ⟨σ, arrives⟩ := clean.reached t known
    exact unfolded.tasks clean composed done arrives
  · intro u inside f link source
    obtain ⟨w, known, name, _, leads⟩ :=
      unfolded.ways clean composed done inside link source
    exact ⟨w, known, name, leads⟩
  · exact roots_eq_of_mem_iff unfolded.coherent.unique composed.coherent.unique fun r =>
      unfolded.mem_roots_iff clean composed done

/-- A fork with a join behind it, which waits for the fork and for a task between them. -/
def joinBehindFork : Plan :=
  .bare ⟨[("a", .leading ["f"] none), ("b", .leading ["f"] none), ("f", .leading ["g", "j"] none),
    ("g", .leading ["j"] none), ("j", .leading [] (some .all))], by decide⟩

theorem problems_joinBehindFork : Inspection.Structure.problems joinBehindFork = [] := by
  have found : Inspection.Structure.arrivals joinBehindFork =
      [("b", []), ("j", ["f"]), ("g", ["f"]), ("f", []), ("a", [])] :=
    Inspection.Structure.arrivals_of_workOff (n := 20) (by cbv)
  unfold Inspection.Structure.problems Inspection.Structure.ambiguousProblems
  rw [found]
  cbv

theorem separated_joinBehindFork : Separated joinBehindFork.tasks.names :=
  separated_of_not_mem (by decide)

def joinBehindForkGraph : Graph where
  nodes := [⟨"a", "a", none, [], none⟩, ⟨"f", "f", none, [⟨"f", 0⟩], none⟩,
    ⟨"b", "b", none, [], none⟩, ⟨"g", "g", none, [⟨"f", 0⟩], none⟩,
    ⟨"j", "j", some .all, [⟨"f", 0⟩], none⟩]
  edges := [⟨"a", "f", 0, [], some 0⟩, ⟨"b", "f", 0, [], some 0⟩, ⟨"f", "g", 0, [], some 0⟩,
    ⟨"f", "j", 0, [], some 0⟩, ⟨"g", "j", 0, [], some 0⟩]

theorem expanded_joinBehindFork : direct {} joinBehindFork = .ok joinBehindForkGraph ∧
    ∃ x, expanded {} joinBehindFork = .ok x ∧
      x.ids = ["a", "b", "f__1", "f__2", "g__1", "j__1", "g__2", "j__2"] := by
  have composed : direct {} joinBehindFork = .ok joinBehindForkGraph :=
    direct_of_workOff (n := 6) (by decide) (by cbv) (by cbv)
  have worked : (workOff (step joinBehindForkGraph {}) 11 (.start joinBehindForkGraph)).map
      (fun r => r.map fun s => s.graph.ids) =
        some (.ok ["a", "b", "f__1", "f__2", "g__1", "j__1", "g__2", "j__2"]) := by
    cbv
  exact ⟨composed, exists_expanded_of_workOff Graph.ids composed worked⟩

/-- The fork and what is behind it are there twice, and no limit is met. -/
theorem joinBehindFork_faithful : joinBehindFork.tasks.isEmpty = false ∧
    Inspection.Structure.problems joinBehindFork = [] ∧ Separated joinBehindFork.tasks.names ∧
      ∃ x, expanded {} joinBehindFork = .ok x ∧
        x.ids = ["a", "b", "f__1", "f__2", "g__1", "j__1", "g__2", "j__2"] ∧
          Unfolding joinBehindFork.tasks.names joinBehindForkGraph x := by
  obtain ⟨composed, x, expanded_, ids⟩ := expanded_joinBehindFork
  refine ⟨rfl, problems_joinBehindFork, separated_joinBehindFork, x, expanded_, ids, ?_⟩
  rcases expanded_faithful rfl problems_joinBehindFork separated_joinBehindFork {} with
    ⟨b, beyond⟩ | ⟨g, y, composed', expanded', unfolding⟩
  · cases expanded_.symm.trans beyond
  · cases composed.symm.trans composed'
    cases expanded_.symm.trans expanded'
    exact unfolding

/-- In the expansion of a plan without complaints, the predecessors of a node of a join are one copy
of each predecessor that the join has in the direct composition. -/
theorem expanded_joins (clean : Inspection.Structure.problems p = [])
    (separated : Separated p.tasks.names) (expanded : expanded limits p = .ok x) :
    ∃ g, direct limits p = .ok g ∧ ∀ v ∈ x.nodes, p.isJoin v.name = true →
      Set.BijOn Node.name {u | u ∈ x.nodes ∧ x.Adjacent u.id v.id} {t | g.Adjacent t v.name} := by
  have clean := clean_of_problems_eq_nil clean
  obtain ⟨g, s, composed_, composed, separated', run, done, rfl⟩ := expanded_ok separated expanded
  have unfolded := unfolded_of_runs separated' run
  refine ⟨g, composed_, fun v inside join => ?_⟩
  have instance_ := unfolded.nodes v inside
  obtain ⟨σ, arrives, forks⟩ := instance_.lineage
  have plain : forkAt g v.name = false := by
    rw [composed.forkAt_eq clean instance_.copied.mem]
    exact forks_eq_false_of_isJoin join
  rw [Network.behind_of_not_fork plain] at forks
  refine ⟨?_, ?_, ?_⟩
  · rintro u ⟨known, adjacent⟩
    exact (unfolded.adjacent known inside adjacent).1
  · rintro u ⟨known, adjacent⟩ w ⟨known', adjacent'⟩ name
    have level := (unfolded.adjacent known inside adjacent).2 plain
    have level' := (unfolded.adjacent known' inside adjacent').2 plain
    exact unfolded.eq_of_name_eq known known' name (level.trans level'.symm)
  · intro t adjacent
    have link := (composed.leads_iff clean).mp adjacent
    obtain ⟨e, known, source, target⟩ := adjacent
    obtain ⟨τ, before⟩ := composed.arrives t (source ▸ composed.coherent.source_mem e known)
    -- All arrivals at the join are behind the same forks, also those along this transition.
    have same := clean.unambiguous _ join _ _ (before.follow link)
      (composed.arrives_of_network clean arrives)
    obtain ⟨u, inside', rfl, number⟩ :=
      unfolded.exists_copy clean composed done instance_.alive before (same.trans forks.symm)
    obtain ⟨w, inside'', name, level, leads⟩ :=
      unfolded.ways clean composed done inside' known source
    have name' := name.trans target
    rw [name'] at level
    obtain rfl := unfolded.eq_of_name_eq inside'' inside name' ((level plain).trans number)
    exact ⟨u, ⟨inside', leads.adjacent⟩, rfl⟩

theorem joinBehindFork_joins : ∃ x, expanded {} joinBehindFork = .ok x ∧
    x.ids = ["a", "b", "f__1", "f__2", "g__1", "j__1", "g__2", "j__2"] ∧
      ∃ g, direct {} joinBehindFork = .ok g ∧
        ∀ v ∈ x.nodes, joinBehindFork.isJoin v.name = true →
          Set.BijOn Node.name {u | u ∈ x.nodes ∧ x.Adjacent u.id v.id}
            {t | g.Adjacent t v.name} := by
  obtain ⟨_, x, expanded, ids⟩ := expanded_joinBehindFork
  exact ⟨x, expanded, ids, expanded_joins problems_joinBehindFork separated_joinBehindFork expanded⟩

end Workflow.Composition
