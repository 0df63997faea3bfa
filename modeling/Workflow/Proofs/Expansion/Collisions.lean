import Mathlib
import Workflow.Inspection.Shape
import Workflow.Proofs.Expansion.Agreement
import Workflow.Proofs.Expansion.Arrivals

/-!
When the ids of an expansion tell the tasks of its nodes. A task may have a name that reads like the id
of an instance of another task, and nothing keeps the two from being one node. Unlike the theory of
the unfolding, nothing is assumed of the names here.
-/

namespace Workflow.Composition

open Workflow.Graph

namespace Expansion

variable {logical : Graph} {limits : Limits} {s s' : State} {v : Visit} {queue : List Visit}
  {n u : Node} {t : String} {splits : List Split}

/-- The walk gives the id of a node to an arrival at a task: it lets the arrival in, which then is
behind no more forks than the limits allow. -/
def GivenId (logical : Graph) (limits : Limits) (t : String) (splits : List Split) : Prop :=
  LetIn logical limits t splits ∧
    (forkAt logical t = true → splits.length ≤ limits.maxSplitDepth)

/-- Arrivals that are given one id are at one task. -/
def IdsTellTasks (logical : Graph) (limits : Limits) : Prop :=
  ∀ t u a b, GivenId logical limits t a → GivenId logical limits u b → nodeId t a = nodeId u b → t = u

/-- The ids of a walk tell tasks apart: those of its arrivals do, every node is called for its task and
the number of its last fork, and a node keeps the name of its task as long as the walk goes on. -/
structure TellsTasks (logical : Graph) (limits : Limits) : Prop where
  ids : IdsTellTasks logical limits
  named : ∀ s, Runs (step logical limits) (.start logical) s → ∀ n ∈ s.graph.nodes,
    n.id = nodeId n.name n.splits
  kept : ∀ s s', Runs (step logical limits) (.start logical) s → Runs (step logical limits) s s' →
    ∀ n ∈ s.graph.nodes, ∀ n' ∈ s'.graph.nodes, n'.id = n.id → n'.name = n.name

/-- No task that the walk lets in behind no fork is called like an instance that the walk makes of
another task. -/
def NoTaskNamedAsInstance (logical : Graph) (limits : Limits) : Prop :=
  ∀ t a k, GivenId logical limits t a → lastNumber a = some k →
    ¬GivenId logical limits (t ++ "__" ++ toString k) []

/-- An id with a number is read in one way only, so two tasks can have one id only if the one bears
it as its name. -/
theorem idsTellTasks_iff :
    IdsTellTasks logical limits ↔ NoTaskNamedAsInstance logical limits := by
  constructor
  · intro tell t a k given number plain
    have same : nodeId (t ++ "__" ++ toString k) [] = nodeId t a := by
      rw [nodeId_of_lastNumber_some t number]
      rfl
    have equal := tell _ _ _ _ plain given same
    have longer := congrArg String.length equal
    rw [String.length_append, String.length_append] at longer
    have underscores : "__".length = 2 := rfl
    omega
  · intro free t u a b given given' same
    cases first : lastNumber a with
    | none =>
      cases second : lastNumber b with
      | none =>
        rw [nodeId_of_lastNumber_none t first, nodeId_of_lastNumber_none u second] at same
        exact same
      | some k =>
        rw [nodeId_of_lastNumber_none t first, nodeId_of_lastNumber_some u second] at same
        have plain := splits_eq_nil_of_lastNumber first
        subst plain
        exact absurd (same ▸ given) (free u b k given' second)
    | some j =>
      cases second : lastNumber b with
      | none =>
        rw [nodeId_of_lastNumber_some t first, nodeId_of_lastNumber_none u second] at same
        have plain := splits_eq_nil_of_lastNumber second
        subst plain
        exact absurd (same ▸ given') (free t a j given first)
      | some k =>
        rw [nodeId_of_lastNumber_some t first, nodeId_of_lastNumber_some u second] at same
        exact (numbered_inj same).1

/-- What holds throughout a walk whose ids tell tasks: its nodes were entered at the task that they
are called for. -/
structure Told (logical : Graph) (limits : Limits) (s : State) : Prop where
  coherent : s.graph.Coherent
  queue : ∀ v ∈ s.queue, v.task ∈ logical.ids ∧ ∀ o, v.prev = some o → o.1 ∈ s.graph.ids
  named : ∀ n ∈ s.graph.nodes, n.id = nodeId n.name n.splits
  given : ∀ n ∈ s.graph.nodes, ∃ splits, GivenId logical limits n.name splits ∧
    n.id = nodeId n.name splits

theorem told_start (logical : Graph) (limits : Limits) : Told logical limits (.start logical) := by
  refine ⟨coherent_empty, ?_, nofun, nofun⟩
  intro v waiting
  obtain ⟨id, root, rfl⟩ := List.mem_map.mp waiting
  exact ⟨(mem_roots_iff.mp root).1, nofun⟩

/-- It depends on the graph and on which arrivals are to come. -/
theorem Told.of_graph_eq (told : Told logical limits s) (graph : s'.graph = s.graph)
    (queue : s'.queue ⊆ s.queue) : Told logical limits s' := by
  refine ⟨graph ▸ told.coherent, fun v waiting => ?_, graph ▸ told.named, graph ▸ told.given⟩
  rw [graph]
  exact told.queue v (queue waiting)

/-- Every node is there later on, too, and is called for the same task. -/
def KeepsNames (s s' : State) : Prop :=
  ∀ n ∈ s.graph.nodes, ∃ n' ∈ s'.graph.nodes, n'.id = n.id ∧ n'.name = n.name

/-- Entering a node keeps names and ids in accordance: if the node was there, then it was entered at
the same task before. -/
theorem Told.entered (tell : IdsTellTasks logical limits) (told : Told logical limits s)
    (given : GivenId logical limits t splits) :
    (∀ u ∈ (s.entered n t splits).graph.nodes, u.id = nodeId u.name u.splits ∧
      ∃ splits, GivenId logical limits u.name splits ∧ u.id = nodeId u.name splits) ∧
      KeepsNames s (s.entered n t splits) := by
  have task : ∀ m ∈ s.graph.nodes, m.id = nodeId t splits → m.name = t := by
    intro m known same
    obtain ⟨splits', given', id⟩ := told.given m known
    exact tell _ _ _ _ given' given (id.symm.trans same)
  refine ⟨fun u inside => ?_, fun m known => ?_⟩
  · rcases mem_nodes_entered inside with ⟨old, _⟩ | ⟨id, name, behind⟩
    · exact ⟨told.named u old, told.given u old⟩
    · refine ⟨?_, splits, name ▸ given, name ▸ id⟩
      rcases behind with same | ⟨rfl, m, known, same, behind⟩
      · rw [name, same]
        exact id
      · rw [name, behind, ← task m known (same.trans id), ← told.named m known, same]
  · obtain ⟨m', inside, id⟩ : ∃ m' ∈ (s.entered n t splits).graph.nodes, m'.id = m.id := by
      refine mem_ids_iff.mp (mem_ids_addTask.mpr (.inl ?_))
      exact mem_ids_iff.mpr ⟨m, known, rfl⟩
    refine ⟨m', inside, id, ?_⟩
    rcases mem_nodes_entered inside with ⟨old, _⟩ | ⟨id', name, _⟩
    · rw [eq_of_id_eq told.coherent.unique old known id]
    · rw [name, task m known (id.symm.trans id')]

/-- Entering a node keeps the invariant, and the names of all nodes. -/
theorem Told.arrive {inbound : List Edge} {fork : Bool} (coherent : logical.Coherent)
    (tell : IdsTellTasks logical limits) (told : Told logical limits s)
    (defined : v.task ∈ logical.ids) (origin : ∀ o, v.prev = some o → o.1 ∈ s.graph.ids)
    (given : GivenId logical limits v.task splits)
    (arrived : arrive logical limits s v n inbound fork splits = .ok s') :
    Told logical limits s' ∧ KeepsNames s s' := by
  obtain ⟨nodes, kept⟩ := told.entered (n := n) tell given
  rcases arrive_cases told.coherent origin defined n inbound fork splits with
    ⟨_, _, beyond⟩ | ⟨g, linked, outcome⟩
  · rw [beyond] at arrived
    cases arrived
  · have ids : ∀ {id}, id ∈ s.graph.ids ∨ id = nodeId v.task splits → id ∈ g.ids := by
      intro id known
      unfold Graph.ids
      rw [linked.nodes]
      exact mem_ids_addTask.mpr known
    rw [← linked.nodes] at nodes
    unfold KeepsNames at kept
    rw [← linked.nodes] at kept
    have waiting : ∀ w ∈ s.queue, w.task ∈ logical.ids ∧ ∀ o, w.prev = some o → o.1 ∈ g.ids :=
      fun w inside => ⟨(told.queue w inside).1,
        fun o before => ids (.inl ((told.queue w inside).2 o before))⟩
    rcases outcome with ⟨_, done⟩ | ⟨_, _, es, links, done⟩
    · rw [done] at arrived
      cases arrived
      exact ⟨⟨linked.coherent, waiting, fun u inside => (nodes u inside).1,
        fun u inside => (nodes u inside).2⟩, kept⟩
    · rw [done] at arrived
      cases arrived
      refine ⟨⟨linked.coherent, fun w inside => ?_, fun u inside => (nodes u inside).1,
        fun u inside => (nodes u inside).2⟩, kept⟩
      rcases List.mem_append.mp inside with old | new
      · exact waiting w old
      · obtain ⟨e, link, rfl⟩ := List.mem_map.mp new
        refine ⟨coherent.destination_mem e ((mem_next_iff links).mp link).1, fun o before => ?_⟩
        cases before
        exact ids (.inr rfl)

/-- A step of a walk whose ids tell tasks keeps the invariant, and the names of all nodes. -/
theorem Told.takes (coherent : logical.Coherent) (tell : IdsTellTasks logical limits)
    (told : Told logical limits s) (run : Runs (step logical limits) (.start logical) s)
    (taken : Takes (step logical limits) s s') : Told logical limits s' ∧ KeepsNames s s' := by
  obtain ⟨v, queue, next⟩ := exists_head_of_takes taken
  have visited : visit logical limits { s with queue := queue } v = .ok s' := by
    unfold Takes at taken
    rw [step_of_cons next, map_some_eq_ok_iff] at taken
    exact taken
  obtain ⟨defined, origin⟩ := told.queue v (next ▸ List.mem_cons_self)
  have rest : queue ⊆ s.queue := next ▸ List.subset_cons_self v queue
  obtain ⟨n, inbound, _, _, cases_⟩ := visit_cases defined limits { s with queue := queue }
  rcases cases_ with ⟨_, dropped⟩ | ⟨_, beyond⟩ | ⟨onTime, arrived⟩
  · rw [dropped] at visited
    cases visited
    exact ⟨told.of_graph_eq rfl rest, fun n inside => ⟨n, inside, rfl, rfl⟩⟩
  · rw [beyond] at visited
    cases visited
  · have given : GivenId logical limits v.task
        (State.lineage logical { s with queue := queue } v) :=
      ⟨⟨s, v, queue, run, next, rfl, rfl, onTime⟩,
        fun fork => length_lineage_le defined onTime fork visited⟩
    -- Counting a number leaves the graph and the queue.
    have ready := ready_counted logical s v queue
    have rest₀ : (State.counted logical { s with queue := queue } v).queue ⊆ s.queue := by
      rw [ready.queue]
      exact rest
    have told₀ := told.of_graph_eq ready.graph rest₀
    have origin₀ : ∀ o, v.prev = some o →
        o.1 ∈ (State.counted logical { s with queue := queue } v).graph.ids := by
      rw [ready.graph]
      exact origin
    obtain ⟨told', kept⟩ :=
      told₀.arrive coherent tell defined origin₀ given (arrived.symm.trans visited)
    unfold KeepsNames at kept
    rw [ready.graph] at kept
    exact ⟨told', kept⟩

/-- While ids tell tasks apart, every node is one of the task that it was entered at. -/
theorem told_of_runs (coherent : logical.Coherent) (tell : IdsTellTasks logical limits)
    (run : Runs (step logical limits) (.start logical) s) : Told logical limits s := by
  induction run with
  | refl => exact told_start logical limits
  | tail run taken ih => exact (ih.takes coherent tell run taken).1

/-- While ids tell tasks apart, no node is called for another task later on. -/
theorem keepsNames_of_runs (coherent : logical.Coherent) (tell : IdsTellTasks logical limits)
    (run : Runs (step logical limits) (.start logical) s) (later : Runs (step logical limits) s s') :
    KeepsNames s s' := by
  induction later with
  | refl => exact fun n inside => ⟨n, inside, rfl, rfl⟩
  | @tail m s' later taken ih =>
    have told := told_of_runs coherent tell (run.trans later)
    have kept := (told.takes coherent tell (run.trans later) taken).2
    intro n inside
    obtain ⟨n', inside', id, name⟩ := ih n inside
    obtain ⟨n'', inside'', id', name'⟩ := kept n' inside'
    exact ⟨n'', inside'', id'.trans id, name'.trans name⟩

theorem tellsTasks_of_ids (coherent : logical.Coherent) (tell : IdsTellTasks logical limits) :
    TellsTasks logical limits := by
  refine ⟨tell, fun s run => (told_of_runs coherent tell run).named, ?_⟩
  intro s s' run later n inside n' inside' same
  obtain ⟨m, known, id, name⟩ := keepsNames_of_runs coherent tell run later n inside
  have told := told_of_runs coherent tell (run.trans later)
  rw [eq_of_id_eq told.coherent.unique inside' known (same.trans id.symm), name]

/-- Arrivals come to tasks of the graph, which may be told apart by their names alone. -/
theorem noTaskNamedAsInstance_of_separated (coherent : logical.Coherent)
    (separated : Separated logical.ids) : NoTaskNamedAsInstance logical limits := by
  have inside : ∀ {t splits}, GivenId logical limits t splits → t ∈ logical.ids := by
    rintro t splits ⟨⟨s, v, queue, run, next, rfl, _⟩, _⟩
    have expected := (unfolded_of_runs separated run).queue v (next ▸ List.mem_cons_self)
    exact expected.arrives.mem (network_among coherent)
  intro t a k given _ plain
  exact separated _ (inside plain) t (inside given) k rfl

/-- A walk that comes to its end within the steps of an expansion is the one that the expansion makes. -/
theorem expand_of_workOff {x : Graph} {steps : Nat} (enough : steps ≤ maxSteps logical limits)
    (worked : (workOff (step logical limits) steps (.start logical)).map
      (fun r => r.map State.graph) = some (.ok x)) :
    expand limits logical = .ok x ∧
      ∃ s, Runs (step logical limits) (.start logical) s ∧ s.graph = x := by
  obtain ⟨result, worked', same⟩ := Option.map_eq_some_iff.mp worked
  cases result with
  | error f => cases same
  | ok s =>
    obtain rfl : s.graph = x := Except.ok.inj same
    refine ⟨?_, s, (workOff_ok worked').1, rfl⟩
    unfold expand
    rw [workOff_of_le worked' enough]

end Expansion

open Expansion

variable {d : Definition} {g : Graph} {limits : Limits}

/-- The expansion of a definition tells its tasks apart just if none that it lets in behind no fork is
called like an instance of another; that no name is another one with a number is enough. -/
theorem tellsTasks_iff (composed : direct limits (.ofDefinition d) = .ok g) :
    (TellsTasks g limits ↔ NoTaskNamedAsInstance g limits) ∧
      (Separated (Plan.ofDefinition d).tasks.names → TellsTasks g limits) := by
  have composed' := composed_of_direct composed
  have coherent := composed'.coherent
  refine ⟨⟨fun tells => ?_, fun free => ?_⟩, fun separated => ?_⟩
  · exact idsTellTasks_iff.mp tells.ids
  · exact tellsTasks_of_ids coherent (idsTellTasks_iff.mpr free)
  · have separated' : Separated g.ids := separated.mono fun t => composed'.mem_names
    have free : NoTaskNamedAsInstance g limits :=
      noTaskNamedAsInstance_of_separated coherent separated'
    exact tellsTasks_of_ids coherent (idsTellTasks_iff.mpr free)

/-- A fork with two instances, and a task of this name, which one of the branches leads to as well. -/
def forkBeside (name : String) : Definition where
  tasks := .ofList [("a", { next := [{ destinations := ["c"] }] }),
    ("b", { next := [{ destinations := ["c", name] }] }), ("c", {}), (name, {})]

def forkBesideGraph (name : String) : Graph where
  nodes := [⟨"a", "a", none, [], none⟩, ⟨"c", "c", none, [⟨"c", 0⟩], none⟩,
    ⟨"b", "b", none, [], none⟩, ⟨name, name, none, [], none⟩]
  edges := [⟨"a", "c", 0, [], some 0⟩, ⟨"b", "c", 0, [], some 0⟩, ⟨"b", name, 0, [], some 0⟩]

/-- A task that is called like a third instance stays apart, as there are two. -/
theorem forkBeside_tellsTasks_iff :
    direct {} (.ofDefinition (forkBeside "c__3")) = .ok (forkBesideGraph "c__3") ∧
      ¬Separated (Plan.ofDefinition (forkBeside "c__3")).tasks.names ∧
      NoTaskNamedAsInstance (forkBesideGraph "c__3") {} ∧ TellsTasks (forkBesideGraph "c__3") {} := by
  have composed : direct {} (.ofDefinition (forkBeside "c__3")) = .ok (forkBesideGraph "c__3") :=
    direct_of_workOff (n := 7) (by decide) (by cbv) (by cbv)
  have along : passAlong (step (forkBesideGraph "c__3") {}) (nextAmong (forkBesideGraph "c__3")
      [("a", []), ("b", []), ("c", [⟨"c", 1⟩]), ("c", [⟨"c", 2⟩]), ("c__3", [])]) 7
      (.start (forkBesideGraph "c__3")) = true := by
    cbv
  have apart : ∀ e ∈ [("a", []), ("b", []), ("c", [⟨"c", 1⟩]), ("c", [(⟨"c", 2⟩ : Split)]), ("c__3", [])],
      ∀ k ∈ lastNumber e.2, (e.1 ++ "__" ++ toString k, []) ∉
        [("a", []), ("b", []), ("c", [⟨"c", 1⟩]), ("c", [(⟨"c", 2⟩ : Split)]), ("c__3", [])] := by
    decide +kernel
  have free : NoTaskNamedAsInstance (forkBesideGraph "c__3") {} := fun t a k given number plain =>
    apart _ (given.1.mem_of_passAlong along) k number (plain.1.mem_of_passAlong along)
  refine ⟨composed, fun separated => ?_, free, (tellsTasks_iff composed).1.mpr free⟩
  exact separated "c__3" (by decide) "c" (by decide) 3 rfl

/-- The expansion of a fork beside a task that is called like its first instance. -/
def forkBesideExpanded : Graph where
  nodes := [⟨"a", "a", none, [], none⟩, ⟨"b", "b", none, [], none⟩,
    ⟨"c__1", "c__1", none, [⟨"c", 1⟩], none⟩, ⟨"c__2", "c", none, [⟨"c", 2⟩], none⟩]
  edges := [⟨"a", "c__1", 0, [], some 0⟩, ⟨"b", "c__2", 0, [], some 0⟩,
    ⟨"b", "c__1", 0, [], some 0⟩]

/-- A definition without complaints, of which the expansion makes one node of an instance and of a task:
the node is called for the one, and is behind the fork of the other. -/
theorem forkBeside_not_tellsTasks : Inspection.Shape.problems (forkBeside "c__1") = [] ∧
    Inspection.Structure.problems (.ofDefinition (forkBeside "c__1")) = [] ∧
      direct {} (.ofDefinition (forkBeside "c__1")) = .ok (forkBesideGraph "c__1") ∧
        expand {} (forkBesideGraph "c__1") = .ok forkBesideExpanded ∧
          ¬IdsTellTasks (forkBesideGraph "c__1") {} ∧ ¬TellsTasks (forkBesideGraph "c__1") {} := by
  have shaped : Inspection.Shape.problems (forkBeside "c__1") = [] := by
    cbv
  have found : Inspection.Structure.arrivals (.ofDefinition (forkBeside "c__1")) =
      [("c__1", []), ("b", []), ("c", []), ("a", [])] :=
    Inspection.Structure.arrivals_of_workOff (n := 20) (by cbv)
  have clean : Inspection.Structure.problems (.ofDefinition (forkBeside "c__1")) = [] := by
    unfold Inspection.Structure.problems Inspection.Structure.ambiguousProblems
    rw [found]
    cbv
  have composed : direct {} (.ofDefinition (forkBeside "c__1")) = .ok (forkBesideGraph "c__1") :=
    direct_of_workOff (n := 7) (by decide) (by cbv) (by cbv)
  have coherent := (composed_of_direct composed).coherent
  have worked : (workOff (step (forkBesideGraph "c__1") {}) 7 (.start (forkBesideGraph "c__1"))).map
      (fun r => r.map State.graph) = some (.ok forkBesideExpanded) := by
    cbv
  have enough : 7 ≤ maxSteps (forkBesideGraph "c__1") {} := by
    change 7 ≤ (forkBesideGraph "c__1").roots.length + 10000 * (3 + 1) + 1
    omega
  obtain ⟨expanded, s, run, graph⟩ := expand_of_workOff enough worked
  have misnamed : ¬TellsTasks (forkBesideGraph "c__1") {} := by
    intro tells
    have named := tells.named s run ⟨"c__1", "c__1", none, [⟨"c", 1⟩], none⟩
      (by rw [graph]; decide)
    exact absurd named (by decide)
  exact ⟨shaped, clean, composed, expanded,
    fun tell => misnamed (tellsTasks_of_ids coherent tell), misnamed⟩

end Workflow.Composition
