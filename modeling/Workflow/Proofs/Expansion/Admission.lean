import Workflow.Proofs.Expansion.Entering

/-!
One step of an expansion, with nothing assumed of the graph or of the names of its tasks: an arrival is
dropped, is admitted to a node, which is there or is made, or would go beyond a limit. Unlike in the
theory of the unfolding, a node may be entered at different tasks here.
-/

namespace Workflow.Composition.Expansion

open Workflow.Graph

variable {logical : Graph} {limits : Limits} {s s' : State} {v : Visit} {queue : List Visit}
  {n u : Node} {t : String} {splits : List Split}

/-- An arrival at a fork is behind no more forks than the limits allow, or the visit fails. -/
theorem length_lineage_le (defined : v.task ∈ logical.ids)
    (onTime : tooEarly logical v.task v.splits = false) (fork : forkAt logical v.task = true)
    (visited : visit logical limits s v = .ok s') :
    (s.lineage logical v).length ≤ limits.maxSplitDepth := by
  obtain ⟨n, inbound, found, led, _⟩ := visit_cases defined limits s
  have plain : isFork logical n inbound = true := by
    unfold forkAt at fork
    rw [found, led] at fork
    exact fork
  have free : (n.barrier.isSome && isEarly n.splits v.splits) = false := by
    unfold tooEarly at onTime
    rw [found] at onTime
    exact onTime
  unfold visit at visited
  rw [found, led] at visited
  simp only [free, plain, Bool.false_eq_true, if_false, if_true] at visited
  split at visited
  next => cases visited
  next room =>
    have counted : (s.count v.task).counter v.task = s.counter v.task + 1 := by
      rw [counter_count, if_pos rfl]
    rw [counted] at room
    rw [lineage_of_fork fork]
    exact Nat.le_of_not_lt room

/-- The nodes after an arrival entered one: all others are as they were, and that one is called for the
task of the arrival, and is behind its forks unless it was behind some already. -/
theorem mem_nodes_entered (inside : u ∈ (s.entered n t splits).graph.nodes) :
    u ∈ s.graph.nodes ∧ u.id ≠ nodeId t splits ∨
      u.id = nodeId t splits ∧ u.name = t ∧
        (u.splits = splits ∨
          splits = [] ∧ ∃ m ∈ s.graph.nodes, m.id = u.id ∧ u.splits = m.splits) := by
  unfold State.entered at inside
  rcases mem_addTask.mp inside with old | ⟨m, before, rfl⟩
  · exact .inl old
  · refine .inr ⟨before.named, rfl, ?_⟩
    cases splits with
    | cons split rest => exact .inl rfl
    | nil =>
      rcases before with ⟨known, named⟩ | ⟨_, rfl⟩
      · exact .inr ⟨rfl, m, known, rfl, rfl⟩
      · exact .inl rfl

/-- What admitting the arrival at the head of the queue does to the state. -/
structure Admits (logical : Graph) (limits : Limits) (s : State) (v : Visit) (queue : List Visit)
    (s' : State) : Prop where
  coherent : s'.graph.Coherent
  counter : ∀ t, s'.counter t = if forkAt logical v.task = true ∧ t = v.task then s.counter t + 1
    else s.counter t
  depth : forkAt logical v.task = true → (s.lineage logical v).length ≤ limits.maxSplitDepth
  splits : ∀ u ∈ s'.graph.nodes,
    u.splits = s.lineage logical v ∨ ∃ m ∈ s.graph.nodes, u.splits = m.splits
  node : s'.graph.ids = s.graph.ids ∧ nodeId v.task (s.lineage logical v) ∈ s.graph.ids ∧
      s'.made = s.made ∧ s'.queue = queue ∨
    s'.graph.ids = s.graph.ids ++ [nodeId v.task (s.lineage logical v)] ∧
      s'.graph.nodes.length ≤ limits.maxInstances ∧ s'.made = s.made ++ [v.task] ∧
      ∃ es, logical.next v.task = .ok es ∧ s'.queue = queue ++ es.map fun e =>
        ⟨e.destination, s.lineage logical v, some (nodeId v.task (s.lineage logical v), e)⟩

/-- What holds throughout an expansion, whatever the graph: the graph that is made hangs together, each
of its nodes is recorded for a task, and arrivals are at roots or along transitions, from nodes that are
there. -/
structure Grounded (logical : Graph) (s : State) : Prop where
  coherent : s.graph.Coherent
  made : s.made.length = s.graph.nodes.length
  arrive : ∀ v ∈ s.queue, v.task ∈ logical.roots ∨ ∃ u, logical.Adjacent u v.task
  origin : ∀ v ∈ s.queue, ∀ o, v.prev = some o → o.1 ∈ s.graph.ids

theorem grounded_start (logical : Graph) : Grounded logical (.start logical) := by
  refine ⟨coherent_empty, rfl, ?_, ?_⟩
  · intro v waiting
    obtain ⟨id, root, rfl⟩ := List.mem_map.mp waiting
    exact .inl root
  · intro v waiting o before
    obtain ⟨id, _, rfl⟩ := List.mem_map.mp waiting
    cases before

/-- Entering a node and leading transitions to it makes no node but the one that is entered. -/
private theorem ids_of_linked {g : Graph} {origins : List (String × Edge)}
    (linked : Linked (s.entered n t splits).graph (nodeId t splits) origins g) :
    g.ids = if s.graph.contains (nodeId t splits) then s.graph.ids
      else s.graph.ids ++ [nodeId t splits] := by
  unfold Graph.ids
  rw [linked.nodes]
  exact ids_addTask _ _ _

/-- The nodes lie behind the forks that they were behind, or behind those of the arrival. -/
private theorem splits_of_linked {g : Graph} {origins : List (String × Edge)}
    (linked : Linked (s.entered n t splits).graph (nodeId t splits) origins g) :
    ∀ u ∈ g.nodes, u.splits = splits ∨ ∃ m ∈ s.graph.nodes, u.splits = m.splits := by
  intro u inside
  rw [linked.nodes] at inside
  rcases mem_nodes_entered inside with ⟨old, _⟩ | ⟨_, _, same | ⟨_, m, known, _, same⟩⟩
  · exact .inr ⟨u, old, rfl⟩
  · exact .inl same
  · exact .inr ⟨m, known, same⟩

/-- The state after the arrival's node was entered and transitions lead to it. -/
private theorem admits_of_linked {s₀ : State} {g : Graph} {origins : List (String × Edge)}
    {rest : List Visit} (ready : Ready logical s v queue s₀)
    (depth : forkAt logical v.task = true → (s.lineage logical v).length ≤ limits.maxSplitDepth)
    (linked : Linked (s₀.entered n v.task (s.lineage logical v)).graph
      (nodeId v.task (s.lineage logical v)) origins g)
    (queued : nodeId v.task (s.lineage logical v) ∈ s.graph.ids ∧ rest = queue ∨
      nodeId v.task (s.lineage logical v) ∉ s.graph.ids ∧ g.nodes.length ≤ limits.maxInstances ∧
        ∃ es, logical.next v.task = .ok es ∧ rest = queue ++ es.map fun e =>
          ⟨e.destination, s.lineage logical v, some (nodeId v.task (s.lineage logical v), e)⟩) :
    Admits logical limits s v queue
      { s₀.entered n v.task (s.lineage logical v) with graph := g, queue := rest } := by
  have ids := ids_of_linked linked
  have splits := splits_of_linked linked
  rw [ready.graph] at ids splits
  refine ⟨linked.coherent, ready.counter, depth, splits, ?_⟩
  rcases queued with ⟨known, same⟩ | ⟨new, room, more⟩
  · rw [contains_iff.mpr known] at ids
    refine .inl ⟨ids, known, ?_, same⟩
    simp [State.entered, ready.graph, ready.made, contains_iff.mpr known]
  · rw [contains_eq_false_iff.mpr new] at ids
    refine .inr ⟨ids, room, ?_, more⟩
    simp [State.entered, ready.graph, ready.made, contains_eq_false_iff.mpr new]

/-- A step drops the next arrival, would go beyond a limit, or admits the arrival. -/
theorem Grounded.step_cases (grounded : Grounded logical s) (next : s.queue = v :: queue)
    (defined : v.task ∈ logical.ids) (limits : Limits) :
    tooEarly logical v.task v.splits = true ∧
      step logical limits s = .ok (some { s with queue := queue }) ∨
    (∃ b, step logical limits s = .error (.beyond limits b)) ∨
    ∃ s', step logical limits s = .ok (some s') ∧ Admits logical limits s v queue s' := by
  rw [step_of_cons next]
  obtain ⟨n, inbound, _, _, cases_⟩ := visit_cases defined limits { s with queue := queue }
  rcases cases_ with ⟨early, dropped⟩ | ⟨_, beyond⟩ | ⟨onTime, arrived⟩
  · exact .inl ⟨early, by rw [dropped]; rfl⟩
  · exact .inr (.inl ⟨.splitDepth, by rw [beyond]; rfl⟩)
  · -- Counting a number leaves the graph, what was made and the queue.
    have ready := ready_counted logical s v queue
    have coherent := grounded.coherent
    have origin := grounded.origin v (next ▸ List.mem_cons_self)
    rw [← ready.graph] at coherent origin
    have depth {s' : State} (done : visit logical limits { s with queue := queue } v = .ok s')
        (fork : forkAt logical v.task = true) :
        (s.lineage logical v).length ≤ limits.maxSplitDepth :=
      length_lineage_le (s := { s with queue := queue }) defined onTime fork done
    rcases arrive_cases coherent origin defined n inbound (forkAt logical v.task)
      (State.lineage logical { s with queue := queue } v) with
      ⟨_, _, beyond⟩ | ⟨g, linked, outcome⟩
    · exact .inr (.inl ⟨.instances, by rw [arrived, beyond]; rfl⟩)
    · rw [ready.graph] at outcome
      rcases outcome with ⟨known, done⟩ | ⟨new, room, es, links, done⟩
      · refine .inr (.inr ⟨_, by rw [arrived, done]; rfl, ?_⟩)
        exact admits_of_linked ready (depth (arrived.trans done)) linked
          (.inl ⟨known, ready.queue⟩)
      · refine .inr (.inr ⟨_, by rw [arrived, done]; rfl, ?_⟩)
        rw [← linked.nodes] at room
        exact admits_of_linked ready (depth (arrived.trans done)) linked
          (.inr ⟨new, room, es, links, by rw [ready.queue]; rfl⟩)

namespace Admits

/-- What waits behind an admitted arrival has waited before, or goes on from the new node. -/
theorem queue_cases (admits : Admits logical limits s v queue s') {w : Visit}
    (waiting : w ∈ s'.queue) :
    w ∈ queue ∨ s'.graph.ids = s.graph.ids ++ [nodeId v.task (s.lineage logical v)] ∧
      ∃ e ∈ logical.edges, e.source = v.task ∧
        w = ⟨e.destination, s.lineage logical v, some (nodeId v.task (s.lineage logical v), e)⟩ := by
  rcases admits.node with ⟨_, _, _, same⟩ | ⟨ids, _, _, es, links, same⟩
  · exact .inl (same ▸ waiting)
  · rw [same] at waiting
    rcases List.mem_append.mp waiting with old | new
    · exact .inl old
    · obtain ⟨e, link, rfl⟩ := List.mem_map.mp new
      obtain ⟨known, source⟩ := (mem_next_iff links).mp link
      exact .inr ⟨ids, e, known, source, rfl⟩

theorem ids_subset (admits : Admits logical limits s v queue s') : s.graph.ids ⊆ s'.graph.ids := by
  rcases admits.node with ⟨ids, _⟩ | ⟨ids, _⟩
  · exact ids ▸ List.Subset.refl _
  · exact ids ▸ List.subset_append_left _ _

/-- Either the node was there, or one is made, for which there is room, and which sends on arrivals. -/
theorem length_cases (admits : Admits logical limits s v queue s') :
    s'.graph.nodes.length = s.graph.nodes.length ∧ s'.queue = queue ∨
      s'.graph.nodes.length = s.graph.nodes.length + 1 ∧
        s'.graph.nodes.length ≤ limits.maxInstances ∧
        s'.queue.length ≤ queue.length + logical.edges.length := by
  rcases admits.node with ⟨ids, _, _, same⟩ | ⟨ids, room, _, es, links, same⟩
  · have length := congrArg List.length ids
    simp only [Graph.ids, List.length_map] at length
    exact .inl ⟨length, same⟩
  · have length := congrArg List.length ids
    simp only [Graph.ids, List.length_append, List.length_map, List.length_singleton] at length
    have ways := length_next_le links
    refine .inr ⟨length, room, ?_⟩
    rw [same, List.length_append, List.length_map]
    omega

/-- Admitting an arrival keeps the invariant. -/
theorem grounded (admits : Admits logical limits s v queue s') (before : Grounded logical s)
    (rest : queue ⊆ s.queue) : Grounded logical s' := by
  refine ⟨admits.coherent, ?_, fun w waiting => ?_, fun w waiting o from_ => ?_⟩
  · have made := before.made
    rcases admits.node with ⟨ids, _, made', _⟩ | ⟨ids, _, made', _⟩ <;>
    · have length := congrArg List.length ids
      simp only [Graph.ids, List.length_append, List.length_map, List.length_singleton] at length
      simp only [made', List.length_append, List.length_singleton]
      omega
  · rcases admits.queue_cases waiting with old | ⟨_, e, known, source, rfl⟩
    · exact before.arrive w (rest old)
    · exact .inr ⟨v.task, e, known, source, rfl⟩
  · rcases admits.queue_cases waiting with old | ⟨ids, e, _, _, rfl⟩
    · exact admits.ids_subset (before.origin w (rest old) o from_)
    · cases from_
      rw [ids]
      exact List.mem_append_right _ List.mem_cons_self

end Admits

/-- No step deals with an arrival at a task that is not there. -/
theorem defined_of_takes (next : s.queue = v :: queue) (taken : Takes (step logical limits) s s') :
    v.task ∈ logical.ids := by
  unfold Takes at taken
  rw [step_of_cons next, map_some_eq_ok_iff] at taken
  exact defined_of_visit_ok taken

/-- A step that is taken drops the next arrival, or admits it. -/
theorem Grounded.cases_of_takes (grounded : Grounded logical s) (next : s.queue = v :: queue)
    (taken : Takes (step logical limits) s s') :
    tooEarly logical v.task v.splits = true ∧ s' = { s with queue := queue } ∨
      Admits logical limits s v queue s' := by
  have defined := defined_of_takes next taken
  unfold Takes at taken
  rcases grounded.step_cases next defined limits with
    ⟨early, dropped⟩ | ⟨b, failed⟩ | ⟨s'', entered, admits⟩
  · cases dropped.symm.trans taken
    exact .inl ⟨early, rfl⟩
  · cases failed.symm.trans taken
  · cases entered.symm.trans taken
    exact .inr admits

/-- One step keeps the expansion grounded, whether it admits the arrival, drops it or adds transitions
to a node that is there. -/
theorem Grounded.takes (grounded : Grounded logical s) (taken : Takes (step logical limits) s s') :
    Grounded logical s' := by
  obtain ⟨v, queue, next⟩ := exists_head_of_takes taken
  have rest : queue ⊆ s.queue := next ▸ List.subset_cons_self v queue
  rcases grounded.cases_of_takes next taken with ⟨_, rfl⟩ | admits
  · exact ⟨grounded.coherent, grounded.made, fun w waiting => grounded.arrive w (rest waiting),
      fun w waiting => grounded.origin w (rest waiting)⟩
  · exact admits.grounded grounded rest

theorem grounded_of_runs (run : Runs (step logical limits) (.start logical) s) :
    Grounded logical s :=
  run.preserves (fun _ _ => Grounded.takes) (grounded_start logical)

end Workflow.Composition.Expansion
