import Workflow.Proofs.Expansion.Unfolding

/-!
What entering a node does to the state of an expansion. The node becomes the copy of its task, whether
it is new or was there; the transitions to it come from where the arrival came, or from copies behind
the same forks.
-/

namespace Workflow.Composition.Expansion

open Workflow.Graph

variable {logical : Graph} {limits : Limits} {s s' : State} {v : Visit} {queue : List Visit}
  {n u : Node} {splits : List Split}

/-- What entering a node does to the state. -/
structure Enters (logical : Graph) (limits : Limits) (s : State) (v : Visit) (queue : List Visit)
    (n : Node) (s' : State) : Prop where
  task : logical.task v.task = .ok n
  named : n.id = v.task
  coherent : s'.graph.Coherent
  nodes : ∀ u, u ∈ s'.graph.nodes ↔
    u ∈ s.graph.nodes ∧ u.id ≠ nodeId v.task (s.lineage logical v) ∨
      u = copy n (s.lineage logical v)
  made : s'.made = s'.graph.nodes.map Node.name
  counter : ∀ t, s'.counter t = if forkAt logical v.task = true ∧ t = v.task then s.counter t + 1
    else s.counter t
  kept : ∀ {a b c}, s.graph.Leads a b c → s'.graph.Leads a b c
  led : ∀ o, v.prev = some o → s'.graph.Leads o.1 (nodeId v.task (s.lineage logical v))
    (renameInGuards o.2.criteria o.2.source o.1)
  known : ∀ e ∈ s'.graph.edges, e ∈ s.graph.edges ∨
    ∃ o : String × Edge, e.source = o.1 ∧ e.destination = nodeId v.task (s.lineage logical v) ∧
      e.criteria = renameInGuards o.2.criteria o.2.source o.1 ∧ e.ordinal = o.2.ordinal ∧
      (v.prev = some o ∨ forkAt logical v.task = false ∧
        o.2 ∈ logical.edges ∧ o.2.destination = v.task ∧
        ∃ u ∈ s'.graph.nodes,
          u.name = o.2.source ∧ u.splits = s.lineage logical v ∧ u.id = o.1)
  queue : nodeId v.task (s.lineage logical v) ∈ s.graph.ids ∧ s'.queue = queue ∧
      s'.graph.nodes.length = s.graph.nodes.length ∨
    nodeId v.task (s.lineage logical v) ∉ s.graph.ids ∧
      s'.graph.nodes.length = s.graph.nodes.length + 1 ∧
      s'.graph.nodes.length ≤ limits.maxInstances ∧
      ∃ es, logical.next v.task = .ok es ∧
        s'.queue = queue ++ es.map fun e =>
          ⟨e.destination, s.lineage logical v, some (nodeId v.task (s.lineage logical v), e)⟩

/-- The node that is entered is the copy of its task, whether it is new or was entered before. -/
theorem merge_eq_copy {g : Graph} (separated : Separated logical.ids)
    (copies : ∀ u ∈ g.nodes, Copied logical u) {t : String}
    (found : logical.task t = .ok n) {m : Node} (before : g.Before (nodeId t splits) m) :
    m.merge (entryAttributes n t splits) = copy n splits := by
  have named := (mem_of_task found).2
  have fields : m.id = nodeId t splits ∧ (m.barrier = n.barrier ∨ m.barrier = none) ∧
      (m.retry = n.retry ∨ m.retry = none) ∧ (splits = [] → m.splits = []) := by
    rcases before with ⟨inside, same⟩ | ⟨_, rfl⟩
    · obtain ⟨task, number⟩ := (copies m inside).inj separated (mem_ids_of_task found) same
      obtain ⟨barrier, retry⟩ := (copies m inside).attributes (task ▸ found)
      refine ⟨same, .inl barrier, .inl retry, ?_⟩
      rintro rfl
      exact splits_eq_nil_of_lastNumber number
    · exact ⟨rfl, .inr rfl, .inr rfl, fun _ => rfl⟩
  obtain ⟨id, barrier, retry, none_⟩ := fields
  have forks : (if splits.isEmpty then none else some splits).getD m.splits = splits := by
    cases splits with
    | nil => exact none_ rfl
    | cons a as => rfl
  have waits : (n.barrier.orElse fun _ => m.barrier) = n.barrier := by
    cases own : n.barrier with
    | none => rcases barrier with same | same <;> simp [same, own]
    | some b => rfl
  have retries : (n.retry.orElse fun _ => m.retry) = n.retry := by
    cases own : n.retry with
    | none => rcases retry with same | same <;> simp [same, own]
    | some b => rfl
  simp only [Node.merge, entryAttributes, copy, Option.getD_some, forks, waits, retries, id, named]

/-- Entering a node leaves all others as they are, and makes or changes the one with its id. -/
theorem mem_entered_iff (separated : Separated logical.ids)
    (copies : ∀ u ∈ s.graph.nodes, Copied logical u) {t : String}
    (found : logical.task t = .ok n) :
    u ∈ (s.entered n t splits).graph.nodes ↔
      u ∈ s.graph.nodes ∧ u.id ≠ nodeId t splits ∨ u = copy n splits := by
  unfold State.entered
  rw [mem_addTask]
  constructor
  · rintro (old | ⟨m, before, rfl⟩)
    · exact .inl old
    · exact .inr (merge_eq_copy separated copies found before)
  · rintro (old | rfl)
    · exact .inl old
    · obtain ⟨m, before⟩ := exists_before s.graph (nodeId t splits)
      exact .inr ⟨m, before, (merge_eq_copy separated copies found before).symm⟩

/-- Entering a node that is there leaves its name. -/
theorem made_entered (separated : Separated logical.ids)
    (copies : ∀ u ∈ s.graph.nodes, Copied logical u)
    (made : s.made = s.graph.nodes.map Node.name) {t : String}
    (found : logical.task t = .ok n) :
    (s.entered n t splits).made = (s.entered n t splits).graph.nodes.map Node.name := by
  unfold State.entered addTask
  by_cases known : nodeId t splits ∈ s.graph.ids
  · rw [contains_iff.mpr known]
    simp only [Bool.not_true, Bool.false_eq_true, if_false, if_true, modifyNode, made, List.map_map]
    refine List.map_congr_left fun m inside => ?_
    by_cases same : m.id = nodeId t splits
    · have task := ((copies m inside).inj separated (mem_ids_of_task found) same).1
      simp [same, task, Node.merge, entryAttributes]
    · simp [same]
  · rw [contains_eq_false_iff.mpr known]
    simp [made, Node.merge, entryAttributes]

theorem defined_of_visit_ok (ok : visit logical limits s v = .ok s') : v.task ∈ logical.ids := by
  cases found : logical.task v.task with
  | ok n => exact mem_ids_of_task found
  | error f =>
    unfold visit at ok
    rw [found] at ok
    cases ok

/-- The arrival was taken out of the queue, and a fork has given out its number. -/
structure Ready (logical : Graph) (s : State) (v : Visit) (queue : List Visit) (s₀ : State) :
    Prop where
  graph : s₀.graph = s.graph
  made : s₀.made = s.made
  queue : s₀.queue = queue
  counter : ∀ t, s₀.counter t = if forkAt logical v.task = true ∧ t = v.task then s.counter t + 1
    else s.counter t

theorem ready_counted (logical : Graph) (s : State) (v : Visit) (queue : List Visit) :
    Ready logical s v queue (State.counted logical { s with queue := queue } v) := by
  obtain ⟨graph, made, rest⟩ := counted_graph logical { s with queue := queue } v
  refine ⟨graph, made, rest, fun t => ?_⟩
  unfold State.counted
  cases forkAt logical v.task with
  | false =>
    simp only [Bool.false_eq_true, if_false, false_and]
    rfl
  | true =>
    rw [if_pos rfl, counter_count]
    by_cases same : t = v.task
    · simp [same, State.counter]
    · simp [same, State.counter]

theorem leads_entered {t a b : String} {c : List String} :
    (s.entered n t splits).graph.Leads a b c ↔ s.graph.Leads a b c := by
  unfold Leads
  rw [edges_entered]

theorem length_entered {t : String} :
    (s.entered n t splits).graph.nodes.length =
      if s.graph.contains (nodeId t splits) then s.graph.nodes.length
      else s.graph.nodes.length + 1 :=
  length_addTask _ _ _

/-- The transitions to a node that was entered come from where the arrival came, or from copies behind
the same forks. -/
private theorem known_of_linked {g : Graph} {inbound : List Edge}
    (separated : Separated logical.ids) (copies : ∀ u ∈ s.graph.nodes, Copied logical u)
    (made : s.made = s.graph.nodes.map Node.name) (found : logical.task v.task = .ok n)
    (led : logical.prev v.task = .ok inbound)
    (linked : Linked (s.entered n v.task splits).graph (nodeId v.task splits)
      (origins (s.entered n v.task splits) v (forkAt logical v.task) splits inbound) g) :
    ∀ e ∈ g.edges, e ∈ s.graph.edges ∨
      ∃ o : String × Edge, e.source = o.1 ∧ e.destination = nodeId v.task splits ∧
        e.criteria = renameInGuards o.2.criteria o.2.source o.1 ∧ e.ordinal = o.2.ordinal ∧
        (v.prev = some o ∨ forkAt logical v.task = false ∧
          o.2 ∈ logical.edges ∧ o.2.destination = v.task ∧
          ∃ u ∈ g.nodes, u.name = o.2.source ∧ u.splits = splits ∧ u.id = o.1) := by
  intro e inside
  rcases linked.known e inside with old | ⟨o, origin, source, target, criteria, ordinal⟩
  · rw [edges_entered] at old
    exact .inl old
  · refine .inr ⟨o, source, target, criteria, ordinal, ?_⟩
    rcases mem_origins_iff.mp origin with before | ⟨plain, into, behind⟩
    · exact .inl before
    · rw [made_entered separated copies made found, mem_nodesBehind_iff, ← linked.nodes] at behind
      obtain ⟨link, target'⟩ := (mem_prev_iff led).mp into
      exact .inr ⟨plain, link, target', behind⟩

/-- The state after the node was entered and transitions lead to it. -/
private theorem enters_of_linked {s₀ : State} {g : Graph} {inbound : List Edge} {rest : List Visit}
    (unfolded : Unfolded logical s) (separated : Separated logical.ids)
    (ready : Ready logical s v queue s₀) (found : logical.task v.task = .ok n)
    (led : logical.prev v.task = .ok inbound)
    (linked : Linked (s₀.entered n v.task (s.lineage logical v)).graph
      (nodeId v.task (s.lineage logical v))
      (origins (s₀.entered n v.task (s.lineage logical v)) v (forkAt logical v.task)
        (s.lineage logical v) inbound) g)
    (queued : nodeId v.task (s.lineage logical v) ∈ s.graph.ids ∧ rest = queue ∨
      nodeId v.task (s.lineage logical v) ∉ s.graph.ids ∧ g.nodes.length ≤ limits.maxInstances ∧
        ∃ es, logical.next v.task = .ok es ∧ rest = queue ++ es.map fun e =>
          ⟨e.destination, s.lineage logical v, some (nodeId v.task (s.lineage logical v), e)⟩) :
    Enters logical limits s v queue n
      { s₀.entered n v.task (s.lineage logical v) with graph := g, queue := rest } := by
  have copies : ∀ u ∈ s₀.graph.nodes, Copied logical u := by
    rw [ready.graph]
    exact fun u inside => (unfolded.nodes u inside).copied
  have names : s₀.made = s₀.graph.nodes.map Node.name := by
    rw [ready.made, ready.graph]
    exact unfolded.made
  have length : g.nodes.length =
      if s.graph.contains (nodeId v.task (s.lineage logical v)) then s.graph.nodes.length
      else s.graph.nodes.length + 1 := by
    rw [linked.nodes, length_entered, ready.graph]
  refine ⟨found, (mem_of_task found).2, linked.coherent, ?_, ?_, ready.counter, ?_, ?_, ?_, ?_⟩
  · intro u
    rw [linked.nodes, mem_entered_iff separated copies found, ready.graph]
  · dsimp only
    rw [linked.nodes]
    exact made_entered separated copies names found
  · intro a b c leads
    rw [← ready.graph] at leads
    exact linked.kept (leads_entered.mpr leads)
  · exact fun o before => linked.led o (mem_origins_iff.mpr (.inl before))
  · rw [← ready.graph]
    exact known_of_linked separated copies names found led linked
  · rcases queued with ⟨old, same⟩ | ⟨new, room, es, links, same⟩
    · rw [if_pos (contains_iff.mpr old)] at length
      exact .inl ⟨old, same, length⟩
    · rw [contains_eq_false_iff.mpr new] at length
      exact .inr ⟨new, length, room, es, links, same⟩

/-- An arrival is dropped if it is early, and otherwise enters a node. -/
theorem Unfolded.enters (unfolded : Unfolded logical s) (separated : Separated logical.ids)
    (next : s.queue = v :: queue) (taken : Takes (step logical limits) s s') :
    tooEarly logical v.task v.splits = true ∧ s' = { s with queue := queue } ∨
      tooEarly logical v.task v.splits = false ∧ ∃ n, Enters logical limits s v queue n s' := by
  unfold Takes at taken
  rw [step_of_cons next, map_some_eq_ok_iff] at taken
  have defined := defined_of_visit_ok taken
  obtain ⟨n, inbound, found, led, cases_⟩ := visit_cases defined limits { s with queue := queue }
  rcases cases_ with ⟨early, dropped⟩ | ⟨_, failed⟩ | ⟨onTime, arrived⟩
  · rw [dropped] at taken
    exact .inl ⟨early, (Except.ok.inj taken).symm⟩
  · rw [failed] at taken
    cases taken
  · refine .inr ⟨onTime, n, ?_⟩
    have ready := ready_counted logical s v queue
    have coherent := unfolded.coherent
    have origin : ∀ o, v.prev = some o → o.1 ∈ s.graph.ids := by
      intro o before
      exact (unfolded.queue v (next ▸ List.mem_cons_self)).prev_mem before
    rw [← ready.graph] at coherent origin
    rw [arrived] at taken
    rcases arrive_cases coherent origin defined n inbound (forkAt logical v.task)
      (s.lineage logical v) with ⟨_, _, failed⟩ | ⟨g, linked, entered⟩
    · cases failed.symm.trans taken
    · rw [ready.graph] at entered
      rcases entered with ⟨old, done⟩ | ⟨new, room, es, links, done⟩
      · cases done.symm.trans taken
        exact enters_of_linked unfolded separated ready found led linked (.inl ⟨old, ready.queue⟩)
      · cases done.symm.trans taken
        rw [← linked.nodes] at room
        exact enters_of_linked unfolded separated ready found led linked
          (.inr ⟨new, room, es, links, by rw [ready.queue]⟩)

/-- An arrival that is on time enters a node. -/
theorem Unfolded.exists_enters (unfolded : Unfolded logical s) (separated : Separated logical.ids)
    (next : s.queue = v :: queue) (taken : Takes (step logical limits) s s')
    (onTime : tooEarly logical v.task v.splits = false) :
    ∃ n, Enters logical limits s v queue n s' := by
  rcases unfolded.enters separated next taken with ⟨early, _⟩ | ⟨_, enters⟩
  · rw [early] at onTime
    cases onTime
  · exact enters

namespace Enters

theorem copy_mem (enters : Enters logical limits s v queue n s') :
    copy n (s.lineage logical v) ∈ s'.graph.nodes :=
  (enters.nodes _).mpr (.inr rfl)

theorem copy_name (enters : Enters logical limits s v queue n s') :
    (copy n (s.lineage logical v)).name = v.task :=
  enters.named

theorem copy_id (enters : Enters logical limits s v queue n s') :
    (copy n (s.lineage logical v)).id = nodeId v.task (s.lineage logical v) :=
  congrArg (nodeId · (s.lineage logical v)) enters.named

theorem counter_le (enters : Enters logical limits s v queue n s') (t : String) :
    s.counter t ≤ s'.counter t := by
  rw [enters.counter]
  split <;> omega

/-- What waits after a node was entered has waited before, or goes on from this node. -/
theorem queue_cases (enters : Enters logical limits s v queue n s') {w : Visit}
    (waiting : w ∈ s'.queue) :
    w ∈ queue ∨ ∃ f ∈ logical.edges, f.source = v.task ∧
      w = ⟨f.destination, s.lineage logical v, some (nodeId v.task (s.lineage logical v), f)⟩ := by
  rcases enters.queue with ⟨_, same, _⟩ | ⟨_, _, _, es, links, same⟩
  · exact .inl (same ▸ waiting)
  · rw [same] at waiting
    rcases List.mem_append.mp waiting with old | new
    · exact .inl old
    · obtain ⟨f, link, rfl⟩ := List.mem_map.mp new
      obtain ⟨known, source⟩ := (mem_next_iff links).mp link
      exact .inr ⟨f, known, source, rfl⟩

theorem queue_subset (enters : Enters logical limits s v queue n s') : queue ⊆ s'.queue := by
  rcases enters.queue with ⟨_, same, _⟩ | ⟨_, _, _, es, _, same⟩
  · rw [same]
    exact List.Subset.refl _
  · rw [same]
    exact List.subset_append_left _ _

end Enters

end Workflow.Composition.Expansion
