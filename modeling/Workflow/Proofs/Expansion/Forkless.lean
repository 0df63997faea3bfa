import Workflow.Proofs.Direct.Parallel
import Workflow.Proofs.Expansion.Outcome

/-!
Expansions of graphs without forks. There is nothing to carry out, so the walk makes the graph anew: it
enters the nodes breadth first, and when it enters a node it adds the transitions that lead there, all
those from one node at once and in their order.
-/

namespace Workflow.Composition.Expansion

open Workflow.Graph

variable {g : Graph} {limits : Limits} {s s' : State} {v : Visit} {queue : List Visit} {n : Node}
  {a b t : String} {e : Edge}

/-- No task is a fork, and none is noted to be behind one. -/
structure Forkless (g : Graph) : Prop where
  coherent : g.Coherent
  count : g.KeysCount
  named : ∀ n ∈ g.nodes, n.name = n.id
  outer : ∀ n ∈ g.nodes, n.splits = []
  plain : ∀ t, forkAt g t = false

/-- Nothing comes too early where no forks are expected. -/
theorem Forkless.not_tooEarly (forkless : Forkless g) : tooEarly g t [] = false := by
  unfold tooEarly
  split
  next n found => simp [isEarly, forkless.outer n (mem_of_task found).1]
  next => rfl

theorem merge_entry (named : n.name = n.id) (outer : n.splits = []) :
    n.merge (entryAttributes n n.id []) = n ∧
      (Node.ofId n.id).merge (entryAttributes n n.id []) = n := by
  obtain ⟨id, name, barrier, splits, retry⟩ := n
  dsimp only at named outer
  subst named outer
  cases barrier <;> cases retry <;> exact ⟨rfl, rfl⟩

/-- The node that is entered is the one of the graph; it is made if it is new. -/
theorem Forkless.nodes_entered (forkless : Forkless g) (found : g.task t = .ok n)
    (part : ∀ m ∈ s.graph.nodes, m ∈ g.nodes) :
    (s.entered n t []).graph.nodes =
      if t ∈ s.graph.ids then s.graph.nodes else s.graph.nodes ++ [n] := by
  obtain ⟨inside, rfl⟩ := mem_of_task found
  obtain ⟨again, new⟩ := merge_entry (forkless.named n inside) (forkless.outer n inside)
  have id : nodeId n.id [] = n.id := rfl
  unfold State.entered addTask
  rw [id]
  split
  next known =>
    rw [if_pos (contains_iff.mp known)]
    refine (List.map_congr_left fun m known => ?_).trans (List.map_id _)
    by_cases same : m.id = n.id
    · obtain rfl := eq_of_id_eq forkless.coherent.unique (part m known) inside same
      rw [if_pos (beq_self_eq_true _)]
      exact again
    · rw [if_neg (by simpa using same)]
      rfl
  next unknown =>
    rw [contains_iff] at unknown
    rw [if_neg unknown, new]

theorem Forkless.mem_of_entered (forkless : Forkless g) (found : g.task t = .ok n)
    (part : ∀ m ∈ s.graph.nodes, m ∈ g.nodes) {m : Node}
    (inside : m ∈ (s.entered n t []).graph.nodes) : m ∈ g.nodes := by
  rw [forkless.nodes_entered found part] at inside
  split at inside
  · exact part m inside
  · rcases List.mem_append.mp inside with old | new
    · exact part m old
    · rw [List.mem_singleton.mp new]
      exact (mem_of_task found).1

theorem between_entered (s : State) (n : Node) (t : String) (splits : List Split) (a b : String) :
    (s.entered n t splits).graph.between a b = s.graph.between a b := by
  unfold Graph.between
  rw [edges_entered]

theorem ids_entered (s : State) (n : Node) (t : String) : (s.entered n t []).graph.ids =
    if t ∈ s.graph.ids then s.graph.ids else s.graph.ids ++ [t] := by
  unfold State.entered nodeId
  rw [ids_addTask]
  simp only [contains_iff, List.getLast?_nil]

theorem made_entered_of_outer (made : s.made = s.graph.ids) (n : Node) (t : String) :
    (s.entered n t []).made = (s.entered n t []).graph.ids := by
  rw [ids_entered]
  unfold State.entered nodeId
  by_cases known : t ∈ s.graph.ids
  · simp [made, known, contains_iff.mpr known]
  · simp [made, known, contains_eq_false_iff.mpr known]

theorem nodesBehind_of_outer {nodes : List Node} (outer : ∀ n ∈ nodes, n.splits = [])
    (unique : (nodes.map Node.id).Nodup) :
    nodesBehind a [] (nodes.map Node.id) nodes = if a ∈ nodes.map Node.id then [a] else [] := by
  induction nodes with
  | nil => rfl
  | cons n nodes ih =>
    rw [List.map_cons, List.nodup_cons] at unique
    have rest := ih (fun m inside => outer m (List.mem_cons_of_mem n inside)) unique.2
    rw [List.map_cons, nodesBehind, rest, outer n List.mem_cons_self]
    by_cases own : n.id = a
    · subst own
      simp [unique.1]
    · simp [own, Ne.symm own]

/-- The origins of the transitions into a node, from one other node: the one that the arrival came along,
if it came from there, and all of them, if the node is there. -/
theorem filter_origins (outer : ∀ n ∈ s.graph.nodes, n.splits = []) (unique : s.graph.ids.Nodup)
    (made : s.made = s.graph.ids) (v : Visit) (inbound : List Edge) (a : String) :
    (origins s v false [] inbound).filter (fun o => o.1 == a) =
      v.prev.toList.filter (fun o => o.1 == a) ++
        if a ∈ s.graph.ids then (inbound.filter fun e => e.source == a).map fun e => (a, e)
        else [] := by
  unfold origins
  rw [List.filter_append, if_neg Bool.false_ne_true, made]
  congr 1
  induction inbound with
  | nil => simp
  | cons e inbound ih =>
    have own : nodesBehind e.source [] s.graph.ids s.graph.nodes =
        if e.source ∈ s.graph.ids then [e.source] else [] :=
      nodesBehind_of_outer outer unique
    rw [List.flatMap_cons, List.filter_append, ih, own]
    by_cases same : e.source = a
    · subst same
      by_cases known : e.source ∈ s.graph.ids <;> simp [known]
    · by_cases known : e.source ∈ s.graph.ids <;> simp [known, same]

/-- A transition that is noted again, just as it is, changes nothing. -/
theorem notedFrom_of_mem (coherent : g.Coherent) {es : List Edge} (part : es ⊆ g.between a t)
    (inside : e ∈ es) : notedFrom t es (a, e) = es := by
  obtain ⟨edge, rfl, rfl⟩ := mem_between.mp (part inside)
  unfold notedFrom noted renameInGuards
  rw [if_pos rfl, if_pos ⟨e, inside, rfl⟩]
  refine (List.map_congr_left fun f listed => ?_).trans (List.map_id _)
  obtain ⟨edge', source, target⟩ := mem_between.mp (part listed)
  by_cases same : f.criteria = e.criteria
  · obtain rfl := coherent.eq_of_criteria_eq edge' edge source target same
    rw [if_pos rfl]
    cases f with
    | mk source destination key criteria ordinal => cases ordinal <;> rfl
  · rw [if_neg same]
    rfl

theorem foldl_notedFrom_of_subset (coherent : g.Coherent) {es : List Edge}
    (part : es ⊆ g.between a t) :
    (es.map fun e => (a, e)).foldl (notedFrom t) (g.between a t) = g.between a t := by
  induction es with
  | nil => rfl
  | cons e es ih =>
    obtain ⟨inside, others⟩ := List.cons_subset.mp part
    rw [List.map_cons, List.foldl_cons, notedFrom_of_mem coherent (List.Subset.refl _) inside]
    exact ih others

/-- The next transition between two nodes, behind those before it, gets the key that it has. -/
theorem notedFrom_next (coherent : g.Coherent) (count : g.KeysCount) {before es : List Edge}
    (all : g.between a t = before ++ e :: es) : notedFrom t before (a, e) = before ++ [e] := by
  have inside : e ∈ g.between a t := by simp [all]
  obtain ⟨_, source, target⟩ := mem_between.mp inside
  have keys := count a t
  rw [all, List.length_append, List.map_append, List.range_add] at keys
  obtain ⟨keys, later⟩ := List.append_inj keys (by simp)
  have key : e.key = before.length := by
    rw [List.length_cons, List.range_succ_eq_map] at later
    simpa using congrArg List.head? later
  have apart : (before ++ e :: es).Pairwise Edge.Apart := all ▸ coherent.apart.filter _
  have new : ¬∃ f ∈ before, f.criteria = e.criteria := by
    rintro ⟨f, earlier, same⟩
    have listed : f ∈ g.between a t := all ▸ List.mem_append_left _ earlier
    obtain ⟨_, source', target'⟩ := mem_between.mp listed
    exact ((List.pairwise_append.mp apart).2.2 f earlier e List.mem_cons_self
      (source'.trans source.symm) (target'.trans target.symm)).2 same
  unfold notedFrom noted renameInGuards
  rw [if_pos source, if_neg new, Direct.freshKey_of_range keys]
  obtain ⟨source, destination, key, criteria, ordinal⟩ := e
  dsimp only at *
  subst source target key
  rfl

/-- Transitions that are noted in their order are those between the two nodes in the end. -/
theorem foldl_notedFrom_append (coherent : g.Coherent) (count : g.KeysCount) {before es : List Edge}
    (all : g.between a t = before ++ es) :
    (es.map fun e => (a, e)).foldl (notedFrom t) before = g.between a t := by
  induction es generalizing before with
  | nil => simp [all]
  | cons e es ih =>
    rw [List.map_cons, List.foldl_cons, notedFrom_next coherent count all]
    exact ih (by rw [all]; simp)

/-- The transitions from one node to another that the arrivals to come are along. -/
def waiting (queue : List Visit) (a b : String) : List Edge :=
  (queue.filterMap fun v => v.prev.map Prod.snd).filter fun e =>
    e.source == a && e.destination == b

/-- The arrival is at a root, or along a transition out of a node that is there. -/
def Follows (g : Graph) (s : State) (v : Visit) : Prop :=
  v.splits = [] ∧ (v.prev = none ∨
    ∃ e ∈ g.edges, e.source ∈ s.graph.ids ∧ e.destination = v.task ∧ v.prev = some (e.source, e))

/-- What holds throughout the expansion of a graph without forks. Of the transitions from one node to
another all are there or none; if none are, then arrivals along them are to come, in their order, once
their source is there. -/
structure Retraces (g : Graph) (s : State) : Prop where
  coherent : s.graph.Coherent
  made : s.made = s.graph.ids
  nodes : ∀ n ∈ s.graph.nodes, n ∈ g.nodes
  queue : ∀ v ∈ s.queue, Follows g s v
  between : ∀ a b, s.graph.between a b = g.between a b ∨ s.graph.between a b = [] ∧
    waiting s.queue a b = if a ∈ s.graph.ids then g.between a b else []
  explored : Explored g.roots g.following s.graph.ids
  met : (s.graph.ids ++ s.queue.map Visit.task).eraseDups =
    comeUp g.roots g.following s.graph.ids

theorem retraces_start (g : Graph) : Retraces g (.start g) := by
  refine ⟨coherent_empty, rfl, nofun, fun v inside => ?_, fun a b => .inr ⟨rfl, ?_⟩, .nil, ?_⟩
  · obtain ⟨r, _, rfl⟩ := List.mem_map.mp inside
    exact ⟨rfl, .inl rfl⟩
  · simp [waiting, State.start, Graph.empty, Graph.ids]
  · simp [State.start, Graph.empty, Graph.ids, comeUp, Function.comp_def]

/-- What the next step of such an expansion does: the node is there, with all transitions to it from nodes
that are there, and arrivals at what follows it are to come, if it is new. -/
structure Passes (g : Graph) (s : State) (v : Visit) (queue : List Visit) (s' : State) : Prop where
  coherent : s'.graph.Coherent
  made : s'.made = s'.graph.ids
  nodes : ∀ n ∈ s'.graph.nodes, n ∈ g.nodes
  ids : s'.graph.ids = if v.task ∈ s.graph.ids then s.graph.ids else s.graph.ids ++ [v.task]
  into : ∀ a, s'.graph.between a v.task =
    if a ∈ s'.graph.ids then g.between a v.task else s.graph.between a v.task
  elsewhere : ∀ {a b}, b ≠ v.task → s'.graph.between a b = s.graph.between a b
  queue : v.task ∈ s.graph.ids ∧ s'.queue = queue ∨ v.task ∉ s.graph.ids ∧
    ∃ es, g.next v.task = .ok es ∧
      s'.queue = queue ++ es.map fun e => ⟨e.destination, [], some (v.task, e)⟩

namespace Retraces

/-- If the next arrival comes from a node, then along a transition from there. -/
theorem along_cases (retraces : Retraces g s) (next : s.queue = v :: queue) (a : String) :
    v.prev.toList.filter (fun o => o.1 == a) = [] ∨
      ∃ e ∈ g.between a v.task, a ∈ s.graph.ids ∧ v.prev = some (a, e) := by
  rcases (retraces.queue v (next ▸ List.mem_cons_self)).2 with
    none_ | ⟨e, edge, known, target, before⟩
  · exact .inl (by rw [none_]; rfl)
  · by_cases own : e.source = a
    · subst own
      exact .inr ⟨e, mem_between.mpr ⟨edge, rfl, target⟩, known, before⟩
    · exact .inl (by simp [before, own])

/-- All transitions from a node that is there are noted when the node is entered that they lead to. -/
theorem foldl_origins (retraces : Retraces g s) (forkless : Forkless g)
    (next : s.queue = v :: queue) {ids : List String} (kept : s.graph.ids ⊆ ids) (a : String) :
    (v.prev.toList.filter (fun o => o.1 == a) ++
      if a ∈ ids then (g.between a v.task).map fun e => (a, e) else []).foldl (notedFrom v.task)
        (s.graph.between a v.task) =
      if a ∈ ids then g.between a v.task else s.graph.between a v.task := by
  have coherent := forkless.coherent
  rcases retraces.along_cases next a with nothing | ⟨e, inside, known, before⟩
  · rw [nothing, List.nil_append]
    by_cases known : a ∈ ids
    · rw [if_pos known, if_pos known]
      rcases retraces.between a v.task with all | ⟨none_, _⟩
      · rw [all]
        exact foldl_notedFrom_of_subset coherent (List.Subset.refl _)
      · rw [none_]
        exact foldl_notedFrom_append coherent forkless.count (List.nil_append _).symm
    · rw [if_neg known, if_neg known]
      rfl
  · rw [if_pos (kept known), if_pos (kept known), before]
    have first : (some (a, e)).toList.filter (fun o => o.1 == a) = [(a, e)] := by simp
    rw [first, List.singleton_append, List.foldl_cons]
    rcases retraces.between a v.task with all | ⟨none_, waits⟩
    · rw [all, notedFrom_of_mem coherent (List.Subset.refl _) inside]
      exact foldl_notedFrom_of_subset coherent (List.Subset.refl _)
    · -- The arrival is the first that is to come along the transitions from there.
      obtain ⟨_, source, target⟩ := mem_between.mp inside
      rw [if_pos known, next] at waits
      have all : g.between a v.task = e :: waiting queue a v.task := by
        rw [← waits]
        simp [waiting, before, source, target]
      have part : [e] ⊆ g.between a v.task := by simpa using inside
      have once : notedFrom v.task [] (a, e) = [] ++ [e] :=
        notedFrom_next coherent forkless.count all
      rw [none_, once, List.nil_append, all, List.map_cons, List.foldl_cons,
        notedFrom_of_mem coherent part List.mem_cons_self, ← all]
      exact foldl_notedFrom_append coherent forkless.count all

/-- What a step does that enters a node, from what adding its transitions does. -/
theorem passes_of_linked (retraces : Retraces g s) (forkless : Forkless g)
    (next : s.queue = v :: queue) {s₀ : State} (ready : s₀ = { s with queue := queue })
    (found : g.task v.task = .ok n) {inbound : List Edge} (led : g.prev v.task = .ok inbound)
    {g' : Graph} (linked : Linked (s₀.entered n v.task []).graph v.task
      (origins (s₀.entered n v.task []) v false [] inbound) g') {rest : List Visit}
    (queued : v.task ∈ s.graph.ids ∧ rest = queue ∨ v.task ∉ s.graph.ids ∧
      ∃ es, g.next v.task = .ok es ∧
        rest = queue ++ es.map fun e => ⟨e.destination, [], some (v.task, e)⟩) :
    Passes g s v queue { s₀.entered n v.task [] with graph := g', queue := rest } := by
  subst ready
  have entered : (State.entered { s with queue := queue } n v.task []).graph.ids = g'.ids := by
    unfold Graph.ids
    rw [linked.nodes]
  have made := made_entered_of_outer (s := { s with queue := queue }) retraces.made n v.task
  have ids : g'.ids = if v.task ∈ s.graph.ids then s.graph.ids else s.graph.ids ++ [v.task] := by
    rw [← entered]
    exact ids_entered _ n v.task
  have part : ∀ m ∈ (State.entered { s with queue := queue } n v.task []).graph.nodes,
      m ∈ g.nodes :=
    fun _ => forkless.mem_of_entered (s := { s with queue := queue }) found retraces.nodes
  have kept : s.graph.ids ⊆ g'.ids := by
    rw [ids]
    split
    · exact List.Subset.refl _
    · exact List.subset_append_left _ _
  have outer := fun m inside => forkless.outer m (part m inside)
  refine ⟨linked.coherent, made.trans entered, linked.nodes ▸ part, ids, fun a => ?_,
    fun apart => ?_, queued⟩
  · rw [linked.between, between_entered, filter_origins outer (entered ▸ linked.coherent.unique)
      made, forkless.count.filter_prev led, entered]
    exact retraces.foldl_origins forkless next kept a
  · exact (linked.elsewhere apart).trans (between_entered _ n v.task [] _ _)

/-- Every step of an expansion without forks passes its arrival on. -/
theorem passes (retraces : Retraces g s) (forkless : Forkless g) (next : s.queue = v :: queue)
    (taken : Takes (step g limits) s s') : Passes g s v queue s' := by
  obtain ⟨outer, along⟩ := retraces.queue v (next ▸ List.mem_cons_self)
  unfold Takes at taken
  rw [step_of_cons next, map_some_eq_ok_iff] at taken
  have defined := defined_of_visit_ok taken
  have lineage : State.lineage g { s with queue := queue } v = [] := by
    rw [lineage_of_not_fork (forkless.plain v.task), outer]
  have counted : State.counted g { s with queue := queue } v = { s with queue := queue } := by
    unfold State.counted
    rw [forkless.plain, if_neg Bool.false_ne_true]
  have origin : ∀ o, v.prev = some o → o.1 ∈ s.graph.ids := by
    intro o before
    rcases along with none_ | ⟨e, _, known, _, before'⟩
    · cases none_.symm.trans before
    · cases before'.symm.trans before
      exact known
  obtain ⟨n, inbound, found, led, cases_⟩ := visit_cases defined limits { s with queue := queue }
  rw [outer, forkless.not_tooEarly, lineage, counted, forkless.plain] at cases_
  rcases cases_ with ⟨early, _⟩ | ⟨_, failed⟩ | ⟨_, arrived⟩
  · cases early
  · cases failed.symm.trans taken
  · rw [arrived] at taken
    rcases arrive_cases (s := { s with queue := queue }) retraces.coherent origin defined n inbound
      false [] with ⟨_, _, failed⟩ | ⟨g', linked, ⟨old, done⟩ | ⟨new, _, es, links, done⟩⟩
    · cases failed.symm.trans taken
    · cases done.symm.trans taken
      exact retraces.passes_of_linked forkless next rfl found led linked (.inl ⟨old, rfl⟩)
    · cases done.symm.trans taken
      exact retraces.passes_of_linked forkless next rfl found led linked
        (.inr ⟨new, es, links, rfl⟩)

end Retraces

theorem waiting_append (queue queue' : List Visit) (a b : String) :
    waiting (queue ++ queue') a b = waiting queue a b ++ waiting queue' a b := by
  simp [waiting]

/-- The arrival itself was along no other transitions than those into its task. -/
theorem waiting_cons (follows : Follows g s v) (apart : b ≠ v.task) (queue : List Visit)
    (a : String) : waiting (v :: queue) a b = waiting queue a b := by
  rcases follows.2 with none_ | ⟨e, _, _, target, before⟩
  · simp [waiting, none_]
  · simp [waiting, before, target, apart.symm]

/-- Behind a new node, arrivals are to come along all transitions out of it. -/
theorem Forkless.waiting_next (forkless : Forkless g) {es : List Edge} (links : g.next t = .ok es)
    (a b : String) : waiting (es.map fun e => ⟨e.destination, [], some (t, e)⟩) a b =
      if a = t then g.between a b else [] := by
  have listed : waiting (es.map fun e => ⟨e.destination, [], some (t, e)⟩) a b =
      es.filter fun e => e.source == a && e.destination == b := by
    simp [waiting, List.filterMap_map]
  rw [listed]
  split
  next own =>
    subst own
    rw [← forkless.count.filter_next links b]
    refine List.filter_congr fun e inside => ?_
    simp [((mem_next_iff links).mp inside).2]
  next other =>
    refine List.filter_eq_nil_iff.mpr fun e inside => ?_
    simp [((mem_next_iff links).mp inside).2, Ne.symm other]

namespace Passes

theorem ids_subset (passes : Passes g s v queue s') :
    s.graph.ids ⊆ s'.graph.ids ∧ v.task ∈ s'.graph.ids := by
  rw [passes.ids]
  split
  next known => exact ⟨List.Subset.refl _, known⟩
  next => exact ⟨List.subset_append_left _ _, List.mem_append_right _ List.mem_cons_self⟩

theorem follows (passes : Passes g s v queue s') (old : ∀ w ∈ queue, Follows g s w) :
    ∀ w ∈ s'.queue, Follows g s' w := by
  have kept : ∀ w ∈ queue, Follows g s' w := by
    intro w inside
    obtain ⟨outer, along⟩ := old w inside
    refine ⟨outer, along.imp_right fun ⟨e, edge, known, rest⟩ => ?_⟩
    exact ⟨e, edge, passes.ids_subset.1 known, rest⟩
  intro w inside
  rcases passes.queue with ⟨_, same⟩ | ⟨_, es, links, same⟩
  · exact kept w (same ▸ inside)
  · rw [same] at inside
    rcases List.mem_append.mp inside with earlier | new
    · exact kept w earlier
    · obtain ⟨e, out, rfl⟩ := List.mem_map.mp new
      obtain ⟨edge, source⟩ := (mem_next_iff links).mp out
      exact ⟨rfl, .inr ⟨e, edge, source ▸ passes.ids_subset.2, rfl, by rw [source]⟩⟩

/-- The arrivals to come along transitions between two nodes, after a step: those that were waiting,
and all that leave a new node. -/
theorem waiting_eq (passes : Passes g s v queue s') (forkless : Forkless g) (a b : String) :
    waiting s'.queue a b = waiting queue a b ++
      if v.task ∉ s.graph.ids ∧ a = v.task then g.between a b else [] := by
  rcases passes.queue with ⟨known, same⟩ | ⟨new, es, links, same⟩
  · rw [same, if_neg fun own => own.1 known, List.append_nil]
  · rw [same, waiting_append, forkless.waiting_next links]
    simp [new]

/-- Between any two nodes all transitions are there, or are to come in their order. -/
theorem between_cases (passes : Passes g s v queue s') (retraces : Retraces g s)
    (forkless : Forkless g) (next : s.queue = v :: queue) (a b : String) :
    s'.graph.between a b = g.between a b ∨ s'.graph.between a b = [] ∧
      waiting s'.queue a b = if a ∈ s'.graph.ids then g.between a b else [] := by
  have follows := retraces.queue v (next ▸ List.mem_cons_self)
  by_cases into : b = v.task
  · subst into
    rw [passes.into]
    by_cases known : a ∈ s'.graph.ids
    · exact .inl (if_pos known)
    · have unknown : a ∉ s.graph.ids := fun inside => known (passes.ids_subset.1 inside)
      have other : a ≠ v.task := fun own => known (own ▸ passes.ids_subset.2)
      rw [if_neg known, if_neg known]
      refine (retraces.between a v.task).imp_right fun ⟨none_, waits⟩ => ⟨none_, ?_⟩
      rw [if_neg unknown, next, ← List.singleton_append, waiting_append] at waits
      rw [passes.waiting_eq forkless, (List.append_eq_nil_iff.mp waits).2]
      simp [other]
  · rw [passes.elsewhere into]
    refine (retraces.between a b).imp_right fun ⟨none_, waits⟩ => ⟨none_, ?_⟩
    rw [next, waiting_cons follows into] at waits
    rw [passes.waiting_eq forkless, waits, passes.ids]
    by_cases known : v.task ∈ s.graph.ids
    · simp [known]
    · by_cases own : a = v.task
      · simp [own, known]
      · simp [own, known]

/-- What holds throughout such an expansion is kept by one step. -/
theorem retraces (passes : Passes g s v queue s') (retraces : Retraces g s) (forkless : Forkless g)
    (next : s.queue = v :: queue) : Retraces g s' := by
  have old : ∀ w ∈ queue, Follows g s w := fun w inside =>
    retraces.queue w (next ▸ List.mem_cons_of_mem v inside)
  have met := retraces.met
  rw [next, List.map_cons] at met
  refine ⟨passes.coherent, passes.made, passes.nodes, passes.follows old,
    passes.between_cases retraces forkless next, ?_, ?_⟩
  · rw [passes.ids]
    split
    next => exact retraces.explored
    next new =>
      refine retraces.explored.concat ?_
      rw [← met]
      exact getElem?_eraseDups_of_not_mem retraces.coherent.unique new _
  · rw [passes.ids]
    rcases passes.queue with ⟨known, same⟩ | ⟨new, es, links, same⟩
    · rw [if_pos known, same, ← met]
      exact (eraseDups_append_cons_of_mem known _).symm
    · rw [if_neg new, same, comeUp_concat, following_of_next links]
      have more := eraseDups_append_congr met (es.map Edge.destination)
      simpa [Function.comp_def] using more

end Passes

theorem retraces_of_runs (forkless : Forkless g) (run : Runs (step g limits) (.start g) s) :
    Retraces g s := by
  induction run with
  | refl => exact retraces_start g
  | tail _ taken ih =>
    obtain ⟨v, queue, next⟩ := exists_head_of_takes taken
    exact (ih.passes forkless next taken).retraces ih forkless next

/-- In the end, all that has come up has been passed. -/
theorem Retraces.comeUp_eq (retraces : Retraces g s) (done : s.queue = []) :
    comeUp g.roots g.following s.graph.ids = s.graph.ids := by
  rw [← retraces.met, done, List.map_nil, List.append_nil]
  exact eraseDups_of_nodup retraces.coherent.unique

/-- So whatever can be arrived at has a node. -/
theorem Retraces.mem_ids (retraces : Retraces g s) (done : s.queue = []) {σ : List String}
    (arrives : (network g).Arrives t σ) : t ∈ s.graph.ids := by
  induction arrives with
  | start root =>
    rw [← retraces.comeUp_eq done, mem_comeUp_iff]
    exact .inl root
  | follow _ link ih =>
    rw [← retraces.comeUp_eq done, mem_comeUp_iff]
    exact .inr ⟨_, ih, mem_following_iff.mpr link⟩

end Workflow.Composition.Expansion

namespace Workflow.Composition

open Workflow.Graph Expansion

variable {g x : Graph} {limits : Limits}

/-- Two graphs have the same nodes and the same transitions, in whatever order. -/
structure SameParts (x g : Graph) : Prop where
  nodes : x.nodes.Perm g.nodes
  edges : x.edges.Perm g.edges

/-- A graph without forks is its own expansion, with the nodes in the breadth-first order. -/
theorem expand_of_forkless (forkless : Forkless g)
    (arrives : ∀ t ∈ g.ids, ∃ σ, (network g).Arrives t σ) (expanded : expand limits g = .ok x) :
    SameParts x g ∧ Explored g.roots g.following x.ids ∧
      comeUp g.roots g.following x.ids = x.ids := by
  obtain ⟨s, run, done, rfl⟩ := expand_ok expanded
  have retraces := retraces_of_runs forkless run
  have all : ∀ t ∈ g.ids, t ∈ s.graph.ids := by
    intro t known
    obtain ⟨σ, leads⟩ := arrives t known
    exact retraces.mem_ids done leads
  have between : ∀ a b, s.graph.between a b = g.between a b := by
    intro a b
    rcases retraces.between a b with same | ⟨none_, waits⟩
    · exact same
    · rw [none_]
      rw [done] at waits
      by_cases known : a ∈ s.graph.ids
      · rw [if_pos known] at waits
        exact waits
      · refine (List.eq_nil_iff_forall_not_mem.mpr fun e inside => known (all a ?_)).symm
        obtain ⟨edge, rfl, _⟩ := mem_between.mp inside
        exact forkless.coherent.source_mem e edge
  refine ⟨⟨?_, ?_⟩, retraces.explored, retraces.comeUp_eq done⟩
  · refine (List.perm_ext_iff_of_nodup retraces.coherent.unique.of_map
      forkless.coherent.unique.of_map).mpr fun n => ⟨retraces.nodes n, fun inside => ?_⟩
    obtain ⟨m, made, id⟩ := mem_ids_iff.mp (all n.id (mem_ids_iff.mpr ⟨n, inside, rfl⟩))
    have same : m = n :=
      eq_of_id_eq forkless.coherent.unique (retraces.nodes m made) inside id
    exact same ▸ made
  · refine (List.perm_ext_iff_of_nodup retraces.coherent.edges_nodup
      forkless.coherent.edges_nodup).mpr fun e => ?_
    have here : ∀ h : Graph, e ∈ h.edges ↔ e ∈ h.between e.source e.destination := by
      intro h
      simp [mem_between]
    rw [here, here, between]

end Workflow.Composition
