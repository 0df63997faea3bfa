import Mathlib
import Workflow.Proofs.Expansion.Arrivals

/-!
The instances of a fork. Every arrival at a fork makes a node with the next number, so their number is
that of the arrivals that the nodes before it send out; the arrival is the only way into the node, and
whatever lies behind it goes on with the forks that the node is behind.
-/

namespace Workflow.Composition

open Workflow.Graph

/-- The ids of the nodes that stand for a task, in the order in which they were made. -/
def instancesOf (x : Graph) (t : String) : List String :=
  (x.nodes.filter fun u => u.name == t).map Node.id

/-- How many arrivals at a task the nodes of an expansion send out: one along each transition into the
task, from each node that stands for its source. -/
def arrivalsAt (logical x : Graph) (t : String) : Nat :=
  ((logical.edges.filter fun e => e.destination == t).map fun e =>
    (instancesOf x e.source).length).sum

/-- A task that joins nothing, that transitions from several tasks lead to, and that is on no cycle. -/
structure SplitPoint (logical : Graph) (t : String) : Prop where
  plain : ∃ n, logical.task t = .ok n ∧ n.barrier = none
  several : ∃ a b, logical.Adjacent a t ∧ logical.Adjacent b t ∧ a ≠ b
  acyclic : logical.inCycle t = false

theorem instancesOf_congr {g g' : Graph} (same : g'.nodes = g.nodes) (t : String) :
    instancesOf g' t = instancesOf g t := by
  unfold instancesOf
  rw [same]

/-- A node that keeps its name when it is given attributes stands for the same task. -/
theorem instancesOf_addTask_of_mem {g : Graph} {id : String} {a : Attributes} (known : id ∈ g.ids)
    (kept : ∀ m ∈ g.nodes, m.id = id → (m.merge a).name = m.name) (t : String) :
    instancesOf (g.addTask id a) t = instancesOf g t := by
  unfold instancesOf addTask
  rw [if_pos (contains_iff.mpr known), modifyNode, List.filter_map, List.map_map]
  have fits : ∀ m ∈ g.nodes,
      ((fun u => u.name == t) ∘ fun m => if m.id == id then m.merge a else m) m = (m.name == t) := by
    intro m inside
    by_cases same : m.id = id
    · simp [same, kept m inside same]
    · simp [same]
  rw [List.filter_congr fits]
  refine List.map_congr_left fun m _ => ?_
  by_cases same : m.id = id <;> simp [same]

theorem instancesOf_addTask_of_not_mem {g : Graph} {id : String} {a : Attributes}
    (unknown : id ∉ g.ids) (t : String) :
    instancesOf (g.addTask id a) t =
      if ((Node.ofId id).merge a).name = t then instancesOf g t ++ [id] else instancesOf g t := by
  unfold instancesOf addTask
  rw [if_neg (by rwa [contains_iff]), List.filter_append, List.map_append]
  have named : (Node.ofId id).id = id := rfl
  split
  next same => simp [same, named]
  next other => simp [other]

namespace Expansion

variable {logical : Graph} {limits : Limits} {s s' : State} {v : Visit} {queue : List Visit}
  {n u : Node} {splits : List Split} {t f : String}

/-- The test of the expansion finds the split points. -/
theorem forkAt_iff_splitPoint : forkAt logical t = true ↔ SplitPoint logical t := by
  have sources : ∀ {inbound}, logical.prev t = .ok inbound →
      ∀ a, a ∈ inbound.map Edge.source ↔ logical.Adjacent a t := by
    intro inbound led a
    simp only [List.mem_map, mem_prev_iff led]
    constructor
    · rintro ⟨e, ⟨link, target⟩, source⟩
      exact ⟨e, link, source, target⟩
    · rintro ⟨e, link, source, target⟩
      exact ⟨e, ⟨link, target⟩, source⟩
  unfold forkAt isFork
  constructor
  · intro fork
    split at fork
    next n inbound found led =>
      simp only [Bool.and_eq_true, Option.isNone_iff_eq_none, decide_eq_true_iff,
        one_lt_length_eraseDups_iff, sources led, Bool.not_eq_true'] at fork
      obtain ⟨⟨none_, a, first, b, second, differ⟩, acyclic⟩ := fork
      exact ⟨⟨n, found, none_⟩, ⟨a, b, first, second, differ⟩, (mem_of_task found).2 ▸ acyclic⟩
    next => cases fork
  · rintro ⟨⟨n, found, none_⟩, ⟨a, b, first, second, differ⟩, acyclic⟩
    obtain ⟨inbound, led⟩ := exists_prev (mem_ids_of_task found)
    rw [found, led]
    simp only [Bool.and_eq_true, Option.isNone_iff_eq_none, decide_eq_true_iff,
      one_lt_length_eraseDups_iff, sources led, Bool.not_eq_true', (mem_of_task found).2]
    exact ⟨⟨none_, a, first, b, second, differ⟩, acyclic⟩

/-- A join is no fork, so no arrival at a fork is early. -/
theorem not_fork_of_tooEarly (early : tooEarly logical t splits = true) :
    forkAt logical t = false := by
  by_contra fork
  rw [Bool.not_eq_false] at fork
  obtain ⟨n, found, none_⟩ := (forkAt_iff_splitPoint.mp fork).plain
  unfold tooEarly at early
  rw [found] at early
  simp [none_] at early

/-- A step that enters a node makes it, if it is new, and the others stand for what they stood for. -/
theorem Unfolded.instancesOf_cases (unfolded : Unfolded logical s)
    (separated : Separated logical.ids) (next : s.queue = v :: queue)
    (taken : Takes (step logical limits) s s')
    (onTime : tooEarly logical v.task v.splits = false) :
    nodeId v.task (s.lineage logical v) ∈ s.graph.ids ∧
      (∀ t, instancesOf s'.graph t = instancesOf s.graph t) ∨
    nodeId v.task (s.lineage logical v) ∉ s.graph.ids ∧
      ∀ t, instancesOf s'.graph t = if v.task = t then
        instancesOf s.graph t ++ [nodeId v.task (s.lineage logical v)]
        else instancesOf s.graph t := by
  unfold Takes at taken
  rw [step_of_cons next, map_some_eq_ok_iff] at taken
  have defined := defined_of_visit_ok taken
  obtain ⟨n, inbound, found, _, cases_⟩ := visit_cases defined limits { s with queue := queue }
  rcases cases_ with ⟨early, _⟩ | ⟨_, failed⟩ | ⟨_, arrived⟩
  · rw [onTime] at early
    cases early
  · cases failed.symm.trans taken
  · have ready := ready_counted logical s v queue
    have coherent := unfolded.coherent
    have origin : ∀ o, v.prev = some o → o.1 ∈ s.graph.ids := by
      intro o before
      exact (unfolded.queue v (next ▸ List.mem_cons_self)).prev_mem before
    rw [← ready.graph] at coherent origin
    rw [arrived] at taken
    rcases arrive_cases coherent origin defined n inbound (forkAt logical v.task)
      (s.lineage logical v) with ⟨_, _, failed⟩ | ⟨g, linked, entered⟩
    · cases failed.symm.trans taken
    · have nodes : s'.graph.nodes = (s.graph.addTask (nodeId v.task (s.lineage logical v))
          (entryAttributes n v.task (s.lineage logical v))).nodes := by
        rw [← ready.graph]
        rcases entered with ⟨_, done⟩ | ⟨_, _, es, _, done⟩ <;> cases done.symm.trans taken <;>
          exact linked.nodes
      by_cases known : nodeId v.task (s.lineage logical v) ∈ s.graph.ids
      · refine .inl ⟨known, fun t => (instancesOf_congr nodes t).trans ?_⟩
        refine instancesOf_addTask_of_mem known (fun m inside same => ?_) t
        exact ((unfolded.nodes m inside).copied.inj separated (mem_ids_of_task found) same).1.symm
      · refine .inr ⟨known, fun t => (instancesOf_congr nodes t).trans ?_⟩
        exact instancesOf_addTask_of_not_mem known t

/-- Every fork of these has its node, which is behind those before it. -/
def Passed (logical g : Graph) (splits : List Split) : Prop :=
  ∀ outer f inner, splits = outer ++ f :: inner →
    ∃ w ∈ g.nodes, forkAt logical w.name = true ∧ w.splits = outer ++ [f]

theorem Grows.passed {g g' : Graph} (grows : Grows logical g g') (passed : Passed logical g splits) :
    Passed logical g' splits := by
  intro outer f inner same
  obtain ⟨w, inside, fork, behind⟩ := passed outer f inner same
  obtain ⟨w', inside', _, kept⟩ := grows.nodes w inside
  rw [kept fork] at inside'
  exact ⟨w, inside', fork, behind⟩

/-- What holds of the forks throughout an expansion, beside what holds of all nodes. -/
structure Numbered (logical : Graph) (s : State) : Prop where
  ids : ∀ f, forkAt logical f = true → instancesOf s.graph f =
    (List.range (s.counter f)).map fun i => f ++ "__" ++ toString (i + 1)
  arrivals : ∀ f, forkAt logical f = true →
    s.counter f + s.queue.countP (fun v => v.task == f) = arrivalsAt logical s.graph f
  single : ∀ u ∈ s.graph.nodes, forkAt logical u.name = true → ∀ e ∈ s.graph.edges,
    ∀ e' ∈ s.graph.edges, e.destination = u.id → e'.destination = u.id → e = e'
  nodes : ∀ u ∈ s.graph.nodes, Passed logical s.graph u.splits
  queue : ∀ v ∈ s.queue, Passed logical s.graph v.splits

theorem passed_nil (logical g : Graph) : Passed logical g [] := by
  intro outer f inner same
  simp at same

theorem numbered_start (logical : Graph) : Numbered logical (.start logical) := by
  refine ⟨fun f _ => rfl, fun f fork => ?_, nofun, nofun, fun v waiting => ?_⟩
  · have none_ : (State.start logical).queue.countP (fun v => v.task == f) = 0 := by
      rw [List.countP_eq_zero]
      intro v waiting
      obtain ⟨r, root, rfl⟩ := List.mem_map.mp waiting
      rw [beq_iff_eq]
      rintro rfl
      rw [not_fork_of_root root] at fork
      cases fork
    have nobody : arrivalsAt logical (State.start logical).graph f = 0 := by
      unfold arrivalsAt instancesOf
      simp [State.start, Graph.empty]
    rw [none_, nobody]
    rfl
  · obtain ⟨r, _, rfl⟩ := List.mem_map.mp waiting
    exact passed_nil _ _

/-- An early arrival is at no fork, and nothing else changes when it is dropped. -/
theorem Numbered.drop (numbered : Numbered logical s) (next : s.queue = v :: queue)
    (early : tooEarly logical v.task v.splits = true) :
    Numbered logical { s with queue := queue } := by
  refine ⟨numbered.ids, fun f fork => ?_, numbered.single, numbered.nodes, fun w waiting =>
    numbered.queue w (next ▸ List.mem_cons_of_mem v waiting)⟩
  have other : v.task ≠ f := by
    rintro rfl
    rw [not_fork_of_tooEarly early] at fork
    cases fork
  have before := numbered.arrivals f fork
  rw [next, List.countP_cons_of_neg (by simpa using other)] at before
  exact before

/-- One more node for a task sends out an arrival along each transition out of it. -/
theorem arrivalsAt_of_new {g g' : Graph} {id : String}
    (new : ∀ u, instancesOf g' u = if t = u then instancesOf g u ++ [id] else instancesOf g u)
    {es : List Edge} (links : logical.next t = .ok es) (f : String) :
    arrivalsAt logical g' f =
      arrivalsAt logical g f + es.countP fun e => e.destination == f := by
  have listed : ∀ edges : List Edge,
      (edges.map fun e => (instancesOf g' e.source).length).sum =
        (edges.map fun e => (instancesOf g e.source).length).sum +
          edges.countP fun e => e.source == t := by
    intro edges
    induction edges with
    | nil => rfl
    | cons e edges ih =>
      rw [List.map_cons, List.sum_cons, ih, List.map_cons, List.sum_cons, List.countP_cons, new]
      by_cases own : t = e.source
      · simp [own]
        omega
      · simp [own, Ne.symm own]
        omega
  have perm : es.Perm (logical.edges.filter fun e => e.source == t) := by
    unfold Graph.next at links
    split at links
    next =>
      cases links
      exact List.mergeSort_perm _ _
    next => cases links
  unfold arrivalsAt
  rw [listed, perm.countP_eq, List.countP_filter, List.countP_filter]
  refine congrArg _ (List.countP_congr fun e _ => ?_)
  rw [Bool.and_comm]

namespace Enters

/-- What enters a fork is new: the number of the arrival is greater than all that were given out. -/
theorem fork_new (enters : Enters logical limits s v queue n s') (unfolded : Unfolded logical s)
    (separated : Separated logical.ids) (fork : forkAt logical v.task = true) :
    nodeId v.task (s.lineage logical v) ∉ s.graph.ids := by
  intro known
  obtain ⟨m, inside, id⟩ := mem_ids_iff.mp known
  obtain ⟨stands, plain⟩ := enters.stands unfolded separated inside id
  rw [← stands.name, enters.copy_name, fork] at plain
  cases plain

/-- The nodes of a fork are numbered on as they are made. -/
theorem numbered_ids (enters : Enters logical limits s v queue n s') (unfolded : Unfolded logical s)
    (separated : Separated logical.ids) (next : s.queue = v :: queue)
    (taken : Takes (step logical limits) s s')
    (onTime : tooEarly logical v.task v.splits = false) (numbered : Numbered logical s)
    (fork : forkAt logical f = true) :
    instancesOf s'.graph f =
      (List.range (s'.counter f)).map fun i => f ++ "__" ++ toString (i + 1) := by
  rw [enters.counter]
  rcases unfolded.instancesOf_cases separated next taken onTime with ⟨known, same⟩ | ⟨_, new⟩
  · have other : ¬(forkAt logical v.task = true ∧ f = v.task) := fun own =>
      enters.fork_new unfolded separated own.1 known
    rw [same, if_neg other]
    exact numbered.ids f fork
  · rw [new]
    by_cases own : v.task = f
    · subst own
      have id : nodeId v.task (s.lineage logical v) =
          v.task ++ "__" ++ toString (s.counter v.task + 1) :=
        nodeId_of_lastNumber_some _ (by rw [lineage_of_fork fork, lastNumber_append])
      rw [if_pos rfl, if_pos ⟨fork, rfl⟩, numbered.ids _ fork, id, List.range_succ, List.map_append]
      rfl
    · rw [if_neg own, if_neg fun same => own same.2.symm]
      exact numbered.ids f fork

/-- The numbers that were given out and the arrivals that wait make up all arrivals at the fork. -/
theorem numbered_arrivals (enters : Enters logical limits s v queue n s')
    (unfolded : Unfolded logical s) (separated : Separated logical.ids)
    (next : s.queue = v :: queue) (taken : Takes (step logical limits) s s')
    (onTime : tooEarly logical v.task v.splits = false) (numbered : Numbered logical s)
    (fork : forkAt logical f = true) :
    s'.counter f + s'.queue.countP (fun v => v.task == f) = arrivalsAt logical s'.graph f := by
  have before := numbered.arrivals f fork
  rw [next, List.countP_cons] at before
  rw [enters.counter]
  rcases unfolded.instancesOf_cases separated next taken onTime with ⟨known, same⟩ | ⟨unknown, new⟩
  · have other : v.task ≠ f := by
      rintro rfl
      exact enters.fork_new unfolded separated fork known
    have waiting : s'.queue = queue := by
      rcases enters.queue with ⟨_, waiting, _⟩ | ⟨unknown, _⟩
      · exact waiting
      · exact absurd known unknown
    have sent : arrivalsAt logical s'.graph f = arrivalsAt logical s.graph f := by
      unfold arrivalsAt
      simp only [same]
    rw [sent, ← before, waiting, if_neg fun own => other own.2.symm]
    simp [other]
  · obtain ⟨es, links, waiting⟩ : ∃ es, logical.next v.task = .ok es ∧
        s'.queue = queue ++ es.map fun e =>
          ⟨e.destination, s.lineage logical v, some (nodeId v.task (s.lineage logical v), e)⟩ := by
      rcases enters.queue with ⟨known, _⟩ | ⟨_, _, _, es, links, waiting⟩
      · exact absurd known unknown
      · exact ⟨es, links, waiting⟩
    have sent := arrivalsAt_of_new new links f
    rw [sent, ← before, waiting, List.countP_append, List.countP_map]
    have along : es.countP ((fun v : Visit => v.task == f) ∘ fun e =>
        ⟨e.destination, s.lineage logical v, some (nodeId v.task (s.lineage logical v), e)⟩) =
          es.countP fun e => e.destination == f := rfl
    rw [along]
    by_cases own : v.task = f
    · subst own
      simp [fork]
      omega
    · simp [own, Ne.symm own]
      omega

/-- The arrival is the only way into the node of a fork. -/
theorem numbered_single (enters : Enters logical limits s v queue n s')
    (unfolded : Unfolded logical s) (separated : Separated logical.ids)
    (numbered : Numbered logical s) : ∀ u ∈ s'.graph.nodes, forkAt logical u.name = true →
      ∀ e ∈ s'.graph.edges, ∀ e' ∈ s'.graph.edges, e.destination = u.id → e'.destination = u.id →
        e = e' := by
  intro u inside fork e link e' link' target target'
  rcases (enters.nodes u).mp inside with ⟨old, other⟩ | rfl
  · -- The step leads no transition to an older node.
    have before : ∀ e ∈ s'.graph.edges, e.destination = u.id → e ∈ s.graph.edges := by
      intro e link target
      rcases enters.known e link with old | ⟨o, _, target', _⟩
      · exact old
      · exact absurd (target.symm.trans target') other
    exact numbered.single u old fork e (before e link target) e' (before e' link' target') target
      target'
  · rw [enters.copy_name] at fork
    rw [enters.copy_id] at target target'
    have new := enters.fork_new unfolded separated fork
    have along : ∀ e ∈ s'.graph.edges, e.destination = nodeId v.task (s.lineage logical v) →
        ∃ o, v.prev = some o ∧ e.source = o.1 ∧
          e.criteria = renameInGuards o.2.criteria o.2.source o.1 := by
      intro e link target
      rcases enters.known e link with old | ⟨o, source, _, criteria, _, before | ⟨plain, _⟩⟩
      · exact absurd (target ▸ unfolded.coherent.destination_mem e old) new
      · exact ⟨o, before, source, criteria⟩
      · rw [fork] at plain
        cases plain
    obtain ⟨o, before, source, criteria⟩ := along e link target
    obtain ⟨o', before', source', criteria'⟩ := along e' link' target'
    obtain rfl : o = o' := Option.some.inj (before.symm.trans before')
    exact enters.coherent.eq_of_criteria_eq link link' (source.trans source'.symm)
      (target.trans target'.symm) (criteria.trans criteria'.symm)

/-- The forks that an arrival is behind once it has entered its task have their nodes: the last one may
be the node that was entered. -/
theorem passed (enters : Enters logical limits s v queue n s')
    (grows : Grows logical s.graph s'.graph) (before : Passed logical s.graph v.splits) :
    Passed logical s'.graph (s.lineage logical v) := by
  cases fork : forkAt logical v.task with
  | false =>
    rw [lineage_of_not_fork fork]
    exact grows.passed before
  | true =>
    intro outer f inner same
    have whole := lineage_of_fork (s := s) fork
    rcases List.eq_nil_or_concat inner with rfl | ⟨between, last, rfl⟩
    · exact ⟨_, enters.copy_mem, enters.copy_name ▸ fork, same⟩
    · have equal : v.splits ++ [⟨v.task, s.counter v.task + 1⟩] =
          (outer ++ f :: between) ++ [last] := by
        rw [← whole, same]
        simp
      exact grows.passed before outer f between (List.append_inj_left' equal rfl)

/-- One step keeps the forks numbered. -/
theorem numbered (enters : Enters logical limits s v queue n s') (unfolded : Unfolded logical s)
    (separated : Separated logical.ids) (next : s.queue = v :: queue)
    (taken : Takes (step logical limits) s s')
    (onTime : tooEarly logical v.task v.splits = false) (numbered : Numbered logical s) :
    Numbered logical s' := by
  have grows := enters.grows unfolded separated
  have entered := enters.passed grows (numbered.queue v (next ▸ List.mem_cons_self))
  refine ⟨fun f => enters.numbered_ids unfolded separated next taken onTime numbered,
    fun f => enters.numbered_arrivals unfolded separated next taken onTime numbered,
    enters.numbered_single unfolded separated numbered, fun u inside => ?_, fun w waiting => ?_⟩
  · rcases (enters.nodes u).mp inside with ⟨old, _⟩ | rfl
    · exact grows.passed (numbered.nodes u old)
    · exact entered
  · rcases enters.queue_cases waiting with old | ⟨f, _, _, rfl⟩
    · exact grows.passed (numbered.queue w (next ▸ List.mem_cons_of_mem v old))
    · exact entered

end Enters

theorem numbered_of_runs (separated : Separated logical.ids)
    (run : Runs (step logical limits) (.start logical) s) : Numbered logical s := by
  induction run with
  | refl => exact numbered_start logical
  | @tail s s' run taken ih =>
    have unfolded := unfolded_of_runs separated run
    obtain ⟨v, queue, next⟩ := exists_head_of_takes taken
    rcases unfolded.enters separated next taken with ⟨early, rfl⟩ | ⟨onTime, n, enters⟩
    · exact ih.drop next early
    · exact enters.numbered unfolded separated next taken onTime ih

/-- The numbers of a fork tell the nodes behind it apart: behind one number there is one list of forks. -/
theorem Unfolded.outer_eq (unfolded : Unfolded logical s) {k : Nat}
    {outer outer' inner inner' splits' : List Split} (passed : Passed logical s.graph splits)
    (passed' : Passed logical s.graph splits') (behind : splits = outer ++ ⟨f, k⟩ :: inner)
    (behind' : splits' = outer' ++ ⟨f, k⟩ :: inner') : outer = outer' := by
  have own : ∀ {splits outer inner}, Passed logical s.graph splits →
      splits = outer ++ ⟨f, k⟩ :: inner →
        ∃ w ∈ s.graph.nodes, w.name = f ∧ w.splits = outer ++ [⟨f, k⟩] := by
    intro splits outer inner passed behind
    obtain ⟨w, inside, fork, same⟩ := passed _ _ _ behind
    obtain ⟨before, j, named, _⟩ := (unfolded.nodes w inside).counted fork
    rw [named] at same
    have last := List.append_inj_right' same rfl
    exact ⟨w, inside, (Split.mk.inj (List.singleton_inj.mp last)).1, named.trans same⟩
  obtain ⟨w, inside, name, same⟩ := own passed behind
  obtain ⟨w', inside', name', same'⟩ := own passed' behind'
  have number : lastNumber w.splits = lastNumber w'.splits := by
    rw [same, same', lastNumber_append, lastNumber_append]
  obtain rfl := unfolded.eq_of_name_eq inside inside' (name.trans name'.symm) number
  exact List.append_inj_left' (same.symm.trans same') rfl

namespace Finished

variable {final : State} (finished : Finished logical limits final)
  (separated : Separated logical.ids)

include finished separated

/-- In the end, a fork has given out a number for each arrival. -/
theorem instancesOf_fork (fork : forkAt logical f = true) :
    instancesOf final.graph f =
      (List.range (arrivalsAt logical final.graph f)).map fun i => f ++ "__" ++ toString (i + 1) := by
  have numbered := numbered_of_runs separated finished.run
  have all := numbered.arrivals f fork
  rw [finished.done] at all
  rw [← all]
  exact numbered.ids f fork

/-- One transition leads into a node of a fork. -/
theorem exists_single {u : Node} (inside : u ∈ final.graph.nodes)
    (fork : forkAt logical u.name = true) :
    ∃ e, final.graph.edges.filter (fun e => e.destination == u.id) = [e] := by
  have unfolded := finished.unfolded separated
  have numbered := numbered_of_runs separated finished.run
  rcases unfolded.led u inside with root | ⟨a, e, link, _, target⟩
  · rw [not_fork_of_root root] at fork
    cases fork
  · refine ⟨e, ?_⟩
    have nodup : (final.graph.edges.filter fun e => e.destination == u.id).Nodup :=
      unfolded.coherent.edges_nodup.filter _
    have known : ∀ e', e' ∈ final.graph.edges.filter (fun e => e.destination == u.id) ↔ e' ∈ [e] := by
      intro e'
      rw [List.mem_filter, beq_iff_eq, List.mem_singleton]
      constructor
      · rintro ⟨link', target'⟩
        exact numbered.single u inside fork e' link' e link target' target
      · rintro rfl
        exact ⟨link, target⟩
    exact List.perm_singleton.mp
      ((List.perm_ext_iff_of_nodup nodup (List.nodup_singleton e)).mpr known)

end Finished

end Expansion

open Expansion

/-- The nodes of a fork are one for each arrival at it: they are numbered in the order in which they were
made, each is led to by one transition, and what is behind one of them is behind the same forks as that
one. -/
structure OnePerArrival (logical x : Graph) (f : String) : Prop where
  ids : instancesOf x f =
    (List.range (arrivalsAt logical x f)).map fun i => f ++ "__" ++ toString (i + 1)
  single : ∀ u ∈ x.nodes, u.name = f →
    ∃ e, x.edges.filter (fun e => e.destination == u.id) = [e]
  lineage : ∀ u ∈ x.nodes, ∀ w ∈ x.nodes, ∀ k outer outer' inner inner',
    u.splits = outer ++ ⟨f, k⟩ :: inner → w.splits = outer' ++ ⟨f, k⟩ :: inner' → outer = outer'

variable {logical x : Graph} {limits : Limits} {f : String}

/-- A fork has one node for each arrival at it, so none is shared between branches. -/
theorem expand_onePerArrival (separated : Separated logical.ids)
    (expanded : expand limits logical = .ok x) (split : SplitPoint logical f) :
    OnePerArrival logical x f := by
  obtain ⟨final, run, done, rfl⟩ := expand_ok expanded
  have finished : Finished logical limits final := ⟨run, done⟩
  have numbered := numbered_of_runs separated run
  have fork := forkAt_iff_splitPoint.mpr split
  refine ⟨finished.instancesOf_fork separated fork, ?_, ?_⟩
  · rintro u inside rfl
    exact finished.exists_single separated inside fork
  · intro u inside w inside' k outer outer' inner inner' behind behind'
    exact (finished.unfolded separated).outer_eq (numbered.nodes u inside)
      (numbered.nodes w inside') behind behind'

/-- A fork behind a fork that two transitions from one task lead to. -/
def forkBehindFork : Graph where
  nodes := [⟨"a", "a", none, [], none⟩, ⟨"b", "b", none, [], none⟩, ⟨"c", "c", none, [], none⟩,
    ⟨"d", "d", none, [], none⟩, ⟨"f", "f", none, [], none⟩]
  edges := [⟨"a", "c", 0, ["p"], some 0⟩, ⟨"a", "c", 1, ["q"], some 1⟩, ⟨"b", "c", 0, [], some 0⟩,
    ⟨"c", "d", 0, [], some 0⟩, ⟨"c", "f", 0, [], some 0⟩, ⟨"d", "f", 0, [], some 0⟩]

/-- There are three arrivals at the outer fork, and six at the inner one. -/
theorem forkBehindFork_instances : ∃ x, expand {} forkBehindFork = .ok x ∧
    instancesOf x "f" = ["f__1", "f__2", "f__3", "f__4", "f__5", "f__6"] := by
  have worked : (workOff (step forkBehindFork {}) 15 (.start forkBehindFork)).map
      (fun r => r.map fun s => instancesOf s.graph "f") =
        some (.ok ["f__1", "f__2", "f__3", "f__4", "f__5", "f__6"]) := by
    cbv
  exact exists_expand_of_workOff (fun x => instancesOf x "f") worked

theorem forkBehindFork_separated : Separated forkBehindFork.ids :=
  separated_of_not_mem (by decide)

theorem forkBehindFork_onePerArrival : Separated forkBehindFork.ids ∧
    SplitPoint forkBehindFork "f" ∧ ∃ x, expand {} forkBehindFork = .ok x ∧
      instancesOf x "f" = ["f__1", "f__2", "f__3", "f__4", "f__5", "f__6"] ∧
        OnePerArrival forkBehindFork x "f" := by
  have split : SplitPoint forkBehindFork "f" := forkAt_iff_splitPoint.mp (by cbv)
  obtain ⟨x, expanded, ids⟩ := forkBehindFork_instances
  exact ⟨forkBehindFork_separated, split, x, expanded, ids,
    expand_onePerArrival forkBehindFork_separated expanded split⟩

end Workflow.Composition
