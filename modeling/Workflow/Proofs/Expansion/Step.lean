import Workflow.Proofs.Arrivals
import Workflow.Proofs.Expansion.Naming
import Workflow.Proofs.Graph.Lookup
import Workflow.Proofs.Results
import Workflow.Proofs.Table
import Workflow.Proofs.Worklist

/-!
One step of an expansion, said once for all invariants: an arrival is dropped if it is early, and
otherwise enters a node, which is led to from where the arrival came.
-/

namespace Workflow.Composition.Expansion

open Workflow.Graph

variable {logical : Graph} {limits : Limits} {s s' : State} {v : Visit} {queue : List Visit}
  {n : Node} {inbound : List Edge}

def forkAt (logical : Graph) (t : String) : Bool :=
  match logical.task t, logical.prev t with
  | .ok n, .ok inbound => isFork logical n inbound
  | _, _ => false

/-- Does the task with that id join its branches, and is an arrival behind these forks early? -/
def tooEarly (logical : Graph) (t : String) (splits : List Split) : Bool :=
  match logical.task t with
  | .ok n => n.barrier.isSome && isEarly n.splits splits
  | .error _ => false

/-- The forks that an arrival is behind once it has entered its task. -/
def State.lineage (logical : Graph) (s : State) (v : Visit) : List Split :=
  if forkAt logical v.task then v.splits ++ [⟨v.task, s.counter v.task + 1⟩] else v.splits

def copy (n : Node) (splits : List Split) : Node :=
  { id := nodeId n.id splits
    name := n.id
    barrier := n.barrier
    splits := splits
    retry := n.retry }

/-- What becomes of the transitions from a node to another when one more repeats that of an origin. -/
def notedFrom (id : String) (edges : List Edge) (o : String × Edge) : List Edge :=
  noted o.1 id (renameInGuards o.2.criteria o.2.source o.1) o.2.ordinal edges

/-- What adding transitions to one node does to the graph. -/
structure Linked (g : Graph) (id : String) (origins : List (String × Edge)) (g' : Graph) : Prop where
  coherent : g'.Coherent
  nodes : g'.nodes = g.nodes
  between : ∀ a, g'.between a id =
    (origins.filter fun o => o.1 == a).foldl (notedFrom id) (g.between a id)
  elsewhere : ∀ {a b}, b ≠ id → g'.between a b = g.between a b
  kept : ∀ {a b c}, g.Leads a b c → g'.Leads a b c
  led : ∀ o ∈ origins, g'.Leads o.1 id (renameInGuards o.2.criteria o.2.source o.1)
  known : ∀ e ∈ g'.edges, e ∈ g.edges ∨ ∃ o ∈ origins, e.source = o.1 ∧ e.destination = id ∧
    e.criteria = renameInGuards o.2.criteria o.2.source o.1 ∧ e.ordinal = o.2.ordinal

/-- Transitions between nodes that are there can all be added. -/
theorem addEdges_ok {g : Graph} (coherent : g.Coherent) {id : String} (target : id ∈ g.ids)
    {origins : List (String × Edge)} (known : ∀ o ∈ origins, o.1 ∈ g.ids) :
    ∃ g', addEdges id g origins = .ok g' ∧ Linked g id origins g' := by
  induction origins generalizing g with
  | nil =>
    exact ⟨g, rfl, coherent, rfl, fun _ => rfl, fun _ => rfl, fun leads => leads, nofun,
      fun _ inside => .inl inside⟩
  | cons o origins ih =>
    obtain ⟨source, f⟩ := o
    obtain ⟨g₁, added, ensures⟩ := ensureTransition_ok coherent source id
      (renameInGuards f.criteria f.source source) f.ordinal
    have nodes : g₁.nodes = g.nodes := by
      rw [ensures.nodes, ensure_of_mem (known _ List.mem_cons_self), ensure_of_mem target]
    have ids : g₁.ids = g.ids := by
      unfold ids
      rw [nodes]
    obtain ⟨g', rest, linked⟩ := ih ensures.coherent (ids ▸ target)
      (fun o inside => ids ▸ known o (List.mem_cons_of_mem _ inside))
    refine ⟨g', ?_, linked.coherent, linked.nodes.trans nodes, ?_, fun apart =>
      (linked.elsewhere apart).trans (ensures.elsewhere (.inr apart)), fun leads =>
      linked.kept (ensures.kept leads), ?_, ?_⟩
    · unfold addEdges addEdge
      simp only [added, rest]
    · intro a
      rw [linked.between]
      by_cases own : source = a
      · subst own
        rw [ensures.between, List.filter_cons_of_pos (by simp), List.foldl_cons]
        rfl
      · rw [ensures.elsewhere (.inl (Ne.symm own)), List.filter_cons_of_neg (by simpa using own)]
    · intro o inside
      rcases List.mem_cons.mp inside with rfl | later
      · exact linked.kept ensures.leads
      · exact linked.led o later
    · intro e inside
      rcases linked.known e inside with old | ⟨o, later, rest⟩
      · rcases ensures.known e old with older | new
        · exact .inl older
        · exact .inr ⟨_, List.mem_cons_self, new⟩
      · exact .inr ⟨o, List.mem_cons_of_mem _ later, rest⟩

theorem exists_of_mem_nodesBehind {task id : String} {splits : List Split} {made : List String}
    {nodes : List Node} (inside : id ∈ nodesBehind task splits made nodes) :
    ∃ n ∈ nodes, n.id = id := by
  fun_induction nodesBehind task splits made nodes with
  | case1 t ts n ns _ ih =>
    rcases List.mem_cons.mp inside with rfl | later
    · exact ⟨n, List.mem_cons_self, rfl⟩
    · obtain ⟨m, known, named⟩ := ih later
      exact ⟨m, List.mem_cons_of_mem n known, named⟩
  | case2 t ts n ns _ ih =>
    obtain ⟨m, known, named⟩ := ih inside
    exact ⟨m, List.mem_cons_of_mem n known, named⟩
  | case3 => cases inside

/-- If the tasks that the nodes were made for are their names, then the nodes of a task behind these
forks are those that say so. -/
theorem mem_nodesBehind_iff {task id : String} {splits : List Split} {nodes : List Node} :
    id ∈ nodesBehind task splits (nodes.map Node.name) nodes ↔
      ∃ n ∈ nodes, n.name = task ∧ n.splits = splits ∧ n.id = id := by
  induction nodes with
  | nil => simp [nodesBehind]
  | cons n nodes ih =>
    rw [List.map_cons, nodesBehind]
    simp only [List.exists_mem_cons_iff]
    split
    next fits =>
      rw [Bool.and_eq_true, beq_iff_eq, beq_iff_eq] at fits
      rw [List.mem_cons, ih]
      constructor
      · rintro (rfl | later)
        · exact .inl ⟨fits.1, fits.2, rfl⟩
        · exact .inr later
      · rintro (⟨_, _, rfl⟩ | later)
        · exact .inl rfl
        · exact .inr later
    next other =>
      rw [Bool.and_eq_true, beq_iff_eq, beq_iff_eq] at other
      rw [ih]
      constructor
      · exact .inr
      · rintro (⟨named, behind, _⟩ | later)
        · exact absurd ⟨named, behind⟩ other
        · exact later

/-- Transitions are added from where the arrival comes from and, unless the node is a fork, from the
nodes of all tasks before it that are behind the same forks. -/
theorem mem_origins_iff {fork : Bool} {splits : List Split} {o : String × Edge} :
    o ∈ origins s v fork splits inbound ↔
      v.prev = some o ∨ fork = false ∧ o.2 ∈ inbound ∧
        o.1 ∈ nodesBehind o.2.source splits s.made s.graph.nodes := by
  obtain ⟨id, e⟩ := o
  unfold origins
  rw [List.mem_append, Option.mem_toList]
  cases fork with
  | true => simp
  | false =>
    simp only [Bool.false_eq_true, if_false, List.mem_flatMap, List.mem_map, Prod.mk.injEq,
      true_and]
    constructor
    · rintro (before | ⟨f, known, u, behind, rfl, rfl⟩)
      · exact .inl before
      · exact .inr ⟨known, behind⟩
    · rintro (before | ⟨known, behind⟩)
      · exact .inl before
      · exact .inr ⟨e, known, id, behind, rfl, rfl⟩

/-- The attributes that an arrival gives to the node that it enters. -/
def entryAttributes (n : Node) (task : String) (splits : List Split) : Attributes :=
  { name := some task
    barrier := n.barrier
    splits := if splits.isEmpty then none else some splits
    retry := n.retry }

/-- The state whose node was entered, before transitions lead to it. -/
def State.entered (s : State) (n : Node) (task : String) (splits : List Split) : State :=
  { s with
    graph := s.graph.addTask (nodeId task splits) (entryAttributes n task splits)
    made := if !s.graph.contains (nodeId task splits) then s.made ++ [task] else s.made }

@[simp] theorem edges_entered (s : State) (n : Node) (task : String) (splits : List Split) :
    (s.entered n task splits).graph.edges = s.graph.edges :=
  edges_addTask _ _ _

/-- Entering a node, said of the state in which it was entered. -/
theorem arrive_eq (s : State) (v : Visit) (n : Node) (inbound : List Edge) (fork : Bool)
    (splits : List Split) : arrive logical limits s v n inbound fork splits =
      if !s.graph.contains (nodeId v.task splits) &&
          limits.maxInstances < (s.entered n v.task splits).graph.nodes.length then
        .error (.beyond limits .instances)
      else match addEdges (nodeId v.task splits) (s.entered n v.task splits).graph
          (origins (s.entered n v.task splits) v fork splits inbound) with
        | .error f => .error f
        | .ok g =>
          if !s.graph.contains (nodeId v.task splits) then
            match logical.next v.task with
            | .error f => .error (.graph f)
            | .ok es => .ok { s.entered n v.task splits with
              graph := g
              queue := s.queue ++
                es.map fun e => ⟨e.destination, splits, some (nodeId v.task splits, e)⟩ }
          else .ok { s.entered n v.task splits with graph := g } :=
  rfl

/-- Entering a node, case by case: it is one too many, it was there, or it is new, and then what lies
behind it is to be arrived at. -/
theorem arrive_cases (coherent : s.graph.Coherent) (origin : ∀ o, v.prev = some o → o.1 ∈ s.graph.ids)
    (defined : v.task ∈ logical.ids) (n : Node) (inbound : List Edge) (fork : Bool)
    (splits : List Split) :
    nodeId v.task splits ∉ s.graph.ids ∧
      limits.maxInstances < (s.entered n v.task splits).graph.nodes.length ∧
      arrive logical limits s v n inbound fork splits = .error (.beyond limits .instances) ∨
    ∃ g, Linked (s.entered n v.task splits).graph (nodeId v.task splits)
        (origins (s.entered n v.task splits) v fork splits inbound) g ∧
      (nodeId v.task splits ∈ s.graph.ids ∧
        arrive logical limits s v n inbound fork splits =
          .ok { s.entered n v.task splits with graph := g } ∨
      nodeId v.task splits ∉ s.graph.ids ∧
        (s.entered n v.task splits).graph.nodes.length ≤ limits.maxInstances ∧
        ∃ es, logical.next v.task = .ok es ∧
          arrive logical limits s v n inbound fork splits =
            .ok { s.entered n v.task splits with
              graph := g
              queue := s.queue ++
                es.map fun e => ⟨e.destination, splits, some (nodeId v.task splits, e)⟩ }) := by
  have target : nodeId v.task splits ∈ (s.entered n v.task splits).graph.ids :=
    mem_ids_addTask.mpr (.inr rfl)
  have sources : ∀ o ∈ origins (s.entered n v.task splits) v fork splits inbound,
      o.1 ∈ (s.entered n v.task splits).graph.ids := by
    intro o inside
    rcases mem_origins_iff.mp inside with before | ⟨_, _, behind⟩
    · exact mem_ids_addTask.mpr (.inl (origin o before))
    · exact mem_ids_iff.mpr (exists_of_mem_nodesBehind behind)
  obtain ⟨g, added, linked⟩ : ∃ g, addEdges (nodeId v.task splits)
      (s.entered n v.task splits).graph _ = .ok g ∧ _ :=
    addEdges_ok (coherent.addTask _ _) target sources
  obtain ⟨es, links⟩ := exists_next defined
  rw [arrive_eq, added]
  dsimp only
  by_cases known : nodeId v.task splits ∈ s.graph.ids
  · rw [contains_iff.mpr known]
    exact .inr ⟨g, linked, .inl ⟨known, rfl⟩⟩
  · rw [contains_eq_false_iff.mpr known]
    by_cases room : limits.maxInstances < (s.entered n v.task splits).graph.nodes.length
    · exact .inl ⟨known, room, by simp [room]⟩
    · exact .inr ⟨g, linked, .inr ⟨known, Nat.le_of_not_lt room, es, links, by simp [room, links]⟩⟩

/-- The state in which a fork has given out the number of an arrival. -/
def State.counted (logical : Graph) (s : State) (v : Visit) : State :=
  if forkAt logical v.task then s.count v.task else s

theorem counter_count (s : State) (task other : String) :
    (s.count task).counter other = if other = task then s.counter task + 1 else s.counter other := by
  unfold State.count State.counter
  rw [Table.get?_insert]
  split <;> rfl

theorem counted_graph (logical : Graph) (s : State) (v : Visit) :
    (s.counted logical v).graph = s.graph ∧ (s.counted logical v).made = s.made ∧
      (s.counted logical v).queue = s.queue := by
  unfold State.counted
  split <;> exact ⟨rfl, rfl, rfl⟩

/-- Arriving at a task, case by case: the arrival is early, is behind too many forks, or enters. -/
theorem visit_cases (defined : v.task ∈ logical.ids) (limits : Limits) (s : State) :
    ∃ n inbound, logical.task v.task = .ok n ∧ logical.prev v.task = .ok inbound ∧
      (tooEarly logical v.task v.splits = true ∧ visit logical limits s v = .ok s ∨
      tooEarly logical v.task v.splits = false ∧
        visit logical limits s v = .error (.beyond limits .splitDepth) ∨
      tooEarly logical v.task v.splits = false ∧
        visit logical limits s v = arrive logical limits (s.counted logical v) v n inbound
          (forkAt logical v.task) (s.lineage logical v)) := by
  obtain ⟨n, found, _⟩ := exists_task defined
  obtain ⟨inbound, led⟩ := exists_prev defined
  have early : tooEarly logical v.task v.splits = (n.barrier.isSome && isEarly n.splits v.splits) := by
    unfold tooEarly
    rw [found]
  have fork : forkAt logical v.task = isFork logical n inbound := by
    unfold forkAt
    rw [found, led]
  refine ⟨n, inbound, found, led, ?_⟩
  unfold visit State.counted State.lineage
  rw [found, led, early, fork]
  dsimp only
  cases waits : n.barrier.isSome && isEarly n.splits v.splits with
  | true => exact .inl ⟨rfl, rfl⟩
  | false =>
    cases splits : isFork logical n inbound with
    | false => exact .inr (.inr ⟨rfl, rfl⟩)
    | true =>
      have number : (s.count v.task).counter v.task = s.counter v.task + 1 := by
        rw [counter_count, if_pos rfl]
      simp only [number, if_true, Bool.false_eq_true, if_false]
      split
      next => exact .inr (.inl ⟨trivial, rfl⟩)
      next => exact .inr (.inr ⟨trivial, rfl⟩)

theorem step_of_nil (done : s.queue = []) : step logical limits s = .ok none := by
  unfold step
  rw [done]

theorem step_of_cons (next : s.queue = v :: queue) :
    step logical limits s = (visit logical limits { s with queue := queue } v).map some := by
  unfold step
  rw [next]

theorem queue_eq_nil_of_step (done : step logical limits s = .ok none) : s.queue = [] := by
  cases next : s.queue with
  | nil => rfl
  | cons v queue =>
    rw [step_of_cons next] at done
    exact absurd done map_some_ne_ok_none

theorem exists_head_of_takes (taken : Takes (step logical limits) s s') :
    ∃ v queue, s.queue = v :: queue := by
  cases next : s.queue with
  | nil =>
    unfold Takes at taken
    rw [step_of_nil next] at taken
    cases taken
  | cons v queue => exact ⟨v, queue, rfl⟩

end Workflow.Composition.Expansion
