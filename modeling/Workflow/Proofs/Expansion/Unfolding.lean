import Workflow.Proofs.Expansion.Step

/-!
The invariant of an expansion. Nodes are copies of tasks behind the forks on a way to them, and
transitions repeat those of the graph between copies behind a fork of one number; of every node the
ways out are taken, or are to be taken yet.
-/

namespace Workflow.Composition.Expansion

open Workflow.Graph

variable {logical : Graph} {limits : Limits} {s s' : State} {v : Visit} {queue : List Visit}
  {n u w : Node} {splits : List Split}

def network (logical : Graph) : Network where
  starts t := t ∈ logical.roots
  leads := logical.Adjacent
  forks := forkAt logical

/-- The ways out of a task can be behind these forks. -/
def Lineage (logical : Graph) (t : String) (splits : List Split) : Prop :=
  ∃ σ, (network logical).Arrives t σ ∧ splitTasks splits = (network logical).behind t σ

/-- There are no forks, or the last of them has a node, which is behind just these forks. -/
def Alive (logical g : Graph) (splits : List Split) : Prop :=
  splits = [] ∨ ∃ w ∈ g.nodes, forkAt logical w.name = true ∧ w.splits = splits

/-- The node is a copy of the task that it is named for. -/
def Copied (logical : Graph) (u : Node) : Prop :=
  ∃ n, logical.task u.name = .ok n ∧ u = copy n u.splits

/-- A node of an expansion. The number of a fork is one that it has given out. -/
structure Instance (logical : Graph) (s : State) (u : Node) : Prop where
  copied : Copied logical u
  alive : Alive logical s.graph u.splits
  lineage : Lineage logical u.name u.splits
  counted : forkAt logical u.name = true →
    ∃ splits k, u.splits = splits ++ [⟨u.name, k⟩] ∧ k ≤ s.counter u.name

/-- The transition `e` repeats `f` from one node to another. -/
structure Repeats (logical : Graph) (f e : Edge) (u w : Node) : Prop where
  source : f.source = u.name ∧ e.source = u.id
  destination : f.destination = w.name ∧ e.destination = w.id
  criteria : e.criteria = renameInGuards f.criteria u.name u.id
  ordinal : e.ordinal = f.ordinal
  level : forkAt logical w.name = false → lastNumber u.splits = lastNumber w.splits

/-- An arrival of an expansion: at a root, or along a transition behind a node of its task. -/
structure Expected (logical : Graph) (s : State) (v : Visit) : Prop where
  arrives : (network logical).Arrives v.task (splitTasks v.splits)
  alive : Alive logical s.graph v.splits
  origin : v.prev = none ∧ v.task ∈ logical.roots ∧ v.splits = [] ∨
    ∃ f ∈ logical.edges, f.destination = v.task ∧ ∃ u ∈ s.graph.nodes,
      v.prev = some (u.id, f) ∧ u.name = f.source ∧ lastNumber u.splits = lastNumber v.splits

/-- A way out of a node was taken: the arrival was early, or there is a transition to a copy of the
next task. -/
def Taken (logical g : Graph) (u : Node) (splits : List Split) (f : Edge) : Prop :=
  tooEarly logical f.destination splits = true ∨
    ∃ w ∈ g.nodes, w.name = f.destination ∧
      (forkAt logical w.name = false → lastNumber w.splits = lastNumber u.splits) ∧
      g.Leads u.id w.id (renameInGuards f.criteria u.name u.id)

/-- The ways out of a node are taken or to be taken, behind some forks of which the last has the
number that the node says. -/
def Left (logical : Graph) (s : State) (u : Node) : Prop :=
  ∃ splits, lastNumber splits = lastNumber u.splits ∧ Lineage logical u.name splits ∧
    ∀ f ∈ logical.edges, f.source = u.name →
      ⟨f.destination, splits, some (u.id, f)⟩ ∈ s.queue ∨ Taken logical s.graph u splits f

/-- What holds throughout an expansion. -/
structure Unfolded (logical : Graph) (s : State) : Prop where
  coherent : s.graph.Coherent
  made : s.made = s.graph.nodes.map Node.name
  nodes : ∀ u ∈ s.graph.nodes, Instance logical s u
  edges : ∀ e ∈ s.graph.edges, ∃ f ∈ logical.edges, ∃ u ∈ s.graph.nodes, ∃ w ∈ s.graph.nodes,
    Repeats logical f e u w
  queue : ∀ v ∈ s.queue, Expected logical s v
  left : ∀ u ∈ s.graph.nodes, Left logical s u
  roots : ∀ r ∈ logical.roots, ⟨r, [], none⟩ ∈ s.queue ∨ tooEarly logical r [] = true ∨
    ∃ u ∈ s.graph.nodes, u.name = r ∧ u.splits = []
  led : ∀ u ∈ s.graph.nodes, u.name ∈ logical.roots ∨ ∃ a, s.graph.Adjacent a u.id

/-- At the start nothing is there, and arrivals at the roots are to come. -/
theorem unfolded_start (logical : Graph) : Unfolded logical (.start logical) := by
  refine ⟨coherent_empty, rfl, nofun, nofun, ?_, nofun, ?_, nofun⟩
  · intro v waiting
    obtain ⟨r, root, rfl⟩ := List.mem_map.mp waiting
    exact ⟨.start root, .inl rfl, .inl ⟨rfl, root, rfl⟩⟩
  · exact fun r root => .inl (List.mem_map.mpr ⟨r, root, rfl⟩)

/-- An arrival comes from a node that is there. -/
theorem Expected.prev_mem (expected : Expected logical s v) {o : String × Edge}
    (before : v.prev = some o) : o.1 ∈ s.graph.ids := by
  rcases expected.origin with ⟨nothing, _⟩ | ⟨f, _, _, u, inside, came, _⟩
  · rw [nothing] at before
    cases before
  · rw [came] at before
    cases before
    exact mem_ids_iff.mpr ⟨u, inside, rfl⟩

theorem network_among (coherent : logical.Coherent) : (network logical).Among logical.ids := by
  constructor
  · intro t root
    exact (mem_roots_iff.mp root).1
  · intro t u link
    obtain ⟨e, inside, _, target⟩ := link
    exact target ▸ coherent.destination_mem e inside

theorem Copied.eq (copied : Copied logical u) (found : logical.task u.name = .ok n) :
    u = copy n u.splits := by
  obtain ⟨n', found', same⟩ := copied
  rw [found] at found'
  cases found'
  exact same

theorem Copied.attributes (copied : Copied logical u) (found : logical.task u.name = .ok n) :
    u.barrier = n.barrier ∧ u.retry = n.retry := by
  have same := copied.eq found
  constructor
  · calc u.barrier = (copy n u.splits).barrier := congrArg Node.barrier same
      _ = n.barrier := rfl
  · calc u.retry = (copy n u.splits).retry := congrArg Node.retry same
      _ = n.retry := rfl

theorem Copied.mem (copied : Copied logical u) : u.name ∈ logical.ids := by
  obtain ⟨n, found, _⟩ := copied
  exact mem_ids_of_task found

theorem Copied.id_eq (copied : Copied logical u) : u.id = nodeId u.name u.splits := by
  obtain ⟨n, found, same⟩ := copied
  have named := (mem_of_task found).2
  calc u.id = (copy n u.splits).id := congrArg Node.id same
    _ = nodeId u.name u.splits := congrArg (nodeId · u.splits) named

/-- Copies with one id are of one task, behind forks of which the last have one number. -/
theorem Copied.inj (separated : Separated logical.ids) (copied : Copied logical u) {t : String}
    (known : t ∈ logical.ids) (same : u.id = nodeId t splits) :
    u.name = t ∧ lastNumber u.splits = lastNumber splits :=
  nodeId_inj separated copied.mem known (copied.id_eq.symm.trans same)

theorem splits_eq_nil_of_lastNumber (none_ : lastNumber splits = none) : splits = [] := by
  cases splits with
  | nil => rfl
  | cons a as => simp [lastNumber] at none_

theorem lineage_of_fork (fork : forkAt logical v.task = true) :
    s.lineage logical v = v.splits ++ [⟨v.task, s.counter v.task + 1⟩] :=
  if_pos fork

theorem lineage_of_not_fork (plain : forkAt logical v.task = false) :
    s.lineage logical v = v.splits := by
  unfold State.lineage
  rw [plain]
  exact if_neg Bool.false_ne_true

/-- Numbers aside, an arrival is behind the forks that the network says. -/
theorem splitTasks_lineage (s : State) (v : Visit) :
    splitTasks (s.lineage logical v) = (network logical).behind v.task (splitTasks v.splits) := by
  unfold State.lineage Network.behind network
  split
  next => simp [splitTasks]
  next => rfl

/-- A root has no predecessor, so it is no fork. -/
theorem not_fork_of_root {r : String} (root : r ∈ logical.roots) : forkAt logical r = false := by
  obtain ⟨known, first⟩ := mem_roots_iff.mp root
  obtain ⟨n, found, _⟩ := exists_task known
  obtain ⟨inbound, led⟩ := exists_prev known
  have none_ : inbound = [] := by
    refine List.eq_nil_iff_forall_not_mem.mpr fun e inside => ?_
    obtain ⟨link, target⟩ := (mem_prev_iff led).mp inside
    exact first e link target
  unfold forkAt isFork
  rw [found, led, none_]
  simp

/-- Copies of one task behind forks of which the last have one number are one node. -/
theorem Unfolded.eq_of_name_eq (unfolded : Unfolded logical s) (inside : u ∈ s.graph.nodes)
    (inside' : w ∈ s.graph.nodes) (name : u.name = w.name)
    (number : lastNumber u.splits = lastNumber w.splits) : u = w := by
  refine Graph.eq_of_id_eq unfolded.coherent.unique inside inside' ?_
  rw [(unfolded.nodes u inside).copied.id_eq, (unfolded.nodes w inside').copied.id_eq, name]
  exact nodeId_congr _ number

end Workflow.Composition.Expansion
