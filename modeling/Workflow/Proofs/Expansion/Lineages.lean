import Mathlib
import Workflow.Proofs.Direct.Composed
import Workflow.Proofs.Expansion.Arrivals

/-!
When the nodes of an expansion keep the branches apart. The id of a node has only the number of the last
fork, and different forks give out the same numbers: what tells two branches apart is lost where a
task is let in behind two forks by the same number.
-/

namespace Workflow.Composition

open Workflow.Graph

namespace Expansion

variable {logical : Graph} {limits : Limits} {s s' final : State} {v : Visit} {queue : List Visit}
  {t : String} {splits splits' : List Split}

def lastFork (splits : List Split) : Option String :=
  splits.getLast?.map Split.task

@[simp] theorem lastFork_append (splits : List Split) (s : Split) :
    lastFork (splits ++ [s]) = some s.task := by
  simp [lastFork]

/-- Along every transition the forks stay the same, apart from a transition to a node of a fork, which
comes last with its number. -/
def KeepsLineages (logical x : Graph) : Prop :=
  ∀ e ∈ x.edges, ∀ u ∈ x.nodes, ∀ w ∈ x.nodes, e.source = u.id → e.destination = w.id →
    if forkAt logical w.name then
      ∃ k, w.splits = u.splits ++ [⟨w.name, k⟩] ∧ w.id = w.name ++ "__" ++ toString k
    else w.splits = u.splits

/-- Arrivals that enter one node are behind the same forks. -/
def KeepsApart (logical : Graph) (limits : Limits) : Prop :=
  ∀ t u splits splits', LetIn logical limits t splits → LetIn logical limits u splits' →
    nodeId t splits = nodeId u splits' → splits = splits'

/-- A task that is no fork is not let in behind two forks by one number. -/
def NumbersTellForks (logical : Graph) (limits : Limits) : Prop :=
  ∀ t splits splits', forkAt logical t = false → LetIn logical limits t splits →
    LetIn logical limits t splits' → lastNumber splits = lastNumber splits' →
      lastFork splits = lastFork splits'

/-- The nodes in the end say of what they were entered behind. -/
def Settles (logical : Graph) (limits : Limits) (x : Graph) : Prop :=
  ∀ t splits, LetIn logical limits t splits → ∀ w ∈ x.nodes, w.id = nodeId t splits →
    w.splits = splits

/-- The forks of a node of a fork end with its own number. -/
theorem Instance.numbered {u : Node} (instance_ : Instance logical s u)
    (fork : forkAt logical u.name = true) :
    ∃ splits k, u.splits = splits ++ [⟨u.name, k⟩] ∧ u.id = u.name ++ "__" ++ toString k := by
  obtain ⟨splits, k, behind, _⟩ := instance_.counted fork
  refine ⟨splits, k, behind, ?_⟩
  rw [instance_.copied.id_eq]
  exact nodeId_of_lastNumber_some _ (by rw [behind, lastNumber_append])

/-- Forks that are alive are told by the last one with its number. -/
theorem Alive.eq (unfolded : Unfolded logical s) (alive : Alive logical s.graph splits)
    (alive' : Alive logical s.graph splits') (fork : lastFork splits = lastFork splits')
    (number : lastNumber splits = lastNumber splits') : splits = splits' := by
  have named : ∀ {w : Node} {splits : List Split}, w ∈ s.graph.nodes →
      forkAt logical w.name = true → w.splits = splits → lastFork splits = some w.name := by
    rintro w _ inside fork rfl
    obtain ⟨outer, k, behind, _⟩ := (unfolded.nodes w inside).numbered fork
    rw [behind, lastFork_append]
  rcases alive with rfl | ⟨w, inside, own, behind⟩
  · exact (splits_eq_nil_of_lastNumber number.symm).symm
  · rcases alive' with rfl | ⟨w', inside', own', behind'⟩
    · exact splits_eq_nil_of_lastNumber number
    · have name : w.name = w'.name := by
        rw [named inside own behind, named inside' own' behind'] at fork
        exact Option.some.inj fork
      have number' : lastNumber w.splits = lastNumber w'.splits := by
        rw [behind, behind', number]
      rw [← behind, ← behind', unfolded.eq_of_name_eq inside inside' name number']

/-- If arrivals at one node are behind the same forks, numbers tell forks apart. -/
theorem numbersTellForks_of_keepsApart (apart : KeepsApart logical limits) :
    NumbersTellForks logical limits := by
  intro t splits splits' _ letIn letIn' number
  rw [apart t t splits splits' letIn letIn' (nodeId_congr t number)]

/-- It is enough that all ways to a task that is no fork pass the same fork last. -/
theorem numbersTellForks_of_arrives (separated : Separated logical.ids)
    (alike : ∀ t σ τ, forkAt logical t = false → (network logical).Arrives t σ →
      (network logical).Arrives t τ → σ.getLast? = τ.getLast?) :
    NumbersTellForks logical limits := by
  have passed : ∀ {t splits}, forkAt logical t = false → LetIn logical limits t splits →
      (network logical).Arrives t (splitTasks splits) := by
    intro t splits plain letIn
    obtain ⟨s, v, queue, run, next, rfl, rfl, _⟩ := letIn
    rw [lineage_of_not_fork plain]
    exact ((unfolded_of_runs separated run).queue v (next ▸ List.mem_cons_self)).arrives
  have named : ∀ splits : List Split, lastFork splits = (splitTasks splits).getLast? := by
    intro splits
    unfold lastFork splitTasks
    exact List.getLast?_map.symm
  intro t splits splits' plain letIn letIn' _
  rw [named, named]
  exact alike t _ _ plain (passed plain letIn) (passed plain letIn')

/-- The arrivals to come along transitions are behind the forks that the nodes they come from say in
the end. -/
def Agrees (x : Graph) (s : State) : Prop :=
  ∀ v ∈ s.queue, ∀ o, v.prev = some o → ∀ u ∈ x.nodes, u.id = o.1 → u.splits = v.splits

theorem agrees_start (logical x : Graph) : Agrees x (.start logical) := by
  intro v waiting o before
  obtain ⟨r, _, rfl⟩ := List.mem_map.mp waiting
  cases before

/-- The agreement lasts where the node that is entered settles. -/
theorem Agrees.enters {x : Graph} {n : Node} (agrees : Agrees x s) (next : s.queue = v :: queue)
    (enters : Enters logical limits s v queue n s')
    (settled : ∀ u ∈ x.nodes, u.id = nodeId v.task (s.lineage logical v) →
      u.splits = s.lineage logical v) : Agrees x s' := by
  intro w waiting o before u inside id
  rcases enters.queue_cases waiting with old | ⟨f, _, _, rfl⟩
  · exact agrees w (next ▸ List.mem_cons_of_mem v old) o before u inside id
  · cases before
    exact settled u inside id

theorem Agrees.drop {x : Graph} (agrees : Agrees x s) (next : s.queue = v :: queue) :
    Agrees x { s with queue := queue } :=
  fun w waiting => agrees w (next ▸ List.mem_cons_of_mem v waiting)

/-- The arrivals to come agree with a graph throughout the walk, if its nodes are settled where arrivals
are let in. -/
theorem agrees_of_runs {x : Graph} (separated : Separated logical.ids)
    (settled : ∀ s v queue, Runs (step logical limits) (.start logical) s → s.queue = v :: queue →
      tooEarly logical v.task v.splits = false → Agrees x s →
        ∀ u ∈ x.nodes, u.id = nodeId v.task (s.lineage logical v) → u.splits = s.lineage logical v)
    (run : Runs (step logical limits) (.start logical) s) : Agrees x s := by
  induction run with
  | refl => exact agrees_start logical x
  | @tail s s' run taken ih =>
    obtain ⟨v, queue, next⟩ := exists_head_of_takes taken
    rcases (unfolded_of_runs separated run).enters separated next taken with
      ⟨_, rfl⟩ | ⟨onTime, n, enters⟩
    · exact ih.drop next
    · exact ih.enters next enters (settled s v queue run next onTime ih)

namespace Finished

variable (finished : Finished logical limits final) (separated : Separated logical.ids)

include finished separated

/-- If nodes settle, arrivals at one node are behind the same forks. -/
theorem keepsApart_of_settles (settles : Settles logical limits final.graph) :
    KeepsApart logical limits := by
  intro t u splits splits' letIn letIn' same
  obtain ⟨_, w, inside, id, _⟩ := finished.exists_node separated letIn
  calc splits = w.splits := (settles t splits letIn w inside id).symm
    _ = splits' := settles u splits' letIn' w inside (id.trans same)

/-- If arrivals at one node are behind the same forks, nothing that is noted of it is ever
overwritten. -/
theorem settles_of_keepsApart (apart : KeepsApart logical limits) :
    Settles logical limits final.graph := by
  intro t splits letIn w inside id
  have entered := letIn_of_mem separated finished.run inside
  have unfolded := finished.unfolded separated
  refine apart _ _ _ _ entered letIn ?_
  rw [← (unfolded.nodes w inside).copied.id_eq, id]

/-- The id of a node tells its task and its innermost number, so the numbers decide. -/
theorem keepsApart_of_numbersTellForks (tell : NumbersTellForks logical limits) :
    KeepsApart logical limits := by
  intro t u splits splits' letIn letIn' same
  have unfolded := finished.unfolded separated
  obtain ⟨alive, w, inside, id, name, number, own⟩ := finished.exists_node separated letIn
  obtain ⟨alive', w', inside', id', name', number', own'⟩ := finished.exists_node separated letIn'
  obtain rfl := Graph.eq_of_id_eq unfolded.coherent.unique inside inside'
    (id.trans (same.trans id'.symm))
  obtain rfl : t = u := name.symm.trans name'
  cases fork : forkAt logical t with
  | true => exact (own fork).symm.trans (own' fork)
  | false =>
    have numbers := number.symm.trans number'
    exact alive.eq unfolded alive' (tell t splits splits' fork letIn letIn' numbers) numbers

/-- The transitions to the node of an arrival keep the forks: the one that the arrival came along, and
those from nodes behind the same forks. -/
theorem keeps_of_enters (settles : Settles logical limits final.graph) {n : Node}
    (run : Runs (step logical limits) (.start logical) s)
    (taken : Takes (step logical limits) s s') (next : s.queue = v :: queue)
    (enters : Enters logical limits s v queue n s') (agrees : Agrees final.graph s)
    (letIn : LetIn logical limits v.task (s.lineage logical v)) {e : Edge} {u w : Node}
    (inside : e ∈ s'.graph.edges) (new : e ∉ s.graph.edges) (known : u ∈ final.graph.nodes)
    (known' : w ∈ final.graph.nodes) (source : e.source = u.id) (target : e.destination = w.id) :
    forkAt logical w.name = false ∧ w.splits = u.splits ∨
      forkAt logical w.name = true ∧ ∃ k, w.splits = u.splits ++ [⟨w.name, k⟩] := by
  rcases enters.known e inside with old | ⟨o, source', target', _, _, origin⟩
  · exact absurd old new
  have id : w.id = nodeId v.task (s.lineage logical v) := target.symm.trans target'
  have id' : u.id = o.1 := source.symm.trans source'
  have copied := ((finished.unfolded separated).nodes w known').copied
  have name := (copied.inj separated (mem_ids_of_task enters.task) id).1
  rw [name, settles _ _ letIn w known' id]
  rcases origin with before | ⟨plain, _, _, a, inside', _, behind, id''⟩
  · rw [agrees v (next ▸ List.mem_cons_self) o before u known id']
    cases fork : forkAt logical v.task with
    | true => exact .inr ⟨rfl, _, lineage_of_fork fork⟩
    | false => exact .inl ⟨rfl, lineage_of_not_fork fork⟩
  · have run' := run.tail taken
    have copied' := ((unfolded_of_runs separated run').nodes a inside').copied
    have same : u.id = nodeId a.name a.splits := (id'.trans id''.symm).trans copied'.id_eq
    rw [settles _ _ (letIn_of_mem separated run' inside') u known same, behind]
    exact .inl ⟨plain, rfl⟩

/-- If nodes settle, the forks of neighbours fit. -/
theorem keepsLineages_of_settles (settles : Settles logical limits final.graph) :
    KeepsLineages logical final.graph := by
  have held : ∀ s, Runs (step logical limits) (.start logical) s →
      ∀ e ∈ s.graph.edges, ∀ u ∈ final.graph.nodes, ∀ w ∈ final.graph.nodes, e.source = u.id →
        e.destination = w.id → forkAt logical w.name = false ∧ w.splits = u.splits ∨
          forkAt logical w.name = true ∧ ∃ k, w.splits = u.splits ++ [⟨w.name, k⟩] := by
    intro s run
    induction run with
    | refl => exact nofun
    | @tail s s' run taken ih =>
      obtain ⟨v, queue, next⟩ := exists_head_of_takes taken
      rcases (unfolded_of_runs separated run).enters separated next taken with
        ⟨_, rfl⟩ | ⟨onTime, n, enters⟩
      · exact ih
      · have letIn : LetIn logical limits v.task (s.lineage logical v) :=
          ⟨s, v, queue, run, next, rfl, rfl, onTime⟩
        have agrees : Agrees final.graph s := agrees_of_runs separated
          (fun s v queue run next onTime _ =>
            settles _ _ ⟨s, v, queue, run, next, rfl, rfl, onTime⟩) run
        intro e inside u known w known' source target
        by_cases old : e ∈ s.graph.edges
        · exact ih e old u known w known' source target
        · exact finished.keeps_of_enters separated settles run taken next enters agrees letIn inside old
            known known' source target
  intro e inside u known w known' source target
  rcases held final finished.run e inside u known w known' source target with
    ⟨plain, same⟩ | ⟨fork, k, behind⟩
  · rw [plain]
    exact same
  · rw [fork, if_pos rfl]
    refine ⟨k, behind, ?_⟩
    rw [((finished.unfolded separated).nodes w known').copied.id_eq]
    exact nodeId_of_lastNumber_some _ (by rw [behind, lastNumber_append])

/-- If transitions keep the forks, then a node that an arrival enters is in the end behind the forks of
the arrival, which came along a transition that is there in the end. -/
theorem settled_of_keepsLineages (keeps : KeepsLineages logical final.graph)
    (run : Runs (step logical limits) (.start logical) s) (agrees : Agrees final.graph s)
    (next : s.queue = v :: queue) (onTime : tooEarly logical v.task v.splits = false) {w : Node}
    (inside : w ∈ final.graph.nodes) (id : w.id = nodeId v.task (s.lineage logical v)) :
    w.splits = s.lineage logical v := by
  have unfolded := finished.unfolded separated
  have unfolded₀ := unfolded_of_runs separated run
  have head : v ∈ s.queue := next ▸ List.mem_cons_self
  obtain ⟨_, w', inside', id', name, number, own⟩ :=
    finished.exists_node separated ⟨s, v, queue, run, next, rfl, rfl, onTime⟩
  obtain rfl := Graph.eq_of_id_eq unfolded.coherent.unique inside' inside (id'.trans id.symm)
  cases fork : forkAt logical v.task with
  | true => exact own fork
  | false =>
    rw [lineage_of_not_fork fork] at number ⊢
    rcases (unfolded₀.queue v head).origin with ⟨_, _, outer⟩ | ⟨f, _, _, u, known, before, _⟩
    · rw [outer] at number ⊢
      exact splits_eq_nil_of_lastNumber number
    · obtain ⟨s', taken, later⟩ := finished.exists_step run next
      obtain ⟨n, enters⟩ := unfolded₀.exists_enters separated next taken onTime
      have grows := grows_of_runs separated (unfolded₀.takes separated taken) later
      obtain ⟨e, link, source, target⟩ := grows.adjacent (enters.led _ before).adjacent
      obtain ⟨a, known', id''⟩ := Graph.mem_ids_iff.mp (unfolded.coherent.source_mem e link)
      have rule := keeps e link a known' w' inside id''.symm (target.trans id.symm)
      rw [name, fork] at rule
      exact rule.trans (agrees v head _ before a known' (id''.trans source))

theorem settles_of_keepsLineages (keeps : KeepsLineages logical final.graph) :
    Settles logical limits final.graph := by
  intro t splits letIn w inside id
  obtain ⟨s, v, queue, run, next, rfl, rfl, onTime⟩ := letIn
  have agrees : Agrees final.graph s := agrees_of_runs separated
    (fun _ _ _ run next onTime agrees _ inside id =>
      finished.settled_of_keepsLineages separated keeps run agrees next onTime inside id) run
  exact finished.settled_of_keepsLineages separated keeps run agrees next onTime inside id

end Finished

end Expansion

open Expansion

variable {logical x : Graph} {limits : Limits}

/-- An expansion keeps branches apart, as its transitions and as its arrivals say, just if no task but a
fork is let in behind two forks by one number. -/
theorem keepsLineages_iff (separated : Separated logical.ids)
    (expanded : expand limits logical = .ok x) :
    (KeepsLineages logical x ↔ NumbersTellForks logical limits) ∧
      (KeepsApart logical limits ↔ NumbersTellForks logical limits) := by
  obtain ⟨final, run, done, rfl⟩ := expand_ok expanded
  have finished : Finished logical limits final := ⟨run, done⟩
  refine ⟨⟨fun keeps => ?_, fun tell => ?_⟩, ⟨fun apart => ?_, fun tell => ?_⟩⟩
  · have settles := finished.settles_of_keepsLineages separated keeps
    have apart := finished.keepsApart_of_settles separated settles
    exact numbersTellForks_of_keepsApart apart
  · have apart := finished.keepsApart_of_numbersTellForks separated tell
    have settles := finished.settles_of_keepsApart separated apart
    exact finished.keepsLineages_of_settles separated settles
  · exact numbersTellForks_of_keepsApart apart
  · exact finished.keepsApart_of_numbersTellForks separated tell

def oneFork : Graph where
  nodes := [⟨"a", "a", none, [], none⟩, ⟨"b", "b", none, [], none⟩,
    ⟨"f", "f", none, [⟨"f", 0⟩], none⟩, ⟨"g", "g", none, [⟨"f", 0⟩], none⟩]
  edges := [⟨"a", "f", 0, [], some 0⟩, ⟨"b", "f", 0, [], some 0⟩, ⟨"f", "g", 0, [], some 0⟩]

/-- Behind the one fork, the number tells the branch. -/
theorem oneFork_keepsLineages_iff : Separated oneFork.ids ∧ ∃ x, expand {} oneFork = .ok x ∧
    x.ids = ["a", "b", "f__1", "f__2", "g__1", "g__2"] ∧
      NumbersTellForks oneFork {} ∧ KeepsLineages oneFork x ∧ KeepsApart oneFork {} := by
  have separated : Separated oneFork.ids := separated_of_not_mem (by decide)
  have worked : (workOff (step oneFork {}) 7 (.start oneFork)).map
      (fun r => r.map fun s => s.graph.ids) =
        some (.ok ["a", "b", "f__1", "f__2", "g__1", "g__2"]) := by
    cbv
  obtain ⟨x, expanded, ids⟩ := exists_expand_of_workOff Graph.ids worked
  have along : passAlong (step oneFork {}) (nextAmong oneFork
      [("a", []), ("b", []), ("f", [⟨"f", 1⟩]), ("f", [⟨"f", 2⟩]), ("g", [⟨"f", 1⟩]),
        ("g", [⟨"f", 2⟩])]) 7 (.start oneFork) = true := by
    cbv
  have told : ∀ e ∈ [("a", []), ("b", []), ("f", [⟨"f", 1⟩]), ("f", [⟨"f", 2⟩]), ("g", [⟨"f", 1⟩]),
      ("g", [(⟨"f", 2⟩ : Split)])], lastFork e.2 = if e.2 = [] then none else some "f" := by
    decide
  have tell : NumbersTellForks oneFork {} := by
    intro t splits splits' _ letIn letIn' number
    rw [told _ (letIn.mem_of_passAlong along), told _ (letIn'.mem_of_passAlong along)]
    have none_ : ∀ splits, splits = [] ↔ lastNumber splits = none := fun splits =>
      ⟨fun same => same ▸ rfl, splits_eq_nil_of_lastNumber⟩
    simp only [none_, number]
  obtain ⟨keeps, apart⟩ := keepsLineages_iff separated expanded
  exact ⟨separated, x, expanded, ids, tell, keeps.mpr tell, apart.mpr tell⟩

/-- Two forks that come from the same tasks and lead to one that repeats itself. -/
def twoForks : Plan :=
  .bare ⟨[("a", .leading ["c", "d"] none), ("b", .leading ["c", "d"] none),
    ("c", .leading ["l"] none), ("d", .leading ["l"] none), ("l", .leading ["l"] none)], by decide⟩

def twoForksGraph : Graph where
  nodes := [⟨"a", "a", none, [], none⟩, ⟨"c", "c", none, [⟨"c", 0⟩], none⟩,
    ⟨"d", "d", none, [⟨"d", 0⟩], none⟩, ⟨"b", "b", none, [], none⟩,
    ⟨"l", "l", none, [⟨"c", 0⟩], none⟩]
  edges := [⟨"a", "c", 0, [], some 0⟩, ⟨"a", "d", 0, [], some 0⟩, ⟨"b", "c", 0, [], some 0⟩,
    ⟨"b", "d", 0, [], some 0⟩, ⟨"c", "l", 0, [], some 0⟩, ⟨"d", "l", 0, [], some 0⟩,
    ⟨"l", "l", 0, [], some 0⟩]

def twoForksExpanded : Graph where
  nodes := [⟨"a", "a", none, [], none⟩, ⟨"b", "b", none, [], none⟩,
    ⟨"c__1", "c", none, [⟨"c", 1⟩], none⟩, ⟨"d__1", "d", none, [⟨"d", 1⟩], none⟩,
    ⟨"c__2", "c", none, [⟨"c", 2⟩], none⟩, ⟨"d__2", "d", none, [⟨"d", 2⟩], none⟩,
    ⟨"l__1", "l", none, [⟨"c", 1⟩], none⟩, ⟨"l__2", "l", none, [⟨"c", 2⟩], none⟩]
  edges := [⟨"a", "c__1", 0, [], some 0⟩, ⟨"a", "d__1", 0, [], some 0⟩,
    ⟨"b", "c__2", 0, [], some 0⟩, ⟨"b", "d__2", 0, [], some 0⟩, ⟨"c__1", "l__1", 0, [], some 0⟩,
    ⟨"l__1", "l__1", 0, [], some 0⟩, ⟨"d__1", "l__1", 0, [], some 0⟩,
    ⟨"c__2", "l__2", 0, [], some 0⟩, ⟨"l__2", "l__2", 0, [], some 0⟩,
    ⟨"d__2", "l__2", 0, [], some 0⟩]

/-- The plan has no complaints, but the task that both forks lead to is let in behind the first instance
of the one and the first instance of the other, and these end in one node. -/
theorem twoForks_not_keepsLineages : Inspection.Structure.problems twoForks = [] ∧
    direct {} twoForks = .ok twoForksGraph ∧ Separated twoForksGraph.ids ∧
      expand {} twoForksGraph = .ok twoForksExpanded ∧
        ¬KeepsLineages twoForksGraph twoForksExpanded := by
  have found : Inspection.Structure.arrivals twoForks =
      [("b", []), ("l", ["d"]), ("d", []), ("l", ["c"]), ("c", []), ("a", [])] :=
    Inspection.Structure.arrivals_of_workOff (n := 20) (by cbv)
  have clean : Inspection.Structure.problems twoForks = [] := by
    unfold Inspection.Structure.problems Inspection.Structure.ambiguousProblems
    rw [found]
    cbv
  have composed : direct {} twoForks = .ok twoForksGraph :=
    direct_of_workOff (n := 9) (by decide) (by cbv) (by cbv)
  have separated : Separated twoForksGraph.ids := separated_of_not_mem (by decide)
  have worked : (workOff (step twoForksGraph {}) 13 (.start twoForksGraph)).map
      (fun r => r.map fun s => id s.graph) = some (.ok twoForksExpanded) := by
    cbv
  obtain ⟨_, expanded, rfl⟩ := exists_expand_of_workOff id worked
  refine ⟨clean, composed, separated, expanded, fun keeps => ?_⟩
  have plain : forkAt twoForksGraph "l" = false := by
    cbv
  have rule := keeps ⟨"d__1", "l__1", 0, [], some 0⟩ (by decide)
    ⟨"d__1", "d", none, [⟨"d", 1⟩], none⟩ (by decide)
    ⟨"l__1", "l", none, [⟨"c", 1⟩], none⟩ (by decide) rfl rfl
  rw [plain, if_neg Bool.false_ne_true] at rule
  exact absurd rule (by decide)

end Workflow.Composition
