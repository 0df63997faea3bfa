import Workflow.Proofs.Expansion.Entering

/-!
The invariant of an expansion is preserved by its steps. Entering a node makes the graph grow: every
node is stood for, and those of forks stay what they are.
-/

namespace Workflow.Composition.Expansion

open Workflow.Graph

variable {logical : Graph} {limits : Limits} {s s' : State} {v : Visit} {queue : List Visit}
  {n u w : Node} {splits : List Split}

/-- The node stands for another one, with the same id and a last fork of the same number. -/
structure Stands (u u' : Node) : Prop where
  id : u'.id = u.id
  name : u'.name = u.name
  number : lastNumber u'.splits = lastNumber u.splits

/-- What a graph that has grown keeps: every node is stood for, forks by themselves, and every
transition is there. -/
structure Grows (logical g g' : Graph) : Prop where
  nodes : ∀ u ∈ g.nodes, ∃ u' ∈ g'.nodes, Stands u u' ∧ (forkAt logical u.name = true → u' = u)
  leads : ∀ {a b c}, g.Leads a b c → g'.Leads a b c

theorem Grows.refl (logical g : Graph) : Grows logical g g :=
  ⟨fun u inside => ⟨u, inside, ⟨rfl, rfl, rfl⟩, fun _ => rfl⟩, fun leads => leads⟩

theorem Grows.trans {g g' g'' : Graph} (first : Grows logical g g') (second : Grows logical g' g'') :
    Grows logical g g'' := by
  refine ⟨fun u inside => ?_, fun leads => second.leads (first.leads leads)⟩
  obtain ⟨u', inside', stands, same⟩ := first.nodes u inside
  obtain ⟨u'', inside'', stands', same'⟩ := second.nodes u' inside'
  refine ⟨u'', inside'', ⟨stands'.id.trans stands.id, stands'.name.trans stands.name,
    stands'.number.trans stands.number⟩, fun fork => ?_⟩
  have kept := same fork
  subst kept
  exact same' fork

variable {g g' : Graph}

theorem Grows.alive (grows : Grows logical g g') (alive : Alive logical g splits) :
    Alive logical g' splits := by
  refine alive.imp_right ?_
  rintro ⟨w, inside, fork, behind⟩
  obtain ⟨w', inside', _, same⟩ := grows.nodes w inside
  rw [same fork] at inside'
  exact ⟨w, inside', fork, behind⟩

theorem Grows.adjacent (grows : Grows logical g g') {a b : String} (adjacent : g.Adjacent a b) :
    g'.Adjacent a b := by
  obtain ⟨e, inside, source, target⟩ := adjacent
  exact (grows.leads ⟨e, inside, source, target, rfl⟩).adjacent

theorem Repeats.stands {f e : Edge} {u' w' : Node} (repeats : Repeats logical f e u w)
    (source : Stands u u') (target : Stands w w') : Repeats logical f e u' w' := by
  refine ⟨?_, ?_, ?_, repeats.ordinal, ?_⟩
  · rw [source.name, source.id]
    exact repeats.source
  · rw [target.name, target.id]
    exact repeats.destination
  · rw [source.name, source.id]
    exact repeats.criteria
  · rw [target.name, source.number, target.number]
    exact repeats.level

theorem Grows.taken (grows : Grows logical g g') {f : Edge} {u' : Node} (stands : Stands u u')
    (taken : Taken logical g u splits f) : Taken logical g' u' splits f := by
  refine taken.imp_right ?_
  rintro ⟨w, inside, target, level, leads⟩
  obtain ⟨w', inside', stands', _⟩ := grows.nodes w inside
  refine ⟨w', inside', stands'.name.trans target, ?_, ?_⟩
  · rw [stands'.name, stands'.number, stands.number]
    exact level
  · rw [stands.id, stands.name, stands'.id]
    exact grows.leads leads

theorem Grows.expected (grows : Grows logical s.graph s'.graph)
    (expected : Expected logical s v) : Expected logical s' v := by
  refine ⟨expected.arrives, grows.alive expected.alive, expected.origin.imp_right ?_⟩
  rintro ⟨f, link, target, u, inside, before, source, number⟩
  obtain ⟨u', inside', stands, _⟩ := grows.nodes u inside
  refine ⟨f, link, target, u', inside', ?_, stands.name.trans source,
    stands.number.trans number⟩
  rw [stands.id]
  exact before

namespace Enters

/-- A node with the id that is entered is a copy of the same task, and no fork. -/
theorem stands (enters : Enters logical limits s v queue n s') (unfolded : Unfolded logical s)
    (separated : Separated logical.ids) (inside : u ∈ s.graph.nodes)
    (same : u.id = nodeId v.task (s.lineage logical v)) :
    Stands u (copy n (s.lineage logical v)) ∧ forkAt logical u.name = false := by
  have instance_ := unfolded.nodes u inside
  obtain ⟨name, number⟩ := instance_.copied.inj separated (mem_ids_of_task enters.task) same
  refine ⟨⟨enters.copy_id.trans same.symm, enters.copy_name.trans name.symm, number.symm⟩, ?_⟩
  by_contra fork
  rw [Bool.not_eq_false] at fork
  -- The number of the arrival is greater than all that the fork has given out.
  obtain ⟨splits, k, behind, bound⟩ := instance_.counted fork
  rw [name] at fork bound
  rw [behind, lineage_of_fork fork, lastNumber_append, lastNumber_append] at number
  have equal : k = s.counter v.task + 1 := Option.some.inj number
  omega

/-- Entering a node only adds to the graph: a node that was there already stands for what it was. -/
theorem grows (enters : Enters logical limits s v queue n s') (unfolded : Unfolded logical s)
    (separated : Separated logical.ids) : Grows logical s.graph s'.graph := by
  refine ⟨fun u inside => ?_, enters.kept⟩
  by_cases same : u.id = nodeId v.task (s.lineage logical v)
  · obtain ⟨stands, plain⟩ := enters.stands unfolded separated inside same
    refine ⟨_, enters.copy_mem, stands, fun fork => ?_⟩
    rw [plain] at fork
    cases fork
  · exact ⟨u, (enters.nodes u).mpr (.inl ⟨inside, same⟩), ⟨rfl, rfl, rfl⟩, fun _ => rfl⟩

/-- The forks that an arrival is behind are alive: it may be the first behind the last of them. -/
theorem alive (enters : Enters logical limits s v queue n s')
    (grows : Grows logical s.graph s'.graph) (expected : Expected logical s v) :
    Alive logical s'.graph (s.lineage logical v) := by
  cases fork : forkAt logical v.task with
  | true =>
    exact .inr ⟨_, enters.copy_mem, by rw [enters.copy_name]; exact fork, rfl⟩
  | false =>
    rw [lineage_of_not_fork fork]
    exact grows.alive expected.alive

theorem lineage (expected : Expected logical s v) :
    Lineage logical v.task (s.lineage logical v) :=
  ⟨_, expected.arrives, splitTasks_lineage s v⟩

/-- After a node was entered, all nodes are instances of their tasks. -/
theorem instances (enters : Enters logical limits s v queue n s')
    (grows : Grows logical s.graph s'.graph) (unfolded : Unfolded logical s)
    (expected : Expected logical s v) : ∀ u ∈ s'.graph.nodes, Instance logical s' u := by
  intro u inside
  rcases (enters.nodes u).mp inside with ⟨old, _⟩ | rfl
  · have instance_ := unfolded.nodes u old
    refine ⟨instance_.copied, grows.alive instance_.alive, instance_.lineage, fun fork => ?_⟩
    obtain ⟨splits, k, behind, bound⟩ := instance_.counted fork
    exact ⟨splits, k, behind, bound.trans (enters.counter_le _)⟩
  · refine ⟨⟨n, ?_, rfl⟩, enters.alive grows expected, ?_, fun fork => ?_⟩
    · rw [enters.copy_name]
      exact enters.task
    · rw [enters.copy_name]
      exact Enters.lineage expected
    · rw [enters.copy_name] at fork ⊢
      refine ⟨v.splits, s.counter v.task + 1, lineage_of_fork fork, ?_⟩
      rw [enters.counter, if_pos ⟨fork, rfl⟩]

/-- The transitions of the new graph repeat those of the old one. -/
theorem edges (enters : Enters logical limits s v queue n s')
    (grows : Grows logical s.graph s'.graph) (unfolded : Unfolded logical s)
    (expected : Expected logical s v) :
    ∀ e ∈ s'.graph.edges, ∃ f ∈ logical.edges, ∃ u ∈ s'.graph.nodes, ∃ w ∈ s'.graph.nodes,
      Repeats logical f e u w := by
  intro e inside
  rcases enters.known e inside with old | ⟨o, source, target, criteria, ordinal, origin⟩
  · obtain ⟨f, link, u, inside, w, inside', repeats⟩ := unfolded.edges e old
    obtain ⟨u', known, stands, _⟩ := grows.nodes u inside
    obtain ⟨w', known', stands', _⟩ := grows.nodes w inside'
    exact ⟨f, link, u', known, w', known', repeats.stands stands stands'⟩
  · have found : o.2 ∈ logical.edges ∧ o.2.destination = v.task ∧ ∃ u ∈ s'.graph.nodes,
        u.name = o.2.source ∧ u.id = o.1 ∧ (forkAt logical v.task = false →
          lastNumber u.splits = lastNumber (s.lineage logical v)) := by
      rcases origin with before | ⟨_, link, target', u, known, name, behind, id⟩
      · rcases expected.origin with ⟨nothing, _⟩ | ⟨f, link, target', u, known, came, name, number⟩
        · rw [nothing] at before
          cases before
        · rw [came] at before
          cases before
          obtain ⟨u', known', stands, _⟩ := grows.nodes u known
          refine ⟨link, target', u', known', stands.name.trans name, stands.id, fun plain => ?_⟩
          rw [lineage_of_not_fork plain]
          exact stands.number.trans number
      · exact ⟨link, target', u, known, name, id, fun _ => congrArg lastNumber behind⟩
    obtain ⟨link, target', u, known, name, id, level⟩ := found
    refine ⟨o.2, link, u, known, _, enters.copy_mem, ⟨name.symm, source.trans id.symm⟩,
      ⟨target'.trans enters.copy_name.symm, target.trans enters.copy_id.symm⟩, ?_, ordinal, ?_⟩
    · rw [criteria, name, id]
    · rw [enters.copy_name]
      exact level

/-- The ways out of a new node are expected. -/
theorem expected (enters : Enters logical limits s v queue n s')
    (grows : Grows logical s.graph s'.graph) (expected : Expected logical s v) {f : Edge}
    (link : f ∈ logical.edges) (source : f.source = v.task) :
    Expected logical s' ⟨f.destination, s.lineage logical v,
      some (nodeId v.task (s.lineage logical v), f)⟩ where
  arrives := by
    have leads : (network logical).leads v.task f.destination := ⟨f, link, source, rfl⟩
    have arrives := expected.arrives.follow leads
    rw [← splitTasks_lineage s v] at arrives
    exact arrives
  alive := enters.alive grows expected
  origin := .inr ⟨f, link, rfl, _, enters.copy_mem, by rw [enters.copy_id],
    enters.copy_name.trans source.symm, rfl⟩

/-- The way that the arrival came along is taken. -/
theorem taken (enters : Enters logical limits s v queue n s') {f : Edge} {u' : Node}
    (stands : Stands u u') (source : f.source = u.name) (target : f.destination = v.task)
    (before : v.prev = some (u.id, f)) (number : lastNumber v.splits = lastNumber u.splits) :
    Taken logical s'.graph u' splits f := by
  refine .inr ⟨_, enters.copy_mem, enters.copy_name.trans target.symm, ?_, ?_⟩
  · rw [enters.copy_name]
    intro plain
    calc lastNumber (s.lineage logical v)
        = lastNumber v.splits := congrArg lastNumber (lineage_of_not_fork plain)
      _ = lastNumber u'.splits := number.trans stands.number.symm
  · have leads := enters.led _ before
    rw [source] at leads
    rw [stands.id, stands.name, enters.copy_id]
    exact leads

theorem left_of_left (enters : Enters logical limits s v queue n s')
    (grows : Grows logical s.graph s'.graph) (next : s.queue = v :: queue) {u' : Node}
    (left : Left logical s u) (stands : Stands u u') : Left logical s' u' := by
  obtain ⟨splits, number, lineage, ways⟩ := left
  refine ⟨splits, number.trans stands.number.symm, stands.name ▸ lineage, fun f link source => ?_⟩
  rw [stands.name] at source
  rcases ways f link source with waiting | taken
  · rw [next] at waiting
    rcases List.mem_cons.mp waiting with rfl | later
    · exact .inr (enters.taken stands source rfl rfl number)
    · rw [stands.id]
      exact .inl (enters.queue_subset later)
  · exact .inr (grows.taken stands taken)

/-- After a node was entered, the ways out of all nodes are taken or to be taken. -/
theorem left (enters : Enters logical limits s v queue n s')
    (grows : Grows logical s.graph s'.graph) (unfolded : Unfolded logical s)
    (separated : Separated logical.ids) (next : s.queue = v :: queue)
    (expected : Expected logical s v) : ∀ u ∈ s'.graph.nodes, Left logical s' u := by
  intro u inside
  rcases (enters.nodes u).mp inside with ⟨old, _⟩ | rfl
  · exact enters.left_of_left grows next (unfolded.left u old) ⟨rfl, rfl, rfl⟩
  · rcases enters.queue with ⟨known, _⟩ | ⟨_, _, _, es, links, same⟩
    · obtain ⟨m, inside, named⟩ := mem_ids_iff.mp known
      exact enters.left_of_left grows next (unfolded.left m inside)
        (enters.stands unfolded separated inside named).1
    · refine ⟨s.lineage logical v, rfl, ?_, fun f link source => .inl ?_⟩
      · rw [enters.copy_name]
        exact Enters.lineage expected
      · rw [enters.copy_name] at source
        rw [same, enters.copy_id]
        exact List.mem_append_right _ (List.mem_map.mpr
          ⟨f, (mem_next_iff links).mpr ⟨link, source⟩, rfl⟩)

theorem roots (enters : Enters logical limits s v queue n s')
    (grows : Grows logical s.graph s'.graph) (unfolded : Unfolded logical s)
    (next : s.queue = v :: queue) {r : String} (root : r ∈ logical.roots) :
    ⟨r, [], none⟩ ∈ s'.queue ∨ tooEarly logical r [] = true ∨
      ∃ u ∈ s'.graph.nodes, u.name = r ∧ u.splits = [] := by
  rcases unfolded.roots r root with waiting | early | ⟨u, inside, name, outer⟩
  · rw [next] at waiting
    rcases List.mem_cons.mp waiting with rfl | later
    · refine .inr (.inr ⟨_, enters.copy_mem, enters.copy_name, ?_⟩)
      exact lineage_of_not_fork (not_fork_of_root root)
    · exact .inl (enters.queue_subset later)
  · exact .inr (.inl early)
  · obtain ⟨u', inside', stands, _⟩ := grows.nodes u inside
    refine .inr (.inr ⟨u', inside', stands.name.trans name, ?_⟩)
    exact splits_eq_nil_of_lastNumber (stands.number.trans (congrArg lastNumber outer))

/-- Entering a node keeps what holds throughout an expansion. -/
theorem unfolded (enters : Enters logical limits s v queue n s') (unfolded : Unfolded logical s)
    (separated : Separated logical.ids) (next : s.queue = v :: queue) : Unfolded logical s' := by
  have grows := enters.grows unfolded separated
  have expected := unfolded.queue v (next ▸ List.mem_cons_self)
  refine ⟨enters.coherent, enters.made, enters.instances grows unfolded expected,
    enters.edges grows unfolded expected, ?_, enters.left grows unfolded separated next expected,
    fun r => enters.roots grows unfolded next, ?_⟩
  · intro w waiting
    rcases enters.queue_cases waiting with old | ⟨f, link, source, rfl⟩
    · exact grows.expected (unfolded.queue w (next ▸ List.mem_cons_of_mem v old))
    · exact enters.expected grows expected link source
  · intro u inside
    rcases (enters.nodes u).mp inside with ⟨old, _⟩ | rfl
    · exact (unfolded.led u old).imp_right fun ⟨a, adjacent⟩ => ⟨a, grows.adjacent adjacent⟩
    · rw [enters.copy_name, enters.copy_id]
      rcases expected.origin with ⟨_, root, _⟩ | ⟨f, _, _, u, _, before, _⟩
      · exact .inl root
      · exact .inr ⟨_, (enters.led _ before).adjacent⟩

end Enters

theorem Unfolded.drop (unfolded : Unfolded logical s) (next : s.queue = v :: queue)
    (early : tooEarly logical v.task v.splits = true) :
    Unfolded logical { s with queue := queue } := by
  have head : ∀ {w : Visit}, w ∈ s.queue → w = v ∨ w ∈ queue := by
    intro w waiting
    rw [next] at waiting
    exact List.mem_cons.mp waiting
  refine ⟨unfolded.coherent, unfolded.made, fun u inside => ?_, unfolded.edges, fun w waiting => ?_,
    fun u inside => ?_, fun r root => ?_, unfolded.led⟩
  · obtain ⟨copied, alive, lineage, counted⟩ := unfolded.nodes u inside
    exact ⟨copied, alive, lineage, counted⟩
  · obtain ⟨arrives, alive, origin⟩ := unfolded.queue w (next ▸ List.mem_cons_of_mem v waiting)
    exact ⟨arrives, alive, origin⟩
  · obtain ⟨splits, number, lineage, ways⟩ := unfolded.left u inside
    refine ⟨splits, number, lineage, fun f link source => ?_⟩
    rcases ways f link source with waiting | taken
    · rcases head waiting with rfl | later
      · exact .inr (.inl early)
      · exact .inl later
    · exact .inr taken
  · rcases unfolded.roots r root with waiting | settled
    · rcases head waiting with rfl | later
      · exact .inr (.inl early)
      · exact .inl later
    · exact .inr settled

/-- What holds throughout an expansion is kept by one step. -/
theorem Unfolded.takes (separated : Separated logical.ids) (unfolded : Unfolded logical s)
    (taken : Takes (step logical limits) s s') : Unfolded logical s' := by
  obtain ⟨v, queue, next⟩ := exists_head_of_takes taken
  rcases unfolded.enters separated next taken with ⟨early, rfl⟩ | ⟨_, n, enters⟩
  · exact unfolded.drop next early
  · exact enters.unfolded unfolded separated next

end Workflow.Composition.Expansion
