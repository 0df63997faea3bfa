import Mathlib
import Workflow.Proofs.Direct.Parallel

/-!
Which graph the direct composition makes of a definition: the part of it that is reached
(`IsReachedPart`). It has one node for each task, and for each clause of a task, each of its
destinations and each guard one transition, whatever the ways are on which the walk comes to the task.
-/

namespace Workflow

namespace Plan

variable {p : Plan} {s d : String} {criteria : List String} {c : Clause}

/-- The clause is one of the task `s`, has these guards, and names `d`. -/
def LeadsBy (p : Plan) (s d : String) (criteria : List String) (c : Clause) : Prop :=
  ∃ task, p.tasks.get? s = some task ∧ c ∈ task.clauses ∧ d ∈ c.destinations ∧
    c.condition.toList = criteria

theorem LeadsBy.criteria_eq (leads : p.LeadsBy s d criteria c) : c.condition.toList = criteria := by
  obtain ⟨_, _, _, _, same⟩ := leads
  exact same

/-- The clauses of every task are numbered in their order. -/
def Numbered (p : Plan) : Prop :=
  ∀ s task, p.tasks.get? s = some task → task.clauses.Pairwise fun a b => a.ordinal < b.ordinal

/-- Clauses are numbered on from the first. -/
theorem pairwise_clausesFrom (name : String) (first : Nat) (cs : List Definition.Clause) :
    (∀ c ∈ clausesFrom name first cs, first ≤ c.ordinal) ∧
      (clausesFrom name first cs).Pairwise fun a b => a.ordinal < b.ordinal := by
  induction cs generalizing first with
  | nil => exact ⟨nofun, .nil⟩
  | cons c cs ih =>
    obtain ⟨later, sorted⟩ := ih (first + 1)
    unfold clausesFrom
    refine ⟨fun c' inside => ?_, List.pairwise_cons.mpr ⟨fun c' inside => ?_, sorted⟩⟩
    · rcases List.mem_cons.mp inside with rfl | inside
      · exact le_refl _
      · exact Nat.le_of_succ_le (later c' inside)
    · exact later c' inside

theorem numbered_ofDefinition (d : Definition) : (ofDefinition d).Numbered := by
  intro s task found
  have entry := Table.get?_eq_some_iff.mp found
  obtain ⟨⟨name, t⟩, _, same⟩ := List.mem_map.mp entry
  cases same
  exact (pairwise_clausesFrom name 0 t.next).2

/-- A number stands for one clause. -/
theorem Numbered.eq_of_ordinal_eq (numbered : p.Numbered) {task : Task} {c' : Clause}
    (found : p.tasks.get? s = some task) (first : c ∈ task.clauses) (second : c' ∈ task.clauses)
    (same : c.ordinal = c'.ordinal) : c = c' := by
  have unique : (task.clauses.map Clause.ordinal).Nodup :=
    List.pairwise_map.mpr ((numbered s task found).imp Nat.ne_of_lt)
  exact List.inj_on_of_nodup_map unique first second same

theorem LeadsBy.mem_linksBetween (leads : p.LeadsBy s d criteria c) (plain : isReserved d = false) :
    (⟨d, c.condition, c.ordinal⟩ : Link) ∈ p.linksBetween s d := by
  obtain ⟨task, found, clause, destination, _⟩ := leads
  have link : (⟨d, c.condition, c.ordinal⟩ : Link) ∈ p.next s :=
    mem_next_iff.mpr ⟨task, found, c, clause, mem_links_iff.mpr ⟨destination, rfl, rfl⟩⟩
  exact mem_linksBetween_iff.mpr ⟨link, rfl, plain⟩

/-- A link between two tasks comes from a clause. -/
theorem exists_leadsBy {l : Link} (inside : l ∈ p.linksBetween s d) :
    isReserved d = false ∧ ∃ c, p.LeadsBy s d l.condition.toList c ∧ c.ordinal = l.ordinal := by
  obtain ⟨link, rfl, plain⟩ := mem_linksBetween_iff.mp inside
  obtain ⟨task, found, c, clause, within⟩ := mem_next_iff.mp link
  obtain ⟨destination, condition, ordinal⟩ := mem_links_iff.mp within
  exact ⟨plain, c, ⟨task, found, clause, destination, by rw [condition]⟩, ordinal.symm⟩

/-- Links of one task that come from the same clause have the same condition. -/
theorem Numbered.linksBetween_apart (numbered : p.Numbered) :
    (p.linksBetween s d).Pairwise fun a b =>
      a.ordinal ≤ b.ordinal ∧ (a.ordinal = b.ordinal → a.condition = b.condition) := by
  refine (p.linksBetween_sorted s d).imp_of_mem fun {a b} first second le => ⟨le, fun same => ?_⟩
  obtain ⟨_, c, ⟨task, found, clause, _, condition⟩, ordinal⟩ := exists_leadsBy first
  obtain ⟨_, c', ⟨task', found', clause', _, condition'⟩, ordinal'⟩ := exists_leadsBy second
  cases found.symm.trans found'
  have one : c = c' := numbered.eq_of_ordinal_eq found clause clause' (by omega)
  subst one
  exact Composition.Direct.toList_inj.mp (condition.symm.trans condition')

end Plan

namespace Composition

open Workflow.Graph
open Workflow.Plan (Link Clause)

namespace Direct

variable {t d : String} {ls : List Link} {l : Link} {condition : Option String}

/-- The last of the links with a condition comes from the last of their clauses. -/
theorem exists_lastOrdinal (sorted : ls.Pairwise fun a b => a.ordinal ≤ b.ordinal)
    (inside : l ∈ ls) (same : l.condition = condition) :
    ∃ last ∈ ls, last.condition = condition ∧ lastOrdinal condition ls = some last.ordinal ∧
      ∀ k ∈ ls, k.condition = condition → k.ordinal ≤ last.ordinal := by
  have listed : l ∈ ls.filter fun l => l.condition == condition :=
    List.mem_filter.mpr ⟨inside, by simpa using same⟩
  obtain ⟨last, found⟩ := Option.isSome_iff_exists.mp
    (List.getLast?_isSome.mpr (List.ne_nil_of_mem listed))
  obtain ⟨before, split⟩ := List.getLast?_eq_some_iff.mp found
  have ordered := sorted.filter fun l => l.condition == condition
  rw [split, List.pairwise_append] at ordered
  have here : last ∈ ls.filter fun l => l.condition == condition :=
    split ▸ List.mem_append_right _ List.mem_cons_self
  refine ⟨last, (List.mem_filter.mp here).1, by simpa using (List.mem_filter.mp here).2, ?_, ?_⟩
  · unfold lastOrdinal
    rw [found]
    rfl
  · intro k among equal
    have listed' : k ∈ ls.filter fun l => l.condition == condition :=
      List.mem_filter.mpr ⟨among, by simpa using equal⟩
    rw [split] at listed'
    rcases List.mem_append.mp listed' with earlier | final
    · exact ordered.2.2 k earlier last List.mem_cons_self
    · rw [List.mem_singleton.mp final]

/-- Conditions stand in the order of the first clauses that have them. -/
theorem conditions_ordered (sorted : ls.Pairwise fun a b =>
      a.ordinal ≤ b.ordinal ∧ (a.ordinal = b.ordinal → a.condition = b.condition)) :
    (ls.map Link.condition).eraseDups.Pairwise fun a b =>
      ∃ l ∈ ls, l.condition = a ∧ ∀ k ∈ ls, k.condition = b → l.ordinal < k.ordinal := by
  induction ls using List.reverseRecOn with
  | nil => exact .nil
  | append_singleton ls last ih =>
    obtain ⟨before, _, later⟩ := List.pairwise_append.mp sorted
    have ordered := ih before
    have le : ∀ k ∈ ls, k.ordinal ≤ last.ordinal := fun k inside =>
      (later k inside last List.mem_cons_self).1
    rw [List.map_append, List.map_singleton]
    by_cases known : last.condition ∈ ls.map Link.condition
    · rw [eraseDups_append_of_subset (by simpa using known)]
      refine ordered.imp fun {a b} ⟨l, inside, same, first⟩ =>
        ⟨l, List.mem_append_left _ inside, same, fun k among equal => ?_⟩
      rcases List.mem_append.mp among with among | final
      · exact first k among equal
      · -- A link with this condition has come before the last one.
        rw [List.mem_singleton.mp final] at equal ⊢
        obtain ⟨k', among', equal'⟩ := List.mem_map.mp known
        exact Nat.lt_of_lt_of_le (first k' among' (equal'.trans equal)) (le k' among')
    · rw [eraseDups_concat_of_not_mem known]
      refine List.pairwise_append.mpr ⟨ordered.imp_of_mem ?_, List.pairwise_singleton _ _, ?_⟩
      · intro a b _ listed ⟨l, inside, same, first⟩
        refine ⟨l, List.mem_append_left _ inside, same, fun k among equal => ?_⟩
        rcases List.mem_append.mp among with among | final
        · exact first k among equal
        · rw [List.mem_singleton.mp final] at equal
          exact absurd (equal ▸ List.mem_eraseDups.mp listed) known
      · intro a listed b final
        rw [List.mem_singleton.mp final]
        obtain ⟨l, inside, rfl⟩ := List.mem_map.mp (List.mem_eraseDups.mp listed)
        refine ⟨l, List.mem_append_left _ inside, rfl, fun k among equal => ?_⟩
        rcases List.mem_append.mp among with among | final
        · exact absurd (List.mem_map.mpr ⟨k, among, equal⟩) known
        · rw [List.mem_singleton.mp final]
          refine Nat.lt_of_le_of_ne (le l inside) fun same => known ?_
          exact List.mem_map.mpr ⟨l, inside, (later l inside last List.mem_cons_self).2 same⟩

/-- The guards of transitions between two tasks are those of the links, without repetitions. -/
theorem criteria_parallel (t d : String) (ls : List Link) :
    (parallel t d ls).map Edge.criteria = (ls.map Link.condition).eraseDups.map Option.toList := by
  unfold parallel
  rw [List.map_map, ← List.zipIdx_map_fst 0 (ls.map Link.condition).eraseDups, List.map_map]
  simp

end Direct

open Direct

variable {p : Plan} {limits : Limits} {g : Graph} {s d : String} {criteria : List String}
  {c : Clause} {e : Edge}

/-- The graph is the part of the plan that is reached. -/
structure IsReachedPart (p : Plan) (g : Graph) : Prop where
  /-- The nodes are the tasks that are reached, -/
  reached : ∀ t, t ∈ g.ids ↔ p.Reached t
  /-- each of them once, -/
  unique : g.ids.Nodup
  /-- with what the task says. -/
  attributes : ∀ n ∈ g.nodes, n.name = n.id ∧
    ∃ task, p.tasks.get? n.id = some task ∧ n.barrier = task.join ∧ n.retry = task.retry
  /-- A destination of a clause and its guards have one transition, which comes from the last of the
  clauses that lead there under these guards. -/
  transition : ∀ s d criteria, p.Reached s → isReserved d = false →
    (∃ c, p.LeadsBy s d criteria c) →
      ∃ e, (g.between s d).filter (fun e => e.criteria == criteria) = [e] ∧
        ∃ c, p.LeadsBy s d criteria c ∧ e.ordinal = some c.ordinal ∧
          ∀ c', p.LeadsBy s d criteria c' → c'.ordinal ≤ c.ordinal
  /-- The keys count the transitions between two tasks, -/
  keys : ∀ s d, (g.between s d).map Edge.key = List.range (g.between s d).length
  /-- in the order of the first clauses that lead there under these guards. -/
  order : ∀ s d, (g.between s d).Pairwise fun e e' =>
    ∃ c, p.LeadsBy s d e.criteria c ∧ ∀ c', p.LeadsBy s d e'.criteria c' → c.ordinal < c'.ordinal
  /-- There are no other transitions. -/
  only : ∀ e ∈ g.edges, p.Reached e.source ∧ isReserved e.destination = false ∧
    ∃ c, p.LeadsBy e.source e.destination e.criteria c

/-- Nothing leads from a task without a node. -/
theorem between_of_unknown (composed : direct limits p = .ok g) (unknown : s ∉ g.ids) (d : String) :
    g.between s d = [] := by
  refine List.eq_nil_iff_forall_not_mem.mpr fun e inside => unknown ?_
  obtain ⟨edge, rfl, _⟩ := mem_between.mp inside
  exact (composed_of_direct composed).coherent.source_mem e edge

theorem keys_between (composed : direct limits p = .ok g) (s d : String) :
    (g.between s d).map Edge.key = List.range (g.between s d).length := by
  by_cases known : s ∈ g.ids
  · rw [between_eq_parallel composed known]
    exact keys_parallel _ _ _
  · rw [between_of_unknown composed known]
    rfl

/-- There is one transition for the clauses that lead to a task under the same guards, and it comes
from the last of them. -/
theorem exists_transition (composed : direct limits p = .ok g) (known : s ∈ g.ids)
    (plain : isReserved d = false) (leads : p.LeadsBy s d criteria c) :
    ∃ e, (g.between s d).filter (fun e => e.criteria == criteria) = [e] ∧
      ∃ c, p.LeadsBy s d criteria c ∧ e.ordinal = some c.ordinal ∧
        ∀ c', p.LeadsBy s d criteria c' → c'.ordinal ≤ c.ordinal := by
  have same : c.condition.toList = criteria := leads.criteria_eq
  obtain ⟨last, inside, condition, ordinal, greatest⟩ :=
    exists_lastOrdinal (p.linksBetween_sorted s d) (leads.mem_linksBetween plain) rfl
  have parallel := between_eq_parallel composed known d
  rcases matching_cases (composed_of_direct composed).coherent s d criteria with
    none_ | ⟨e, edge, source, target, criteria', one⟩
  · obtain ⟨e, listed, criteria'⟩ := exists_parallel_iff (t := s) (d := d).mpr
      (List.mem_map.mpr ⟨_, leads.mem_linksBetween plain, rfl⟩)
    rw [← parallel] at listed
    have missed := List.filter_eq_nil_iff.mp none_ e listed
    simp [criteria', same] at missed
  · obtain ⟨_, c', leads', ordinal'⟩ := Plan.exists_leadsBy inside
    have listed := mem_between.mpr ⟨edge, source, target⟩
    rw [parallel] at listed
    obtain ⟨condition', key, _, rfl⟩ := mem_parallel_iff.mp listed
    obtain rfl : condition' = c.condition := toList_inj.mp (criteria'.trans same.symm)
    refine ⟨_, one, c', by rwa [condition, same] at leads', ?_, fun c'' leads'' => ?_⟩
    · rw [ordinal']
      exact ordinal
    · have same'' : c''.condition.toList = criteria := leads''.criteria_eq
      rw [ordinal']
      exact greatest _ (leads''.mem_linksBetween plain) (toList_inj.mp (same''.trans same.symm))

/-- Transitions between two tasks stand in the order of the first clauses that lead there under their
guards. -/
theorem between_ordered (numbered : p.Numbered) (composed : direct limits p = .ok g) (s d : String) :
    (g.between s d).Pairwise fun e e' =>
      ∃ c, p.LeadsBy s d e.criteria c ∧
        ∀ c', p.LeadsBy s d e'.criteria c' → c.ordinal < c'.ordinal := by
  by_cases known : s ∈ g.ids
  · rw [between_eq_parallel composed known]
    have ordered := conditions_ordered (numbered.linksBetween_apart (s := s) (d := d))
    have criteria : ((parallel s d (p.linksBetween s d)).map Edge.criteria).Pairwise fun a b =>
        ∃ c, p.LeadsBy s d a c ∧ ∀ c', p.LeadsBy s d b c' → c.ordinal < c'.ordinal := by
      rw [criteria_parallel, List.pairwise_map]
      refine ordered.imp fun {a b} ⟨l, inside, same, first⟩ => ?_
      obtain ⟨plain, c, leads, ordinal⟩ := Plan.exists_leadsBy inside
      refine ⟨c, same ▸ leads, fun c' leads' => ?_⟩
      have same' : c'.condition.toList = b.toList := leads'.criteria_eq
      rw [ordinal]
      exact first _ (leads'.mem_linksBetween plain) (toList_inj.mp same')
    exact List.pairwise_map.mp criteria
  · rw [between_of_unknown composed known]
    exact .nil

/-- A transition comes from a clause of a task that is reached. -/
theorem leadsBy_of_mem_edges (composed : direct limits p = .ok g) (edge : e ∈ g.edges) :
    p.Reached e.source ∧ isReserved e.destination = false ∧
      ∃ c, p.LeadsBy e.source e.destination e.criteria c := by
  have whole := composed_of_direct composed
  obtain ⟨l, link, plain, target, criteria⟩ := whole.edges e edge
  obtain ⟨task, found, c, clause, within⟩ := Plan.mem_next_iff.mp link
  obtain ⟨destination, condition, _⟩ := Plan.mem_links_iff.mp within
  refine ⟨(mem_ids_iff_reached composed).mp (whole.coherent.source_mem e edge), target ▸ plain, c,
    task, found, clause, target ▸ destination, ?_⟩
  rw [← condition, criteria]

variable {definition : Definition}

/-- The direct composition of a definition is the part of it that is reached. -/
theorem direct_isReachedPart (composed : direct limits (.ofDefinition definition) = .ok g) :
    IsReachedPart (.ofDefinition definition) g where
  reached _ := mem_ids_iff_reached composed
  unique := (composed_of_direct composed).coherent.unique
  attributes n inside := by
    obtain ⟨named, stamped⟩ := (composed_of_direct composed).nodes n inside
    exact ⟨named, stamped.task⟩
  transition s d criteria reached plain leads :=
    exists_transition composed ((mem_ids_iff_reached composed).mpr reached) plain leads.choose_spec
  keys := keys_between composed
  order := between_ordered (Plan.numbered_ofDefinition definition) composed
  only e edge := leadsBy_of_mem_edges composed edge

/-- A definition with a loop, a fork and a join behind both, which names destinations several times,
under the same guards and under others, and with a task that is not reached. -/
def crossroads : Definition where
  tasks := .ofList [
    ("a", { next := [{ destinations := ["c", "b"] }, { condition := some "x", destinations := ["c"] },
      { destinations := ["c", "noop"] }] }),
    ("b", { next := [{ destinations := ["f", "c"] }], retry := some { count := 2 } }),
    ("c", { next := [{ condition := some "y", destinations := ["f"] },
      { condition := some "z", destinations := ["j", "c", "j"] }] }),
    ("e", { next := [{ destinations := ["j", "e"] }] }),
    ("f", { next := [{ destinations := ["j"] }] }),
    ("j", { join := some (.count 2) })]

def crossroadsGraph : Graph where
  nodes := [⟨"a", "a", none, [], none⟩, ⟨"b", "b", none, [], some { count := 2 }⟩,
    ⟨"c", "c", none, [], none⟩, ⟨"f", "f", none, [⟨"f", 0⟩], none⟩,
    ⟨"j", "j", some (.count 2), [⟨"f", 0⟩], none⟩]
  edges := [⟨"a", "b", 0, [], some 0⟩, ⟨"a", "c", 0, [], some 2⟩, ⟨"a", "c", 1, ["x"], some 1⟩,
    ⟨"b", "c", 0, [], some 0⟩, ⟨"b", "f", 0, [], some 0⟩, ⟨"c", "c", 0, ["z"], some 1⟩,
    ⟨"c", "f", 0, ["y"], some 0⟩, ⟨"c", "j", 0, ["z"], some 1⟩, ⟨"f", "j", 0, [], some 0⟩]

theorem crossroads_isReachedPart :
    direct {} (.ofDefinition crossroads) = .ok crossroadsGraph ∧
      IsReachedPart (.ofDefinition crossroads) crossroadsGraph := by
  have composed : direct {} (.ofDefinition crossroads) = .ok crossroadsGraph :=
    direct_of_workOff (n := 9) (by decide) (by cbv) (by cbv)
  exact ⟨composed, direct_isReachedPart composed⟩

end Composition

end Workflow
