import Mathlib
import Workflow.Proofs.Direct.ReachedPart

/-!
The clauses that the transitions of a direct composition come from. Clauses of one task with the same
guard share their transition to a destination that they have in common, and it tells the last of them
(`comes_iff_not_overtaken`); so there are as many transitions as clauses have destinations just
if no two clauses do (`length_edges_eq_iff`).
-/

namespace Workflow

section Lists

variable {α : Type} [DecidableEq α] {l l' : List α}

/-- Of lists with the same members, one of which repeats none, the other one is as long just if it
repeats none either. -/
theorem length_eq_iff_nodup (unique : l.Nodup) (same : ∀ a, a ∈ l ↔ a ∈ l') :
    l.length = l'.length ↔ l'.Nodup := by
  have perm : l.Perm l'.dedup :=
    (List.perm_ext_iff_of_nodup unique (List.nodup_dedup l')).mpr fun a => by
      rw [same, List.mem_dedup]
  rw [perm.length_eq, ← List.dedup_eq_self]
  exact ⟨(List.dedup_sublist l').eq_of_length, congrArg List.length⟩

end Lists

namespace Plan

variable {p : Plan} {s d : String} {c : Clause}

def pairs (p : Plan) : List (String × Clause × String) :=
  p.tasks.entries.flatMap fun (s, task) =>
    task.clauses.flatMap fun c => c.destinations.map fun d => (s, c, d)

/-- A later clause of the task with the same guard leads there too. -/
def Overtaken (p : Plan) (s d : String) (c : Clause) : Prop :=
  ∃ c', p.LeadsBy s d c.condition.toList c' ∧ c.ordinal < c'.ordinal

/-- Clauses with the same guard have different destinations. -/
def Clause.Apart (c c' : Clause) : Prop :=
  c.condition = c'.condition → ∀ d ∈ c.destinations, d ∉ c'.destinations

instance (c c' : Clause) : Decidable (c.Apart c') :=
  inferInstanceAs (Decidable (_ → _))

theorem mem_pairs_iff : (s, c, d) ∈ p.pairs ↔ p.LeadsBy s d c.condition.toList c := by
  unfold pairs LeadsBy
  simp only [List.mem_flatMap, List.mem_map, Prod.mk.injEq, Prod.exists, and_true]
  constructor
  · rintro ⟨_, task, entry, _, clause, _, destination, rfl, rfl, rfl⟩
    exact ⟨task, Table.get?_eq_some_iff.mpr entry, clause, destination⟩
  · rintro ⟨task, found, clause, destination⟩
    exact ⟨s, task, Table.get?_eq_some_iff.mp found, c, clause, d, destination, rfl, rfl, rfl⟩

/-- Tasks have names of their own, so no pair with its guard comes twice just if no task repeats one. -/
theorem nodup_pairs_iff :
    (p.pairs.map fun (s, c, d) => (s, c.condition, d)).Nodup ↔
      ∀ task ∈ p.tasks.values,
        (∀ c ∈ task.clauses, c.destinations.Nodup) ∧ task.clauses.Pairwise Clause.Apart := by
  have flat : (p.pairs.map fun (s, c, d) => (s, c.condition, d)) =
      p.tasks.entries.flatMap fun e => e.2.clauses.flatMap fun c =>
        c.destinations.map fun d => (e.1, c.condition, d) := by
    simp only [pairs, List.map_flatMap, List.map_map, Function.comp_def]
  have apart : p.tasks.entries.Pairwise (Function.onFun List.Disjoint fun e =>
      e.2.clauses.flatMap fun c => c.destinations.map fun d => (e.1, c.condition, d)) := by
    refine (List.pairwise_map.mp p.tasks.nodup).imp fun {e e'} differ x first second => differ ?_
    simp only [List.mem_flatMap, List.mem_map] at first second
    obtain ⟨_, _, _, _, rfl⟩ := first
    obtain ⟨_, _, _, _, same⟩ := second
    exact (congrArg Prod.fst same).symm
  rw [flat, List.nodup_flatMap, and_iff_left apart]
  simp only [Table.values, List.forall_mem_map]
  refine forall₂_congr fun e _ => ?_
  rw [List.nodup_flatMap]
  refine and_congr (forall₂_congr fun c _ => ?_) (List.Pairwise.iff fun c c' => ?_)
  · exact List.nodup_map_iff fun a b same => (Prod.mk.inj (Prod.mk.inj same).2).2
  · simp only [Function.onFun, Clause.Apart, List.disjoint_left, List.mem_map]
    constructor
    · intro disjoint same d first second
      exact disjoint ⟨d, first, rfl⟩ ⟨d, second, by rw [same]⟩
    · rintro apart _ ⟨d, first, rfl⟩ ⟨d', second, same⟩
      obtain ⟨condition, rfl⟩ := Prod.mk.inj (Prod.mk.inj same).2
      exact apart condition.symm _ first second

end Plan

namespace Composition

open Workflow.Graph
open Workflow.Plan (Link Clause)
open Direct

variable {p : Plan} {limits : Limits} {g : Graph} {s d : String} {criteria : List String}
  {c : Clause} {e : Edge}

/-- A transition comes from a clause just if no later one with its guard leads to its destination. -/
theorem comes_iff_not_overtaken (numbered : p.Numbered) (composed : direct limits p = .ok g)
    (known : s ∈ g.ids) (plain : isReserved d = false) (leads : p.LeadsBy s d criteria c) :
    (∃ e ∈ g.between s d, e.ordinal = some c.ordinal) ↔ ¬p.Overtaken s d c := by
  have same : c.condition.toList = criteria := leads.criteria_eq
  subst same
  constructor
  · rintro ⟨e, inside, ordinal⟩ ⟨c', leads', later⟩
    obtain ⟨edge, rfl, rfl⟩ := mem_between.mp inside
    obtain ⟨_, _, c₀, leads₀⟩ := leadsBy_of_mem_edges composed edge
    obtain ⟨f, one, last, leadsLast, comes, greatest⟩ :=
      exists_transition composed known plain leads₀
    have listed : e ∈ (g.between e.source e.destination).filter
        (fun f => f.criteria == e.criteria) :=
      List.mem_filter.mpr ⟨inside, by simp⟩
    rw [one, List.mem_singleton] at listed
    subst listed
    -- The number tells the clause, and the clause tells the guard.
    obtain ⟨task, found, clause, _, _⟩ := leads
    obtain ⟨task', found', clause', _, guard⟩ := leadsLast
    cases found.symm.trans found'
    have equal : last.ordinal = c.ordinal := Option.some.inj (comes.symm.trans ordinal)
    obtain rfl : last = c := numbered.eq_of_ordinal_eq found clause' clause equal
    rw [guard] at leads'
    have := greatest c' leads'
    omega
  · intro first
    obtain ⟨e, one, last, leadsLast, comes, greatest⟩ := exists_transition composed known plain leads
    have inside : e ∈ g.between s d :=
      (List.mem_filter.mp (one ▸ List.mem_cons_self : e ∈ List.filter _ _)).1
    have least : last.ordinal ≤ c.ordinal := by
      by_contra later
      exact first ⟨last, leadsLast, by omega⟩
    have := greatest c leads
    exact ⟨e, inside, by rw [comes]; exact congrArg some (by omega)⟩

/-- Where all tasks are reached and no clause leads to a command, the transitions are the destinations
of the clauses with their guards. -/
theorem mem_ends_iff (composed : direct limits p = .ok g)
    (reached : ∀ t ∈ p.tasks.names, p.Reached t)
    (plain : ∀ task ∈ p.tasks.values, ∀ c ∈ task.clauses, ∀ d ∈ c.destinations,
      isReserved d = false) (x : String × List String × String) :
    x ∈ g.edges.map (fun e => (e.source, e.criteria, e.destination)) ↔
      x ∈ p.pairs.map fun (s, c, d) => (s, c.condition.toList, d) := by
  obtain ⟨s, criteria, d⟩ := x
  simp only [List.mem_map, Prod.exists, Prod.mk.injEq]
  constructor
  · rintro ⟨e, edge, rfl, rfl, rfl⟩
    obtain ⟨_, _, c, leads⟩ := leadsBy_of_mem_edges composed edge
    have same : c.condition.toList = e.criteria := leads.criteria_eq
    exact ⟨_, c, _, Plan.mem_pairs_iff.mpr (same ▸ leads), rfl, same, rfl⟩
  · rintro ⟨_, c, _, pair, rfl, rfl, rfl⟩
    obtain ⟨task, found, clause, destination, _⟩ := Plan.mem_pairs_iff.mp pair
    have known := (mem_ids_iff_reached composed).mpr
      (reached _ (Table.mem_names_iff.mpr ⟨task, found⟩))
    have next := plain task (Table.mem_values_of_get? found) c clause _ destination
    obtain ⟨e, one, _⟩ := exists_transition composed known next (Plan.mem_pairs_iff.mp pair)
    have listed : e ∈ List.filter _ _ := one ▸ List.mem_cons_self
    obtain ⟨inside, criteria⟩ := List.mem_filter.mp listed
    obtain ⟨edge, source, target⟩ := mem_between.mp inside
    exact ⟨e, edge, source, by simpa using criteria, target⟩

/-- Without cycles, commands and repetitions, there are as many transitions as clauses have
destinations just if no two clauses of a task share a transition. -/
theorem length_edges_eq_iff (composed : direct limits p = .ok g)
    (acyclic : ∀ t ∈ p.tasks.names, p.inCycle t = false)
    (plain : ∀ task ∈ p.tasks.values, ∀ c ∈ task.clauses, ∀ d ∈ c.destinations,
      isReserved d = false)
    (once : ∀ task ∈ p.tasks.values, ∀ c ∈ task.clauses, c.destinations.Nodup) :
    g.edges.length = p.pairs.length ↔
      ∀ task ∈ p.tasks.values, task.clauses.Pairwise Clause.Apart := by
  have reached : ∀ t ∈ p.tasks.names, p.Reached t := by
    intro t known
    refine Plan.reached_of_acyclic acyclic (fun s d leads => ?_) known
    obtain ⟨task, found, c, clause, destination⟩ := Plan.mem_successors_iff.mp leads
    exact plain task (Table.mem_values_of_get? found) c clause d destination
  have unique : (g.edges.map fun e => (e.source, e.criteria, e.destination)).Nodup := by
    refine List.pairwise_map.mpr ((composed_of_direct composed).coherent.apart.imp ?_)
    intro e e' apart same
    obtain ⟨source, rest⟩ := Prod.mk.inj same
    obtain ⟨criteria, target⟩ := Prod.mk.inj rest
    exact (apart source target).2 criteria
  have counted := length_eq_iff_nodup unique (mem_ends_iff composed reached plain)
  have guards : (p.pairs.map fun (s, c, d) => (s, c.condition.toList, d)) =
      (p.pairs.map fun (s, c, d) => (s, c.condition, d)).map fun (s, condition, d) =>
        (s, condition.toList, d) := by
    rw [List.map_map]
    rfl
  have inj : Function.Injective fun ((s, condition, d) : String × Option String × String) =>
      (s, condition.toList, d) := by
    rintro ⟨s, a, d⟩ ⟨s', a', d'⟩ same
    simp only [Prod.mk.injEq, toList_inj] at same ⊢
    exact same
  rw [List.length_map, List.length_map, guards, List.nodup_map_iff inj, Plan.nodup_pairs_iff]
    at counted
  rw [counted]
  exact ⟨fun all task inside => (all task inside).2, fun all task inside =>
    ⟨once task inside, all task inside⟩⟩

/-- What the transitions tell of the clauses. -/
structure TellsClauses (p : Plan) (g : Graph) : Prop where
  /-- A clause has one transition to each of its destinations, which comes from the last clause of its
  task with the same guard that leads there, -/
  last : ∀ s ∈ g.ids, ∀ d criteria c, isReserved d = false → p.LeadsBy s d criteria c →
    ∃ e, (g.between s d).filter (fun e => e.criteria == criteria) = [e] ∧
      ∃ last, p.LeadsBy s d criteria last ∧ e.ordinal = some last.ordinal ∧
        ∀ c', p.LeadsBy s d criteria c' → c'.ordinal ≤ last.ordinal
  /-- so one comes from itself if there is none later. -/
  comes : ∀ s ∈ g.ids, ∀ d criteria c, isReserved d = false → p.LeadsBy s d criteria c →
    ((∃ e ∈ g.between s d, e.ordinal = some c.ordinal) ↔ ¬p.Overtaken s d c)
  /-- Without cycles, commands and repetitions, there are as many transitions as clauses have
  destinations if no two clauses of a task with the same guard have one in common. -/
  count : (∀ t ∈ p.tasks.names, p.inCycle t = false) →
    (∀ task ∈ p.tasks.values, ∀ c ∈ task.clauses, ∀ d ∈ c.destinations, isReserved d = false) →
      (∀ task ∈ p.tasks.values, ∀ c ∈ task.clauses, c.destinations.Nodup) →
        (g.edges.length = p.pairs.length ↔
          ∀ task ∈ p.tasks.values, task.clauses.Pairwise Clause.Apart)

/-- The direct composition of a definition tells of its clauses. -/
theorem direct_tellsClauses {definition : Definition}
    (composed : direct limits (.ofDefinition definition) = .ok g) :
    TellsClauses (.ofDefinition definition) g where
  last _ known _ _ _ plain leads := exists_transition composed known plain leads
  comes _ known _ _ _ plain leads :=
    comes_iff_not_overtaken (Plan.numbered_ofDefinition definition) composed known plain leads
  count acyclic plain once := length_edges_eq_iff composed acyclic plain once

/-- A definition in which two clauses of a task lead to the same destination, the first one under this
guard. -/
def doubled (guard : Option String) : Definition where
  tasks := .ofList [
    ("a", { next := [
      { condition := guard, publish := [⟨"x", some (.string "1")⟩], destinations := ["b"] },
      { publish := [⟨"y", some (.string "2")⟩], destinations := ["b"] }] }),
    ("b", {})]

theorem doubled_tellsClauses :
    ∃ g, direct {} (.ofDefinition (doubled (some "<% ctx(z) %>"))) = .ok g ∧
      TellsClauses (.ofDefinition (doubled (some "<% ctx(z) %>"))) g ∧
        g.edges.length = (Plan.ofDefinition (doubled (some "<% ctx(z) %>"))).pairs.length := by
  have composed : direct {} (.ofDefinition (doubled (some "<% ctx(z) %>"))) = .ok
      ⟨[.ofId "a", .ofId "b"],
        [⟨"a", "b", 0, ["<% ctx(z) %>"], some 0⟩, ⟨"a", "b", 1, [], some 1⟩]⟩ :=
    direct_of_workOff (n := 3) (by decide) (by cbv) (by cbv)
  have tells := direct_tellsClauses composed
  have acyclic : (Plan.ofDefinition (doubled (some "<% ctx(z) %>"))).tasks.names.any
      (Plan.ofDefinition (doubled (some "<% ctx(z) %>"))).inCycle = false := by cbv
  have counted := tells.count (fun t known => by simpa using List.any_eq_false.mp acyclic t known)
    (by decide) (by decide)
  exact ⟨_, composed, tells, counted.mpr (by decide)⟩

/-- Without a guard, the first clause has no transition that comes from it. -/
theorem doubled_clause_lost :
    ∃ g, direct {} (.ofDefinition (doubled none)) = .ok g ∧
      ((Plan.ofDefinition (doubled none)).tasks.names.any
          (Plan.ofDefinition (doubled none)).inCycle = false ∧
        (∀ task ∈ (Plan.ofDefinition (doubled none)).tasks.values, task.join = none ∧
          ∀ c ∈ task.clauses, c.destinations.Nodup ∧ ∀ d ∈ c.destinations, isReserved d = false)) ∧
      ¬(∀ s ∈ g.ids, ∀ d criteria c, isReserved d = false →
        (Plan.ofDefinition (doubled none)).LeadsBy s d criteria c →
          ∃ e ∈ g.between s d, e.ordinal = some c.ordinal) ∧
      g.edges.length ≠ (Plan.ofDefinition (doubled none)).pairs.length := by
  have composed : direct {} (.ofDefinition (doubled none)) = .ok
      ⟨[.ofId "a", .ofId "b"], [⟨"a", "b", 0, [], some 1⟩]⟩ :=
    direct_of_workOff (n := 3) (by decide) (by cbv) (by cbv)
  refine ⟨_, composed, ⟨by cbv, by decide⟩, fun all => ?_, by decide⟩
  have leads : (Plan.ofDefinition (doubled none)).LeadsBy "a" "b" []
      (Plan.clausesFrom "a" 0 [{ publish := [⟨"x", some (.string "1")⟩], destinations := ["b"] }])[0] :=
    ⟨_, rfl, List.mem_cons_self, List.mem_cons_self, rfl⟩
  obtain ⟨e, inside, ordinal⟩ := all "a" (by decide) "b" [] _ rfl leads
  rw [List.mem_singleton.mp inside] at ordinal
  cases ordinal

end Composition

end Workflow
