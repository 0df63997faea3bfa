import Mathlib.Data.List.Pairwise
import Workflow.Proofs.Direct.ReachedPart

/-!
Successors and predecessors are two views of the same clauses. A link is among the successors of a task
just if it is among the predecessors of its destination (`mem_next_iff_mem_prev`); a clause that names a
destination twice is two links out of its task, and one link into the destination. The start tasks and
the tasks that are split can be told from the predecessors alone (`ofDefinition_linksAgree`).
-/

namespace Workflow.Plan

variable {p : Plan} {s d t : String} {l a b : Link} {condition : Option String} {ordinal : Nat}

/-- The links into a task, one for each clause that names it. -/
theorem mem_prev_iff_exists_clause :
    l ∈ p.prev d ↔ ∃ task, p.tasks.get? l.task = some task ∧ ∃ c ∈ task.clauses,
      d ∈ c.destinations ∧ l.condition = c.condition ∧ l.ordinal = c.ordinal := by
  obtain ⟨source, condition, ordinal⟩ := l
  unfold prev linksTo
  simp only [List.mem_mergeSort, List.mem_flatMap, List.mem_map, List.mem_filter,
    List.contains_iff_mem, Link.mk.injEq]
  constructor
  · rintro ⟨⟨_, task⟩, entry, c, ⟨clause, leads⟩, rfl, rfl, rfl⟩
    exact ⟨task, Table.get?_eq_some_iff.mpr entry, c, clause, leads, rfl, rfl⟩
  · rintro ⟨task, found, c, clause, leads, rfl, rfl⟩
    exact ⟨(source, task), Table.get?_eq_some_iff.mp found, c, ⟨clause, leads⟩, rfl, rfl, rfl⟩

/-- A link can be seen from both of its ends. -/
theorem mem_next_iff_mem_prev :
    (⟨d, condition, ordinal⟩ : Link) ∈ p.next s ↔ ⟨s, condition, ordinal⟩ ∈ p.prev d := by
  rw [mem_next_iff, mem_prev_iff_exists_clause]
  simp only [mem_links_iff]

theorem prev_eq_nil_iff : p.prev t = [] ↔ ∀ u, t ∉ p.successors u := by
  rw [← List.map_eq_nil_iff (f := Link.task), List.eq_nil_iff_forall_not_mem]
  simp only [mem_prev_iff]

/-- They are sorted by task, then by clause. -/
theorem prev_sorted (p : Plan) (d : String) :
    (p.prev d).Pairwise fun a b => a.task < b.task ∨ a.task = b.task ∧ a.ordinal ≤ b.ordinal := by
  unfold prev
  exact pairwise_mergeSort_lex Link.task Link.ordinal _

/-- The links come from different clauses. -/
def Link.Apart (a b : Link) : Prop :=
  a.task = b.task → a.ordinal ≠ b.ordinal

theorem Link.Apart.symm (apart : a.Apart b) : b.Apart a :=
  fun same => (apart same.symm).symm

/-- A clause is one link into a destination, however often it names that. -/
theorem Numbered.prev_apart (numbered : p.Numbered) (d : String) :
    (p.prev d).Pairwise Link.Apart := by
  unfold prev
  rw [(List.mergeSort_perm _ _).pairwise_iff Link.Apart.symm, List.pairwise_flatMap]
  constructor
  · rintro ⟨source, task⟩ entry
    have increasing := numbered source task (Table.get?_eq_some_iff.mpr entry)
    refine List.pairwise_map.mpr ((increasing.filter _).imp fun less => ?_)
    exact fun _ => Nat.ne_of_lt less
  · refine (List.pairwise_map.mp p.tasks.nodup).imp fun differ a first b second same => ?_
    obtain ⟨_, _, rfl⟩ := List.mem_map.mp first
    obtain ⟨_, _, rfl⟩ := List.mem_map.mp second
    exact absurd same differ

theorem Numbered.prev_strictly_sorted (numbered : p.Numbered) (d : String) :
    (p.prev d).Pairwise fun a b => a.task < b.task ∨ a.task = b.task ∧ a.ordinal < b.ordinal :=
  ((p.prev_sorted d).and (numbered.prev_apart d)).imp fun ⟨le, apart⟩ =>
    le.imp_right fun ⟨same, less⟩ => ⟨same, Nat.lt_of_le_of_ne less (apart same)⟩

theorem starts_strictly_sorted (p : Plan) : p.starts.Pairwise (· < ·) :=
  ((pairwise_mergeSort_le _).and p.starts_nodup).imp fun ⟨le, differ⟩ => lt_of_le_of_ne le differ

theorem isJoin_eq_false_iff {task : Task} (found : p.tasks.get? t = some task) :
    p.isJoin t = false ↔ task.join = none := by
  unfold isJoin
  rw [found]
  exact Option.isSome_eq_false_iff.trans Option.isNone_iff_eq_none

/-- A task is split just if it is defined, joins nothing, and two of its predecessors differ. -/
theorem isSplit_iff_prev :
    p.isSplit t = true ↔ (∃ task, p.tasks.get? t = some task ∧ task.join = none) ∧
      ∃ a ∈ p.prev t, ∃ b ∈ p.prev t, a.task ≠ b.task := by
  have sources : (∃ u v, t ∈ p.successors u ∧ t ∈ p.successors v ∧ u ≠ v) ↔
      ∃ a ∈ p.prev t, ∃ b ∈ p.prev t, a.task ≠ b.task := by
    simp only [← mem_prev_iff, List.mem_map]
    constructor
    · rintro ⟨_, _, ⟨a, first, rfl⟩, ⟨b, second, rfl⟩, differ⟩
      exact ⟨a, first, b, second, differ⟩
    · rintro ⟨a, first, b, second, differ⟩
      exact ⟨_, _, ⟨a, first, rfl⟩, ⟨b, second, rfl⟩, differ⟩
  rw [isSplit_iff, sources, ← and_assoc]
  refine and_congr_left fun _ => ⟨?_, ?_⟩
  · rintro ⟨known, plain⟩
    obtain ⟨task, found⟩ := Table.mem_names_iff.mp known
    exact ⟨task, found, (isJoin_eq_false_iff found).mp plain⟩
  · rintro ⟨task, found, none_⟩
    exact ⟨Table.mem_names_iff.mpr ⟨task, found⟩, (isJoin_eq_false_iff found).mpr none_⟩

/-- What the look-ups of links say agrees. -/
structure LinksAgree (p : Plan) : Prop where
  /-- A link can be seen from both of its ends. -/
  inverse : ∀ s d condition ordinal,
    (⟨d, condition, ordinal⟩ : Link) ∈ p.next s ↔ ⟨s, condition, ordinal⟩ ∈ p.prev d
  /-- Successors stand in the order of destinations, and then of clauses. -/
  next_sorted : ∀ s, (p.next s).Pairwise fun a b =>
    a.task < b.task ∨ a.task = b.task ∧ a.ordinal ≤ b.ordinal
  /-- Predecessors stand in the order of sources, and then of clauses, of which none comes twice. -/
  prev_sorted : ∀ d, (p.prev d).Pairwise fun a b =>
    a.task < b.task ∨ a.task = b.task ∧ a.ordinal < b.ordinal
  prev_nodup : ∀ d, (p.prev d).Nodup
  /-- The start tasks are the tasks without predecessors, by name. -/
  starts_sorted : p.starts.Pairwise (· < ·)
  mem_starts : ∀ t, t ∈ p.starts ↔ t ∈ p.tasks.names ∧ p.prev t = []
  /-- A task is split just if it has several sources that it does not join. -/
  split : ∀ t, p.isSplit t = true ↔ (∃ task, p.tasks.get? t = some task ∧ task.join = none) ∧
    ∃ a ∈ p.prev t, ∃ b ∈ p.prev t, a.task ≠ b.task

/-- All look-ups of links read the same clauses, so they agree. -/
theorem ofDefinition_linksAgree (definition : Definition) : (ofDefinition definition).LinksAgree where
  inverse _ _ _ _ := mem_next_iff_mem_prev
  next_sorted := Plan.next_sorted _
  prev_sorted := (numbered_ofDefinition definition).prev_strictly_sorted
  prev_nodup d := by
    refine ((numbered_ofDefinition definition).prev_apart d).imp ?_
    rintro a _ apart rfl
    exact apart rfl rfl
  starts_sorted := starts_strictly_sorted _
  mem_starts t := by rw [mem_starts_iff, prev_eq_nil_iff]
  split _ := isSplit_iff_prev

/-- A clause that names a destination twice is two links out of its task, and one into the destination. -/
example : (bare (.ofList [("a", .leading ["a", "b", "b"] none)])).next "a" =
      [⟨"a", none, 0⟩, ⟨"b", none, 0⟩, ⟨"b", none, 0⟩] ∧
    (bare (.ofList [("a", .leading ["a", "b", "b"] none)])).prev "b" = [⟨"a", none, 0⟩] := by
  cbv

end Workflow.Plan
