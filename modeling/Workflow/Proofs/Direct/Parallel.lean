import Mathlib.Data.String.Basic
import Workflow.Proofs.Direct.Composed
import Workflow.Proofs.Exploration
import Workflow.Proofs.Lists
import Workflow.Proofs.Plan.Network

/-!
Transitions between the same two tasks. They are made by the links of the one task to the other, in
the order in which these are followed: one for each condition (`parallel`). A task is visited once for
each way to come to it, and its links are followed every time, but following them again changes nothing
(`parallel_append_self`), so that in the end the transitions are those of the links, followed once
(`between_eq_parallel`).
-/

namespace Workflow

namespace Plan

/-- Is it a link to this task? A command is no task. -/
def Link.leadsTo (d : String) (l : Link) : Bool :=
  l.task == d && !isReserved d

theorem Link.leadsTo_iff {d : String} {l : Link} :
    l.leadsTo d = true ↔ l.task = d ∧ isReserved d = false := by
  unfold leadsTo
  rw [Bool.and_eq_true, beq_iff_eq, Bool.not_eq_true']

/-- The links of a task to another one, in the order in which they are followed. -/
def linksBetween (p : Plan) (s d : String) : List Link :=
  (p.next s).filter (Link.leadsTo d)

theorem mem_linksBetween_iff {p : Plan} {s d : String} {l : Link} :
    l ∈ p.linksBetween s d ↔ l ∈ p.next s ∧ l.task = d ∧ isReserved d = false := by
  unfold linksBetween
  rw [List.mem_filter, Link.leadsTo_iff]

theorem next_sorted (p : Plan) (s : String) :
    (p.next s).Pairwise fun a b => a.task < b.task ∨ a.task = b.task ∧ a.ordinal ≤ b.ordinal := by
  unfold next
  cases p.tasks.get? s with
  | none => exact .nil
  | some task => exact pairwise_mergeSort_lex Link.task Link.ordinal _

theorem linksBetween_sorted (p : Plan) (s d : String) :
    (p.linksBetween s d).Pairwise fun a b => a.ordinal ≤ b.ordinal := by
  have sorted := (p.next_sorted s).filter (Link.leadsTo d)
  refine sorted.imp_of_mem fun {a b} first second before => ?_
  obtain ⟨_, here, _⟩ := mem_linksBetween_iff.mp first
  obtain ⟨_, here', _⟩ := mem_linksBetween_iff.mp second
  simpa [here, here'] using before

end Plan

namespace Composition.Direct

open Workflow.Graph
open Workflow.Plan (Link)

variable {p : Plan} {limits : Limits} {g : Graph} {s s' : State} {t d u : String}
  {ls : List Link} {l : Link} {condition : Option String} {splits : List Split}

/-- The clause that the last link with this condition comes from. -/
def lastOrdinal (condition : Option String) (ls : List Link) : Option Nat :=
  (ls.filter fun l => l.condition == condition).getLast?.map Link.ordinal

/-- The transitions from a task to another when these links have been followed: one for each condition,
in the order in which these first come, with the clause of the last link that has it. -/
def parallel (t d : String) (ls : List Link) : List Edge :=
  (ls.map Link.condition).eraseDups.zipIdx.map fun (condition, key) =>
    ⟨t, d, key, condition.toList, lastOrdinal condition ls⟩

theorem lastOrdinal_concat :
    lastOrdinal condition (ls ++ [l]) =
      if l.condition = condition then some l.ordinal else lastOrdinal condition ls := by
  unfold lastOrdinal
  by_cases same : l.condition = condition <;> simp [List.filter_append, same]

theorem lastOrdinal_append_self : lastOrdinal condition (ls ++ ls) = lastOrdinal condition ls := by
  unfold lastOrdinal
  rw [List.filter_append, List.getLast?_append, Option.or_self]

/-- To follow links once more changes nothing. -/
theorem parallel_append_self (t d : String) (ls : List Link) :
    parallel t d (ls ++ ls) = parallel t d ls := by
  unfold parallel
  rw [List.map_append, eraseDups_append_of_subset (List.Subset.refl _)]
  simp only [lastOrdinal_append_self]

/-- The transitions that links between two tasks come to: one for each condition, by the order of
their first links, and with the last clause. -/
theorem mem_parallel_iff {e : Edge} :
    e ∈ parallel t d ls ↔ ∃ condition key,
      (ls.map Link.condition).eraseDups[key]? = some condition ∧
        e = ⟨t, d, key, condition.toList, lastOrdinal condition ls⟩ := by
  unfold parallel
  simp only [List.mem_map, List.mem_zipIdx_iff_getElem?, Prod.exists]
  constructor
  · rintro ⟨condition, key, place, rfl⟩
    exact ⟨condition, key, place, rfl⟩
  · rintro ⟨condition, key, place, rfl⟩
    exact ⟨condition, key, place, rfl⟩

theorem toList_inj {a b : Option String} : a.toList = b.toList ↔ a = b := by
  cases a <;> cases b <;> simp

/-- There is a transition for each condition of the links. -/
theorem exists_parallel_iff :
    (∃ e ∈ parallel t d ls, e.criteria = condition.toList) ↔
      condition ∈ ls.map Link.condition := by
  rw [← List.mem_eraseDups, List.mem_iff_getElem?]
  constructor
  · rintro ⟨e, inside, same⟩
    obtain ⟨condition', key, place, rfl⟩ := mem_parallel_iff.mp inside
    exact ⟨key, toList_inj.mp same ▸ place⟩
  · rintro ⟨key, place⟩
    exact ⟨_, mem_parallel_iff.mpr ⟨condition, key, place, rfl⟩, rfl⟩

theorem keys_parallel (t d : String) (ls : List Link) :
    (parallel t d ls).map Edge.key = List.range (parallel t d ls).length := by
  unfold parallel
  rw [List.map_map, List.length_map, List.length_zipIdx, List.range_eq_range',
    ← List.zipIdx_map_snd]
  rfl

/-- Keys that count the transitions go on counting. -/
theorem freshKey_of_range {edges : List Edge}
    (keys : edges.map Edge.key = List.range edges.length) : freshKey edges = edges.length := by
  induction edges using List.reverseRecOn with
  | nil => rfl
  | append_singleton edges e ih =>
    have more : freshKey (edges ++ [e]) = max (freshKey edges) (e.key + 1) := by
      simp [freshKey]
    rw [List.length_append, List.length_singleton, List.range_succ, List.map_append] at keys
    obtain ⟨before, last⟩ := List.append_inj keys (by simp)
    have key : e.key = edges.length := by simpa using last
    rw [more, ih before, key, List.length_append, List.length_singleton]
    omega

/-- To note one more link is to add it to the links. -/
theorem noted_parallel (t d : String) (ls : List Link) (l : Link) :
    noted t d l.condition.toList (some l.ordinal) (parallel t d ls) =
      parallel t d (ls ++ [l]) := by
  unfold noted
  by_cases known : l.condition ∈ ls.map Link.condition
  · rw [if_pos (exists_parallel_iff.mpr known)]
    unfold parallel
    have listed : [l.condition] ⊆ ls.map Link.condition := by simpa using known
    rw [List.map_map, List.map_append, List.map_singleton, eraseDups_append_of_subset listed]
    refine List.map_congr_left fun (condition, key) _ => ?_
    by_cases same : l.condition = condition
    · simp [same, lastOrdinal_concat, Edge.withOrdinal]
    · have other : condition.toList ≠ l.condition.toList := fun equal =>
        same (toList_inj.mp equal).symm
      simp [same, other, lastOrdinal_concat]
  · rw [if_neg (by rwa [exists_parallel_iff]), freshKey_of_range (keys_parallel t d ls)]
    unfold parallel
    rw [List.map_append, List.map_singleton, eraseDups_concat_of_not_mem known,
      List.zipIdx_append, List.map_append]
    refine congrArg₂ (· ++ ·) (List.map_congr_left fun (condition, key) inside => ?_) ?_
    · have listed : condition ∈ ls.map Link.condition := by
        rw [← List.mem_eraseDups]
        exact List.mem_of_getElem? (List.mem_zipIdx_iff_getElem?.mp inside)
      have other : l.condition ≠ condition := fun same => known (same ▸ listed)
      simp [lastOrdinal_concat, other]
    · simp [lastOrdinal_concat]

theorem arrive_graph (s : State) (v : Visit) : (s.arrive v).graph = s.graph := by
  unfold State.arrive
  split <;> rfl

/-- Following a link ensures its transition, and leaves those between other tasks. -/
theorem follow_between (coherent : s.graph.Coherent) (ok : follow p t splits s l = .ok s') :
    s'.graph.Coherent ∧
      (∀ d, s'.graph.between t d = if l.leadsTo d then
        noted t d l.condition.toList (some l.ordinal) (s.graph.between t d)
        else s.graph.between t d) ∧
      ∀ u, u ≠ t → ∀ d, s'.graph.between u d = s.graph.between u d := by
  rcases follow_cases coherent t splits l with
    ⟨reserved, skipped⟩ | ⟨_, _, failed⟩ | ⟨plain, _, g, ensures, followed⟩
  · cases skipped.symm.trans ok
    refine ⟨coherent, fun d => (if_neg ?_).symm, fun _ _ _ => rfl⟩
    rw [Link.leadsTo_iff]
    rintro ⟨rfl, plain⟩
    exact Bool.noConfusion (reserved.symm.trans plain)
  · cases failed.symm.trans ok
  · have graph : s'.graph = g := by
      cases followed.symm.trans ok
      split
      · rfl
      · exact arrive_graph _ _
    rw [graph]
    refine ⟨ensures.coherent, fun d => ?_, fun u apart d => ensures.elsewhere (.inl apart)⟩
    by_cases same : l.task = d
    · subst same
      simp [Link.leadsTo, plain, ensures.between]
    · simp [Link.leadsTo, same, ensures.elsewhere (.inr (Ne.symm same))]

/-- Following links adds them to those that were followed. -/
theorem followAll_between (coherent : s.graph.Coherent) (ok : followAll p t splits s ls = .ok s') :
    s'.graph.Coherent ∧
      (∀ d before, s.graph.between t d = parallel t d before →
        s'.graph.between t d = parallel t d (before ++ ls.filter (Link.leadsTo d))) ∧
      ∀ u, u ≠ t → ∀ d, s'.graph.between u d = s.graph.between u d := by
  induction ls generalizing s with
  | nil =>
    cases ok
    exact ⟨coherent, fun d before made => by simpa using made, fun _ _ _ => rfl⟩
  | cons l ls ih =>
    unfold followAll at ok
    split at ok
    next => cases ok
    next s₁ first =>
      obtain ⟨coherent₁, here, elsewhere⟩ := follow_between coherent first
      obtain ⟨coherent', rest, elsewhere'⟩ := ih coherent₁ ok
      refine ⟨coherent', fun d before made => ?_, fun u apart d =>
        (elsewhere' u apart d).trans (elsewhere u apart d)⟩
      cases leads : l.leadsTo d with
      | false =>
        rw [List.filter_cons_of_neg (by simp [leads])]
        exact rest d before (by simpa [here, leads] using made)
      | true =>
        rw [List.filter_cons_of_pos leads, List.append_cons]
        refine rest d (before ++ [l]) ?_
        rw [here, if_pos leads, made, noted_parallel]

/-- All that has a node or is to be visited is reached. -/
def OnlyReached (p : Plan) (s : State) : Prop :=
  (∀ id ∈ s.graph.ids, p.Reached id) ∧ ∀ v ∈ s.queue, p.Reached v.task

/-- A link out of a task that is reached leads to one that is reached. -/
theorem OnlyReached.follow (only : OnlyReached p s) (coherent : s.graph.Coherent)
    (reached : p.Reached t) (link : l ∈ p.next t) (ok : follow p t splits s l = .ok s') :
    OnlyReached p s' := by
  rcases follow_cases coherent t splits l with
    ⟨_, skipped⟩ | ⟨_, _, failed⟩ | ⟨plain, _, g, ensures, followed⟩
  · cases skipped.symm.trans ok
    exact only
  · cases failed.symm.trans ok
  · have next : p.Reached l.task := reached.next link plain
    have ids : ∀ id ∈ g.ids, p.Reached id := by
      intro id inside
      unfold ids at inside
      rw [ensures.nodes] at inside
      rcases mem_ids_ensure.mp inside with inside | rfl
      · rcases mem_ids_ensure.mp inside with inside | rfl
        · exact only.1 id inside
        · exact reached
      · exact next
    cases followed.symm.trans ok
    split
    · exact ⟨ids, only.2⟩
    · rcases arrive_cases { s with graph := g } ⟨l.task, splits⟩ with ⟨_, same⟩ | ⟨_, added⟩
      · rw [same]
        exact ⟨ids, only.2⟩
      · rw [added]
        refine ⟨ids, fun v waiting => ?_⟩
        rcases List.mem_append.mp waiting with waiting | last
        · exact only.2 v waiting
        · rw [List.mem_singleton.mp last]
          exact next

theorem OnlyReached.followAll (only : OnlyReached p s) (coherent : s.graph.Coherent)
    (reached : p.Reached t) (links : ls ⊆ p.next t) (ok : followAll p t splits s ls = .ok s') :
    OnlyReached p s' := by
  induction ls generalizing s with
  | nil =>
    cases ok
    exact only
  | cons l ls ih =>
    obtain ⟨link, others⟩ := List.cons_subset.mp links
    unfold Direct.followAll at ok
    split at ok
    next => cases ok
    next s₁ first =>
      exact ih (only.follow coherent reached link first) (follow_between coherent first).1 others ok

/-- What holds between visits, beside `Walked`: only what is reached has come up, and of the links from a
task to another none has been followed yet, or all. -/
structure Exact (p : Plan) (s : State) : Prop where
  only : OnlyReached p s
  between : ∀ t d, s.graph.between t d = [] ∨
    s.graph.between t d = parallel t d (p.linksBetween t d)

theorem exact_start (p : Plan) : Exact p (.start p) := by
  refine ⟨⟨nofun, fun v waiting => ?_⟩, fun t d => .inl rfl⟩
  obtain ⟨t, first, rfl⟩ := List.mem_map.mp waiting
  exact .start first

/-- One visit follows all links out of its task, or all of them once more. -/
theorem Exact.takes (exact_ : Exact p s) (walked : Walked p [] s)
    (taken : Takes (step p limits) s s') : Exact p s' := by
  obtain ⟨v, queue, task, next, found, followed⟩ := takes_cases walked taken
  have reached : p.Reached v.task := exact_.only.2 v (next ▸ List.mem_cons_self)
  have coherent := walked.coherent.addTask v.task (attributes task (extended p v))
  have same : ∀ u d, (s.graph.addTask v.task (attributes task (extended p v))).between u d =
      s.graph.between u d := by
    intro u d
    unfold Graph.between
    rw [edges_addTask]
  obtain ⟨_, here, elsewhere⟩ := followAll_between coherent followed
  constructor
  · refine OnlyReached.followAll ⟨fun id inside => ?_, fun w waiting => ?_⟩ coherent reached
      (List.Subset.refl _) followed
    · rcases mem_ids_addTask.mp inside with inside | rfl
      · exact exact_.only.1 id inside
      · exact reached
    · exact exact_.only.2 w (next ▸ List.mem_cons_of_mem v waiting)
  · intro t d
    by_cases own : t = v.task
    · subst own
      right
      rcases exact_.between v.task d with none_ | all
      · exact here d [] ((same _ _).trans none_)
      · rw [here d _ ((same _ _).trans all)]
        exact parallel_append_self _ _ _
    · rw [elsewhere t own d, same]
      exact exact_.between t d

theorem exact_of_runs (run : Runs (step p limits) (.start p) s) : Exact p s := by
  induction run with
  | refl => exact exact_start p
  | tail before taken ih => exact ih.takes (walked_of_runs before) taken

/-- A task has a node just if it is reached. -/
theorem mem_ids_iff_reached (composed : direct limits p = .ok g) : t ∈ g.ids ↔ p.Reached t := by
  have whole := composed_of_direct composed
  constructor
  · obtain ⟨s, run, _, rfl⟩ := exists_runs_of_direct composed
    exact (exact_of_runs run).only.1 t
  · intro reached
    induction reached with
    | start first => exact whole.starts _ first
    | @follow t d task c _ found clause destination plain ih =>
      have link : (⟨d, c.condition, c.ordinal⟩ : Link) ∈ p.next t :=
        Plan.mem_next_iff.mpr ⟨task, found, c, clause,
          Plan.mem_links_iff.mpr ⟨destination, rfl, rfl⟩⟩
      obtain ⟨e, inside, _, rfl, _⟩ := whole.followed t ih _ link plain
      exact whole.coherent.destination_mem e inside

/-- In the end, the transitions between two tasks are those of the links, followed once. -/
theorem between_eq_parallel (composed : direct limits p = .ok g) (known : t ∈ g.ids) (d : String) :
    g.between t d = parallel t d (p.linksBetween t d) := by
  have whole := composed_of_direct composed
  obtain ⟨s, run, _, rfl⟩ := exists_runs_of_direct composed
  rcases (exact_of_runs run).between t d with none_ | all
  · cases links : p.linksBetween t d with
    | nil => exact none_
    | cons l ls =>
      -- The first of the links has a transition, as the task was visited.
      have first : l ∈ p.linksBetween t d := links ▸ List.mem_cons_self
      obtain ⟨link, rfl, plain⟩ := Plan.mem_linksBetween_iff.mp first
      obtain ⟨e, inside, source, target, _⟩ := whole.followed t known l link plain
      have listed := mem_between.mpr ⟨inside, source, target⟩
      rw [none_] at listed
      cases listed
  · exact all

end Composition.Direct

end Workflow
