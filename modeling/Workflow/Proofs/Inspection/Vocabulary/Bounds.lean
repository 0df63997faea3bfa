import Workflow.Proofs.Inspection.Vocabulary.Reports

/-!
How long the analysis takes. A task is worked through again only when it gets to know a name that it did
not know, and there are only so many names; a join is put into the queue once. So there are bounds to
how often a task is worked through and to how many visits are taken from the queue, loops or not.
-/

namespace Workflow.Inspection.Vocabulary

variable {r : Registry} {p : Plan} {s : State} {past turns rest : List Turn} {y : Turn}
  {t : String} {worked skipped : List String}

/-- The states of the analysis, with the tasks whose visits have been taken from the queue: those that
were worked through, and those that were skipped. -/
inductive Logged (r : Registry) (p : Plan) : List String → List String → State → Prop
  | outset : Logged r p [] [] (outset r p)
  | work {worked skipped : List String} {s : State} {t : String} {brought : List String}
      {queue : List (String × List String)} (before : Logged r p worked skipped s)
      (next : s.queue = (t, brought) :: queue) (works : ¬s.Skips t brought) :
    Logged r p (worked ++ [t]) skipped (visit p r { s with queue := queue } t brought)
  | skip {worked skipped : List String} {s : State} {t : String} {brought : List String}
      {queue : List (String × List String)} (before : Logged r p worked skipped s)
      (next : s.queue = (t, brought) :: queue) (skips : s.Skips t brought) :
    Logged r p worked (skipped ++ [t]) (visit p r { s with queue := queue } t brought)

/-- The names that the plan declares or publishes. -/
def vocabulary (p : Plan) : Finset String :=
  (p.declared ++ published p).toFinset

def waysOut (p : Plan) (tasks : List String) : Nat :=
  (tasks.map fun t => (p.exits t).length).sum

@[simp] theorem waysOut_concat (tasks : List String) (t : String) :
    waysOut p (tasks ++ [t]) = waysOut p tasks + (p.exits t).length := by
  simp [waysOut]

/-- What the log says of the turns: those that are over are the visits that were worked through, a task
knows more after each of its turns than after the ones before, no join was skipped, and whatever was
taken from the queue or is in it is a start or came along a way out of a task. -/
structure Tallied (r : Registry) (p : Plan) (worked skipped : List String) (s : State)
    (past turns : List Turn) : Prop where
  walked : Walked r p s past turns
  tasks : worked = past.map Turn.task
  longer : past.Pairwise fun x y => x.task = y.task → x.names.length < y.names.length
  plain : ∀ t ∈ skipped, p.isJoin t = false
  sent : worked.length + skipped.length + turns.length ≤ p.starts.length + waysOut p worked

theorem Tallied.work (tallied : Tallied r p worked skipped s past (y :: rest))
    (works : ¬s.Skips y.task y.names) :
    ∃ sent, Tallied r p (worked ++ [y.task]) skipped
      (visit p r { s with queue := rest.map Turn.entry } y.task y.names) (past ++ [y.after s])
      (rest ++ sent) := by
  obtain ⟨sent, after, few, _⟩ := tallied.walked.work works
  refine ⟨sent, after, ?_, ?_, tallied.plain, ?_⟩
  · rw [tallied.tasks, List.map_append]
    rfl
  · refine pairwise_concat_iff.mpr ⟨tallied.longer, fun x passed same => ?_⟩
    obtain ⟨names, before, part⟩ := tallied.walked.kept x passed
    have task : x.task = y.task := same
    rw [task] at before
    calc x.names.length
        ≤ names.length := ((tallied.walked.unique x passed).subperm part).length_le
      _ < (y.after s).names.length := length_lt_after works before
  · have count := tallied.sent
    simp only [List.length_append, List.length_cons, List.length_nil, waysOut_concat] at count ⊢
    omega

theorem Tallied.skip (tallied : Tallied r p worked skipped s past (y :: rest))
    (skips : s.Skips y.task y.names) :
    Tallied r p worked (skipped ++ [y.task])
      (visit p r { s with queue := rest.map Turn.entry } y.task y.names) past rest := by
  rw [visit_skips skips]
  refine ⟨tallied.walked.skip skips, tallied.tasks, tallied.longer, ?_, ?_⟩
  · intro t inside
    rcases mem_concat_iff.mp inside with before | rfl
    · exact tallied.plain t before
    · exact (tallied.walked.exists_of_skips skips).1
  · have count := tallied.sent
    simp only [List.length_append, List.length_cons, List.length_nil] at count ⊢
    omega

/-- Every state of the analysis has its turns. -/
theorem Logged.exists_tallied (logged : Logged r p worked skipped s) :
    ∃ past turns, Tallied r p worked skipped s past turns := by
  induction logged with
  | outset =>
    refine ⟨[], opening p, walked_outset r p, rfl, .nil, nofun, ?_⟩
    simp [opening, waysOut]
  | @work worked skipped s t brought queue _ next works ih =>
    obtain ⟨past, turns, tallied⟩ := ih
    cases turns with
    | nil => cases next.symm.trans tallied.walked.queue
    | cons y rest =>
      cases next.symm.trans tallied.walked.queue
      obtain ⟨sent, after⟩ := tallied.work works
      exact ⟨_, _, after⟩
  | @skip worked skipped s t brought queue _ next skips ih =>
    obtain ⟨past, turns, tallied⟩ := ih
    cases turns with
    | nil => cases next.symm.trans tallied.walked.queue
    | cons y rest =>
      cases next.symm.trans tallied.walked.queue
      exact ⟨_, _, tallied.skip skips⟩

/-- Every run of the analysis has a log. -/
theorem exists_logged (run : Runs (step p r) (outset r p) s) :
    ∃ worked skipped, Logged r p worked skipped s := by
  induction run with
  | refl => exact ⟨[], [], .outset⟩
  | @tail s s' _ taken ih =>
    obtain ⟨worked, skipped, logged⟩ := ih
    unfold Takes step at taken
    cases next : s.queue with
    | nil => simp [next] at taken
    | cons visit_ queue =>
      obtain ⟨t, brought⟩ := visit_
      simp only [next, Except.ok.injEq, Option.some.injEq] at taken
      subst taken
      by_cases skips : s.Skips t brought
      · exact ⟨_, _, logged.skip next skips⟩
      · exact ⟨_, _, logged.work next skips⟩

/-- Numbers that get greater and greater and do not exceed `n` are not more than `n + 1`. -/
private theorem length_le_of_increasing {ns : List Nat} {n : Nat} (increasing : ns.Pairwise (· < ·))
    (most : ∀ k ∈ ns, k ≤ n) : ns.length ≤ n + 1 := by
  have part : ns ⊆ List.range (n + 1) := fun k inside =>
    List.mem_range.mpr (Nat.lt_succ_of_le (most k inside))
  have unique : ns.Nodup := increasing.imp Nat.ne_of_lt
  exact (unique.subperm part).length_le.trans List.length_range.le

/-- A task is worked through once, and then once for each name that it learns. -/
theorem Tallied.count_le (tallied : Tallied r p worked skipped s past turns) (t : String) :
    worked.count t ≤ 1 + (vocabulary p).card := by
  have count : worked.count t =
      ((past.filter fun x => x.task == t).map fun x => x.names.length).length := by
    rw [tallied.tasks, List.length_map, ← List.countP_eq_length_filter, List.count, List.countP_map]
    rfl
  have known : ∀ k ∈ (past.filter fun x => x.task == t).map fun x => x.names.length,
      k ≤ (vocabulary p).card := by
    intro k inside
    obtain ⟨x, there, rfl⟩ := List.mem_map.mp inside
    have passed := (List.mem_filter.mp there).1
    rw [← List.toFinset_card_of_nodup (tallied.walked.unique x passed)]
    refine Finset.card_le_card fun n knows => ?_
    exact List.mem_toFinset.mpr (tallied.walked.names_subset passed (List.mem_toFinset.mp knows))
  have increasing : ((past.filter fun x => x.task == t).map fun x => x.names.length).Pairwise
      (· < ·) := by
    rw [List.pairwise_map]
    refine (tallied.longer.filter _).imp_of_mem fun {x y} first second more => more ?_
    have here := (List.mem_filter.mp first).2
    have there := (List.mem_filter.mp second).2
    rw [beq_iff_eq] at here there
    exact here.trans there.symm
  rw [count, Nat.add_comm]
  exact length_le_of_increasing increasing known

/-- A join is worked through once, and never skipped. -/
theorem Tallied.join_count_le (tallied : Tallied r p worked skipped s past turns)
    (join : p.isJoin t = true) : (worked ++ skipped).count t ≤ 1 := by
  have never : t ∉ skipped := by
    intro inside
    rw [tallied.plain t inside] at join
    cases join
  have single : worked.Pairwise fun a b => p.isJoin a = true → a ≠ b := by
    rw [tallied.tasks, List.pairwise_map]
    exact (List.pairwise_append.mp tallied.walked.ordered).1.imp fun before => before.2
  have unique : (worked.filter p.isJoin).Nodup :=
    (single.filter _).imp_of_mem fun first _ apart => apart (List.mem_filter.mp first).2
  rw [List.count_append, List.count_eq_zero_of_not_mem never, Nat.add_zero, ← List.count_filter join]
  exact List.nodup_iff_count_le_one.mp unique t

theorem Tallied.waysOut_le (tallied : Tallied r p worked skipped s past turns) :
    waysOut p worked ≤ (1 + (vocabulary p).card) * (destinations p).length := by
  have defined : worked.toFinset ⊆ p.tasks.names.toFinset := by
    intro t inside
    rw [List.mem_toFinset, tallied.tasks] at inside
    obtain ⟨x, passed, rfl⟩ := List.mem_map.mp inside
    exact List.mem_toFinset.mpr (tallied.walked.defined (List.mem_append_left turns passed))
  calc waysOut p worked
      = ∑ t ∈ worked.toFinset, worked.count t * (p.exits t).length := by
        simp [waysOut, Finset.sum_list_map_count]
    _ ≤ ∑ t ∈ worked.toFinset, (1 + (vocabulary p).card) * (p.exits t).length :=
        Finset.sum_le_sum fun t _ => Nat.mul_le_mul_right _ (tallied.count_le t)
    _ ≤ ∑ t ∈ p.tasks.names.toFinset, (1 + (vocabulary p).card) * (p.exits t).length :=
        Finset.sum_le_sum_of_subset defined
    _ = (1 + (vocabulary p).card) * (p.tasks.names.map fun t => (p.exits t).length).sum := by
        rw [← Finset.mul_sum, List.sum_toFinset _ (Table.names_nodup p.tasks)]
    _ ≤ (1 + (vocabulary p).card) * (destinations p).length :=
        Nat.mul_le_mul_left _ (length_exits_le p)

/-- However the tasks of a plan lead to each other and whatever they publish, the analysis works through
a task not more often than there are names, and once more; it takes a join from its queue once; and all
that it takes is not more than the starts and, as often as a task may be worked through, the links. So
it empties its queue, and answers with what it has found then. -/
theorem analysis_ends (r : Registry) (p : Plan) :
    (∀ worked skipped s, Logged r p worked skipped s →
      (∀ t, worked.count t ≤ 1 + (vocabulary p).card) ∧
      (∀ t, p.isJoin t = true → (worked ++ skipped).count t ≤ 1) ∧
      worked.length + skipped.length + s.queue.length ≤
        p.starts.length + (1 + (vocabulary p).card) * (destinations p).length) ∧
    ∃ worked skipped final, Logged r p worked skipped final ∧ final.queue = [] ∧
      problems r p = (final.report (bind r final.all p.outputs).1).found := by
  constructor
  · intro worked skipped s logged
    obtain ⟨past, turns, tallied⟩ := logged.exists_tallied
    refine ⟨tallied.count_le, fun t join => tallied.join_count_le join, ?_⟩
    have queue : s.queue.length = turns.length := by
      rw [tallied.walked.queue, List.length_map]
    rw [queue]
    exact tallied.sent.trans (Nat.add_le_add_left tallied.waysOut_le _)
  · obtain ⟨final, ends, run, done⟩ := exists_final r p
    obtain ⟨worked, skipped, logged⟩ := exists_logged run
    have same : ending r p = final := by
      unfold ending
      rw [ends]
    exact ⟨worked, skipped, final, logged, queue_eq_nil_of_step done, same ▸ rfl⟩

end Workflow.Inspection.Vocabulary
