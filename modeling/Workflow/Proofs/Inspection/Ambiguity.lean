import Workflow.Proofs.Direct.Inspected
import Workflow.Proofs.Plan.Chains

/-!
Joins that are reached at different levels of nested forks. The inspection looks at each task once
behind the same forks, so it comes to an end however many chains there are, and it reports just the joins
that have chains behind different forks.
-/

namespace Workflow.Inspection.Structure

variable {p : Plan} {j : String} {s s' : Search}

def ambiguousJoin (name : String) : Diagnostic :=
  taskProblem
    ("The join task \"" ++ name ++ "\" is unreachable. " ++
      "It is reached from different levels of nested splits, " ++
      "so the level at which it joins is ambiguous.") name

theorem ambiguousJoin_injective : Function.Injective ambiguousJoin := by
  intro j k same
  have path := congrArg Diagnostic.specPath same
  simpa [ambiguousJoin, taskProblem, problem, Plan.taskPath] using path

/-- A task is found more than once just if it is arrived at behind different forks. -/
theorem one_lt_length_arrivals_iff :
    1 < ((arrivals p).filter fun a => a.1 == j).length ↔
      ∃ σ τ, p.network.Arrives j σ ∧ p.network.Arrives j τ ∧ σ ≠ τ := by
  obtain ⟨unique, all⟩ := arrivals_spec p
  have at_ : ∀ a, a ∈ (arrivals p).filter (fun a => a.1 == j) ↔
      a.1 = j ∧ p.network.Arrives a.1 a.2 := by
    intro a
    rw [List.mem_filter, all, beq_iff_eq, and_comm]
  rw [← eraseDups_of_nodup (unique.filter fun a => a.1 == j), one_lt_length_eraseDups_iff]
  constructor
  · rintro ⟨⟨t, σ⟩, first, ⟨u, τ⟩, second, differ⟩
    obtain ⟨rfl, arrives⟩ := (at_ _).mp first
    obtain ⟨rfl, arrives'⟩ := (at_ _).mp second
    exact ⟨σ, τ, arrives, arrives', fun same => differ (by rw [same])⟩
  · rintro ⟨σ, τ, arrives, arrives', differ⟩
    exact ⟨(j, σ), (at_ _).mpr ⟨rfl, arrives⟩, (j, τ), (at_ _).mpr ⟨rfl, arrives'⟩,
      fun same => differ (Prod.mk.inj same).2⟩

/-- A join is reported just if two chains lead to it behind different forks. -/
theorem mem_ambiguousProblems_iff :
    ambiguousJoin j ∈ ambiguousProblems p ↔
      p.isJoin j = true ∧ ∃ σ τ, p.network.Arrives j σ ∧ p.network.Arrives j τ ∧ σ ≠ τ := by
  have reports : ambiguousProblems p = (p.tasks.names.filter fun name =>
      p.isJoin name && decide (1 < ((arrivals p).filter fun a => a.1 == name).length)).map
        ambiguousJoin := rfl
  rw [reports, List.mem_map_of_injective ambiguousJoin_injective, List.mem_filter, Bool.and_eq_true,
    decide_eq_true_iff, one_lt_length_arrivals_iff]
  constructor
  · exact And.right
  · rintro ⟨join, σ, τ, arrives, others⟩
    exact ⟨arrives.mem p.network_among, join, σ, τ, arrives, others⟩

theorem nodup_ambiguousProblems (p : Plan) : (ambiguousProblems p).Nodup :=
  ((Table.names_nodup _).filter _).map ambiguousJoin_injective

/-- No other check reports what the check of joins reports. -/
theorem ambiguousJoin_not_mem_localProblems (p : Plan) (j : String) :
    ambiguousJoin j ∉ localProblems p := by
  intro single
  rcases message_of_mem_localProblems single with ⟨n, same⟩ | ⟨n, same⟩
  · have fourth := congrArg (fun s => s.toList[4]?) same
    simp [ambiguousJoin, taskProblem, problem] at fourth
  · have fourth := congrArg (fun s => s.toList[4]?) same
    simp [ambiguousJoin, taskProblem, problem] at fourth

theorem ambiguousJoin_not_mem_unreachedProblems (p : Plan) (j : String) :
    ambiguousJoin j ∉ unreachedProblems p := by
  intro unreached
  obtain ⟨t, _, _, same⟩ := mem_unreachedProblems_iff.mp unreached
  have fourth := congrArg (fun e => e.message.toList[4]?) same
  simp [ambiguousJoin, unreachedTask, taskProblem, problem] at fourth

theorem ambiguousJoin_ne_noStart (j : String) : ambiguousJoin j ≠ noStart := by
  intro same
  have first := congrArg (fun e => e.message.toList[0]?) same
  simp [ambiguousJoin, noStart, taskProblem, problem] at first

/-- Of the reports that are made of a plan, those of a join are made by the check of joins. -/
theorem count_ambiguousJoin (p : Plan) (j : String) :
    (problems p).count (ambiguousJoin j) = (ambiguousProblems p).count (ambiguousJoin j) := by
  have single := List.count_eq_zero_of_not_mem (ambiguousJoin_not_mem_localProblems p j)
  have unreached := List.count_eq_zero_of_not_mem (ambiguousJoin_not_mem_unreachedProblems p j)
  unfold problems
  rw [List.count_append, single, Nat.zero_add]
  cases starts : p.starts with
  | cons t ts =>
    rw [if_neg (by simp), List.count_append, unreached, Nat.zero_add]
  | nil =>
    -- Without a start task nothing is arrived at.
    have none_ : ambiguousJoin j ∉ ambiguousProblems p := by
      intro inside
      obtain ⟨_, σ, _, arrives, _⟩ := mem_ambiguousProblems_iff.mp inside
      exact Composition.not_arrives_of_starts_eq_nil starts arrives
    rw [List.count_eq_zero_of_not_mem none_, if_pos (by simp)]
    split
    · exact List.count_nil
    · exact List.count_eq_zero_of_not_mem fun inside =>
        ambiguousJoin_ne_noStart j (List.mem_singleton.mp inside)

def outset (p : Plan) : Search :=
  ⟨[], p.starts.map fun name => (name, [])⟩

/-- How many looks are left: at what is pending, and at what comes behind all that is not found yet. -/
def looks (p : Plan) (s : Search) : Nat :=
  s.pending.length + ∑ a ∈ (arrivals p).toFinset \ s.found.toFinset, (arrivalsBehind p a).length

/-- Each step has one look less to take. -/
theorem Searched.looks_lt (searched : Searched p s) (taken : Takes (step p) s s') :
    looks p s' < looks p s := by
  obtain ⟨a, pending, queue, ⟨_, rfl⟩ | ⟨new, rfl⟩⟩ := takes_cases taken
  · simp [looks, queue]
  · have arrives := searched.arrive a (.inr (queue ▸ List.mem_cons_self))
    have open_ : a ∈ (arrivals p).toFinset \ s.found.toFinset := by
      simp [((arrivals_spec p).2 a).mpr arrives, new]
    have rest : (arrivals p).toFinset \ (a :: s.found).toFinset =
        ((arrivals p).toFinset \ s.found.toFinset).erase a := by
      rw [List.toFinset_cons, Finset.sdiff_insert]
    have split := Finset.add_sum_erase _ (fun a => (arrivalsBehind p a).length) open_
    simp only [looks, queue, rest, List.length_append, List.length_cons]
    omega

/-- The search ends after one look at each start and one at each link out of a task that is found
behind forks. It has then found every task behind the forks on every chain to it, each once. -/
structure Exhausted (p : Plan) (final : Search) : Prop where
  runs : Runs (step p) (outset p) final
  done : final.pending = []
  within : workOff (step p)
    (p.starts.length + (final.found.map fun a => (arrivalsBehind p a).length).sum + 1) (outset p) =
      some (.ok final)
  answer : arrivals p = final.found
  once : final.found.Nodup
  found : ∀ t σ, (t, σ) ∈ final.found ↔ t ∈ p.tasks.names ∧ ∃ c, p.Chain c t ∧ p.lineage c = σ

theorem exists_exhausted (p : Plan) : ∃ final, Exhausted p final := by
  obtain ⟨unique, all⟩ := arrivals_spec p
  have first : looks p (outset p) =
      p.starts.length + ((arrivals p).map fun a => (arrivalsBehind p a).length).sum := by
    simp [looks, outset, List.sum_toFinset _ unique]
  have ends : (workOff (step p) (looks p (outset p) + 1) (outset p)).isSome :=
    workOff_isSome (looks p) (fun _ _ => Searched.takes) (fun _ _ => Searched.looks_lt) _ _
      (searched_start p) (Nat.lt_succ_self _)
  obtain ⟨result, worked⟩ := Option.isSome_iff_exists.mp ends
  cases result with
  | error e => cases e
  | ok final =>
    obtain ⟨run, done⟩ := workOff_ok worked
    have answer : arrivals p = final.found := by
      refine arrivals_of_workOff (n := looks p (outset p) + 1) ?_
      rw [← outset, worked]
      rfl
    refine ⟨final, run, ?_, ?_, answer, answer ▸ unique, ?_⟩
    · cases queue : final.pending with
      | nil => rfl
      | cons a pending => simp [step, queue] at done
    · rw [← answer, ← first]
      exact worked
    · intro t σ
      rw [← answer, all]
      constructor
      · intro arrives
        have known := arrives.mem p.network_among
        exact ⟨known, (Plan.arrives_iff_exists_chain known).mp arrives⟩
      · rintro ⟨known, chain⟩
        exact (Plan.arrives_iff_exists_chain known).mpr chain

/-- A join is reported just if there are chains of transitions to it, from start tasks, on which the tasks
that fork differ; it is reported once. The search that tells comes to an end. -/
theorem ambiguous_joins_reported (p : Plan) :
    (∀ j, ambiguousJoin j ∈ problems p ↔ p.isJoin j = true ∧
      ∃ c c', p.Chain c j ∧ p.Chain c' j ∧ p.lineage c ≠ p.lineage c') ∧
    (∀ j, (problems p).count (ambiguousJoin j) ≤ 1) ∧
    ∃ final, Exhausted p final := by
  refine ⟨fun j => ?_, fun j => ?_, exists_exhausted p⟩
  · rw [← List.count_pos_iff, count_ambiguousJoin, List.count_pos_iff, mem_ambiguousProblems_iff]
    refine and_congr_right fun join => ?_
    have known : j ∈ p.tasks.names := Plan.mem_names_of_isJoin join
    simp only [Plan.arrives_iff_exists_chain known]
    constructor
    · rintro ⟨_, _, ⟨c, chain, rfl⟩, ⟨c', chain', rfl⟩, differ⟩
      exact ⟨c, c', chain, chain', differ⟩
    · rintro ⟨c, c', chain, chain', differ⟩
      exact ⟨_, _, ⟨c, chain, rfl⟩, ⟨c', chain', rfl⟩, differ⟩
  · rw [count_ambiguousJoin]
    exact List.nodup_iff_count_le_one.mp (nodup_ambiguousProblems p) _

end Workflow.Inspection.Structure
