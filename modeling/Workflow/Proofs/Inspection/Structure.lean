import Workflow.Inspection.Structure
import Workflow.Proofs.Plan.Network
import Workflow.Proofs.Worklist

/-!
What the inspection of the structure finds: all arrivals of the network of a plan, and so, if it has
no complaint, a plan whose tasks are all reached and whose joins are reached behind the same forks.
-/

namespace Workflow.Inspection.Structure

variable {p : Plan} {a b : Arrival}

theorem mem_arrivalsBehind_iff :
    b ∈ arrivalsBehind p a ↔
      p.network.leads a.1 b.1 ∧ b.2 = p.network.behind a.1 a.2 := by
  obtain ⟨u, τ⟩ := b
  have links : p.network.leads a.1 u ↔ u ∈ p.successors a.1 ∧ p.tasks.contains u = true := by
    rw [Table.contains_iff]
    rfl
  unfold arrivalsBehind
  simp only [List.mem_map, List.mem_filter, Prod.mk.injEq, links]
  constructor
  · rintro ⟨d, leads, rfl, rfl⟩
    exact ⟨leads, rfl⟩
  · rintro ⟨leads, rfl⟩
    exact ⟨u, leads, rfl, rfl⟩

theorem length_arrivalsBehind_le (known : a.1 ∈ p.tasks.names) :
    (arrivalsBehind p a).length ≤ (p.tasks.names.flatMap p.successors).length := by
  have part : (p.successors a.1).Sublist (p.tasks.names.flatMap p.successors) := by
    rw [List.flatMap_def]
    exact List.sublist_flatten_of_mem (List.mem_map.mpr ⟨a.1, known, rfl⟩)
  calc (arrivalsBehind p a).length
      = ((p.successors a.1).filter p.tasks.contains).length := List.length_map _
    _ ≤ (p.successors a.1).length := List.length_filter_le _ _
    _ ≤ (p.tasks.names.flatMap p.successors).length := part.length_le

/-- What was found or is to be looked at arrives; the starts are among it, and so is what lies right
behind anything that was found. -/
structure Searched (p : Plan) (s : Search) : Prop where
  unique : s.found.Nodup
  arrive : ∀ a, a ∈ s.found ∨ a ∈ s.pending → p.network.Arrives a.1 a.2
  started : ∀ t ∈ p.starts, (t, []) ∈ s.found ∨ (t, []) ∈ s.pending
  closed : ∀ a ∈ s.found, ∀ b ∈ arrivalsBehind p a, b ∈ s.found ∨ b ∈ s.pending

theorem searched_start (p : Plan) : Searched p ⟨[], p.starts.map fun name => (name, [])⟩ where
  unique := List.nodup_nil
  arrive := by
    rintro a (found | pending)
    · cases found
    · obtain ⟨t, first, rfl⟩ := List.mem_map.mp pending
      exact .start first
  started t first := .inr (List.mem_map.mpr ⟨t, first, rfl⟩)
  closed := nofun

/-- A step looks at the first pending arrival: one that was found before is dropped. -/
theorem takes_cases {s s' : Search} (taken : Takes (step p) s s') :
    ∃ a pending, s.pending = a :: pending ∧
      (a ∈ s.found ∧ s' = ⟨s.found, pending⟩ ∨
        a ∉ s.found ∧ s' = ⟨a :: s.found, arrivalsBehind p a ++ pending⟩) := by
  unfold Takes step at taken
  cases queue : s.pending with
  | nil => simp [queue] at taken
  | cons a pending =>
    refine ⟨a, pending, rfl, ?_⟩
    by_cases known : a ∈ s.found
    · simp only [queue, List.contains_iff_mem, known, if_true, Except.ok.injEq,
        Option.some.injEq] at taken
      exact .inl ⟨known, taken.symm⟩
    · simp only [queue, List.contains_iff_mem, known, if_false, Except.ok.injEq,
        Option.some.injEq] at taken
      exact .inr ⟨known, taken.symm⟩

/-- One step finds the arrival at the head of the queue, and notes what lies right behind it. -/
theorem Searched.takes {s s' : Search} (searched : Searched p s) (taken : Takes (step p) s s') :
    Searched p s' := by
  obtain ⟨a, pending, queue, ⟨known, rfl⟩ | ⟨new, rfl⟩⟩ := takes_cases taken
  · -- The arrival that is dropped was found before.
    have kept : ∀ b, b ∈ s.found ∨ b ∈ s.pending → b ∈ s.found ∨ b ∈ pending := by
      intro b covered
      rw [queue] at covered
      rcases covered with found | waiting
      · exact .inl found
      · rcases List.mem_cons.mp waiting with rfl | waiting
        · exact .inl known
        · exact .inr waiting
    refine ⟨searched.unique, ?_, fun t first => kept _ (searched.started t first), ?_⟩
    · rintro b (found | waiting)
      · exact searched.arrive b (.inl found)
      · exact searched.arrive b (.inr (queue ▸ List.mem_cons_of_mem a waiting))
    · exact fun b found c behind => kept c (searched.closed b found c behind)
  · have arrives : p.network.Arrives a.1 a.2 :=
      searched.arrive a (.inr (queue ▸ List.mem_cons_self))
    have kept : ∀ b, b ∈ s.found ∨ b ∈ s.pending →
        b ∈ a :: s.found ∨ b ∈ arrivalsBehind p a ++ pending := by
      intro b covered
      rw [queue] at covered
      rcases covered with found | waiting
      · exact .inl (List.mem_cons_of_mem a found)
      · rcases List.mem_cons.mp waiting with rfl | waiting
        · exact .inl List.mem_cons_self
        · exact .inr (List.mem_append_right _ waiting)
    refine ⟨List.nodup_cons.mpr ⟨new, searched.unique⟩, ?_,
      fun t first => kept _ (searched.started t first), ?_⟩
    · rintro b (found | waiting)
      · rcases List.mem_cons.mp found with rfl | found
        · exact arrives
        · exact searched.arrive b (.inl found)
      · rcases List.mem_append.mp waiting with behind | waiting
        · obtain ⟨link, forks⟩ := mem_arrivalsBehind_iff.mp behind
          rw [forks]
          exact .follow arrives link
        · exact searched.arrive b (.inr (queue ▸ List.mem_cons_of_mem a waiting))
    · intro b found c behind
      rcases List.mem_cons.mp found with rfl | found
      · exact .inr (List.mem_append_left _ behind)
      · exact kept c (searched.closed b found c behind)

/-- How much of the search is left. -/
def remaining (p : Plan) (s : Search) : Nat :=
  ((p.tasks.size + 1) ^ (p.tasks.size + 2) - s.found.length) *
    ((p.tasks.names.flatMap p.successors).length + 1) + s.pending.length

/-- Arrivals are behind different forks in a row, so finitely many are found. -/
theorem Searched.length_found_le {s : Search} (searched : Searched p s) :
    s.found.length ≤ (p.tasks.size + 1) ^ (p.tasks.size + 2) := by
  have bound := Network.arrivals_length_le p.network_acyclic p.network_among searched.unique
    fun a found => searched.arrive a (.inl found)
  have size : p.tasks.names.length = p.tasks.size := List.length_map _
  rwa [size] at bound

/-- Each step leaves less of the search. -/
theorem Searched.remaining_lt {s s' : Search} (searched : Searched p s)
    (taken : Takes (step p) s s') : remaining p s' < remaining p s := by
  have room := (searched.takes taken).length_found_le
  obtain ⟨a, pending, queue, ⟨known, rfl⟩ | ⟨new, rfl⟩⟩ := takes_cases taken
  · unfold remaining
    rw [queue, List.length_cons]
    exact Nat.lt_succ_self _
  · have arrives := searched.arrive a (.inr (queue ▸ List.mem_cons_self))
    have behind := length_arrivalsBehind_le (arrives.mem p.network_among)
    rw [List.length_cons] at room
    unfold remaining
    rw [queue, List.length_append, List.length_cons, List.length_cons]
    generalize (p.tasks.size + 1) ^ (p.tasks.size + 2) = bound at room ⊢
    obtain ⟨rest, rfl⟩ := Nat.exists_eq_add_of_le room
    have before : s.found.length + 1 + rest - s.found.length = rest + 1 := by omega
    have after : s.found.length + 1 + rest - (s.found.length + 1) = rest := by omega
    rw [before, after, Nat.succ_mul]
    omega

/-- The search is over within its bound of steps. -/
theorem search_ends (p : Plan) :
    (workOff (step p) (maxSteps p) ⟨[], p.starts.map fun name => (name, [])⟩).isSome := by
  refine workOff_isSome (remaining p) (fun _ _ => Searched.takes) (fun _ _ => Searched.remaining_lt)
    _ _ (searched_start p) ?_
  have firsts : p.starts.length ≤ p.tasks.size := by
    unfold Plan.starts
    rw [List.length_mergeSort]
    exact (List.length_filter_le _ _).trans (List.length_map _).le
  simp only [remaining, maxSteps, List.length_nil, List.length_map, Nat.sub_zero, Nat.pow_eq]
  omega

/-- A search of any number of steps that comes to an end is the one that is made. -/
theorem arrivals_of_workOff {n : Nat} {found : List Arrival}
    (worked : (workOff (step p) n ⟨[], p.starts.map fun name => (name, [])⟩).map
      (fun r => r.map Search.found) = some (.ok found)) : arrivals p = found := by
  obtain ⟨s, worked', rfl⟩ := exists_workOff (search_ends p) worked
  unfold arrivals
  rw [worked']

/-- The search comes to its end, and has then found all arrivals, each of them once. -/
theorem arrivals_spec (p : Plan) :
    (arrivals p).Nodup ∧ ∀ a, a ∈ arrivals p ↔ p.network.Arrives a.1 a.2 := by
  obtain ⟨result, worked⟩ := Option.isSome_iff_exists.mp (search_ends p)
  unfold arrivals
  cases result with
  | error e => cases e
  | ok s =>
    rw [worked]
    obtain ⟨run, done⟩ := workOff_ok worked
    have searched : Searched p s := run.preserves (fun _ _ => Searched.takes) (searched_start p)
    have empty : s.pending = [] := by
      cases queue : s.pending with
      | nil => rfl
      | cons a pending => simp [step, queue] at done
    have found : ∀ a, a ∈ s.found ∨ a ∈ s.pending → a ∈ s.found := by
      intro a covered
      rw [empty] at covered
      rcases covered with found | waiting
      · exact found
      · cases waiting
    refine ⟨searched.unique, fun a => ⟨fun inside => searched.arrive a (.inl inside), ?_⟩⟩
    obtain ⟨t, σ⟩ := a
    intro arrives
    dsimp only at arrives ⊢
    induction arrives with
    | start first => exact found _ (searched.started _ first)
    | follow _ link ih =>
      exact found _ (searched.closed _ ih _ (mem_arrivalsBehind_iff.mpr ⟨link, rfl⟩))

theorem exists_arrives_of_reached {t : String} (found : t ∈ reached p) :
    ∃ σ, p.network.Arrives t σ := by
  unfold reached at found
  have path := mem_reach_iff.mp found
  induction path with
  | start _ asked => exact ⟨[], .start asked⟩
  | follow _ link ih =>
    obtain ⟨σ, arrives⟩ := ih (mem_reach_iff.mpr ‹_›)
    exact ⟨_, .follow arrives link⟩

/-- A plan that hangs together: no task has the name of a command, all links lead to tasks or to
commands, every task is reached, and no join is reached behind different forks. -/
structure Clean (p : Plan) : Prop where
  unreserved : ∀ t ∈ p.tasks.names, isReserved t = false
  defined : ∀ t u, u ∈ p.successors t → isReserved u = false → u ∈ p.tasks.names
  reached : ∀ t ∈ p.tasks.names, ∃ σ, p.network.Arrives t σ
  unambiguous : ∀ t, p.isJoin t = true →
    ∀ σ τ, p.network.Arrives t σ → p.network.Arrives t τ → σ = τ

private theorem local_of_none (none_ : localProblems p = []) :
    (∀ t ∈ p.tasks.names, isReserved t = false) ∧
      ∀ t u, u ∈ p.successors t → isReserved u = false → u ∈ p.tasks.names := by
  unfold localProblems at none_
  have fine := List.flatMap_eq_nil_iff.mp none_
  constructor
  · intro t known
    obtain ⟨task, found⟩ := Table.mem_names_iff.mp known
    have own := (List.append_eq_nil_iff.mp (fine _ (Table.get?_eq_some_iff.mp found))).1
    simpa [reservedProblems] using own
  · intro t u leads plain
    obtain ⟨task, found, c, clause, destination⟩ := Plan.mem_successors_iff.mp leads
    have clauses := (List.append_eq_nil_iff.mp (fine _ (Table.get?_eq_some_iff.mp found))).2
    have none_ := List.flatMap_eq_nil_iff.mp clauses c clause
    unfold undefinedProblems at none_
    have kept := List.filter_eq_nil_iff.mp (List.map_eq_nil_iff.mp none_) u destination
    rw [← Table.contains_iff]
    simpa [plain] using kept

private theorem unambiguous_of_none (none_ : ambiguousProblems p = []) {t : String}
    (join : p.isJoin t = true) {σ τ : List String} (first : p.network.Arrives t σ)
    (second : p.network.Arrives t τ) : σ = τ := by
  obtain ⟨unique, all⟩ := arrivals_spec p
  unfold ambiguousProblems at none_
  have known : t ∈ p.tasks.names := first.mem p.network_among
  have kept := List.filter_eq_nil_iff.mp (List.map_eq_nil_iff.mp none_) t known
  rw [join, Bool.true_and, decide_eq_true_iff, Nat.not_lt] at kept
  by_contra differ
  have both : [(t, σ), (t, τ)] ⊆ (arrivals p).filter fun a => a.1 == t := by
    intro a inside
    rcases List.mem_pair.mp inside with rfl | rfl
    · exact List.mem_filter.mpr ⟨(all _).mpr first, beq_self_eq_true t⟩
    · exact List.mem_filter.mpr ⟨(all _).mpr second, beq_self_eq_true t⟩
  have apart : [(t, σ), (t, τ)].Nodup := by simpa using differ
  have two := (apart.subperm both).length_le
  exact Nat.not_succ_le_self 1 (two.trans kept)

/-- A plan in whose structure nothing is found wrong hangs together. -/
theorem clean_of_problems_eq_nil (none_ : problems p = []) : Clean p := by
  unfold problems at none_
  obtain ⟨locals, others⟩ := List.append_eq_nil_iff.mp none_
  obtain ⟨unreserved, defined⟩ := local_of_none locals
  split at others
  next nowhere =>
    split at others
    next empty =>
      -- Without tasks there is nothing to be reached.
      have none_ : ∀ t, t ∉ p.tasks.names := by
        intro t known
        unfold Table.names at known
        rw [List.isEmpty_iff.mp empty] at known
        cases known
      exact ⟨unreserved, defined, fun t known => absurd known (none_ t), fun t _ _ _ first =>
        absurd (first.mem p.network_among) (none_ t)⟩
    next => cases others
  next =>
    obtain ⟨unreached, ambiguous⟩ := List.append_eq_nil_iff.mp others
    refine ⟨unreserved, defined, ?_, fun t join _ _ => unambiguous_of_none ambiguous join⟩
    intro t known
    unfold unreachedProblems at unreached
    have kept := List.filter_eq_nil_iff.mp (List.map_eq_nil_iff.mp unreached) t known
    exact exists_arrives_of_reached (by simpa using kept)

end Workflow.Inspection.Structure
