import Workflow.Proofs.Expansion.Admission
import Workflow.Proofs.Expansion.Preservation

/-!
What an expansion comes to: a graph in which all arrivals have been dealt with, or a failure beyond
one of the limits.
-/

namespace Workflow.Composition.Expansion

open Workflow.Graph

variable {logical : Graph} {limits : Limits} {s s' : State} {v : Visit} {queue : List Visit}

/-- How many arrivals are to come at most. -/
def remaining (logical : Graph) (limits : Limits) (s : State) : Nat :=
  (limits.maxInstances - s.graph.nodes.length) * (logical.edges.length + 1) + s.queue.length

/-- A step works off an arrival; if it makes a node, then the node takes one of the places left. The
places may be those of other limits, as long as these have room for the node, too. -/
theorem Grounded.remaining_lt {wide : Limits} (grounded : Grounded logical s)
    (taken : Takes (step logical limits) s s')
    (room : s'.graph.nodes.length ≤ limits.maxInstances →
      s'.graph.nodes.length ≤ wide.maxInstances) :
    remaining logical wide s' < remaining logical wide s := by
  unfold remaining
  obtain ⟨v, queue, next⟩ := exists_head_of_takes taken
  rw [next, List.length_cons]
  rcases grounded.cases_of_takes next taken with ⟨_, rfl⟩ | admits
  · exact Nat.lt_succ_self _
  · rcases admits.length_cases with ⟨same, queue'⟩ | ⟨grown, place, more⟩
    · rw [same, queue']
      exact Nat.lt_succ_self _
    · have places : wide.maxInstances - s.graph.nodes.length =
          wide.maxInstances - s'.graph.nodes.length + 1 := by
        have := room place
        omega
      rw [places, Nat.succ_mul]
      omega

/-- The walk comes to its end, whatever the graph: there are steps enough for all arrivals. -/
theorem walk_ends (logical : Graph) (limits : Limits) :
    (workOff (step logical limits) (maxSteps logical limits) (.start logical)).isSome := by
  refine workOff_isSome (remaining logical limits) (fun _ _ => Grounded.takes)
    (fun _ _ grounded taken => grounded.remaining_lt taken id) _ _ (grounded_start logical) ?_
  simp only [remaining, maxSteps, State.start, Graph.empty, List.length_nil, List.length_map,
    Nat.sub_zero]
  omega

theorem unfolded_of_runs (separated : Separated logical.ids)
    (run : Runs (step logical limits) (.start logical) s) : Unfolded logical s :=
  run.preserves (fun _ _ => Unfolded.takes separated) (unfolded_start logical)

/-- Arrivals are at tasks of the graph. -/
theorem Grounded.mem_ids (grounded : Grounded logical s) (sound : logical.Sound)
    (waiting : v ∈ s.queue) : v.task ∈ logical.ids := by
  rcases grounded.arrive v waiting with root | ⟨u, e, known, _, target⟩
  · exact (mem_roots_iff.mp root).1
  · exact target ▸ sound.destination_mem e known

/-- A step of a walk fails beyond one of the limits only. -/
theorem Grounded.step_error {f : Failure} (grounded : Grounded logical s) (sound : logical.Sound)
    (failed : step logical limits s = .error f) : ∃ b, f = .beyond limits b := by
  cases next : s.queue with
  | nil =>
    rw [step_of_nil next] at failed
    cases failed
  | cons v queue =>
    have defined := grounded.mem_ids sound (next ▸ List.mem_cons_self)
    rcases grounded.step_cases next defined limits with
      ⟨_, dropped⟩ | ⟨b, beyond⟩ | ⟨s', entered, _⟩
    · cases dropped.symm.trans failed
    · cases beyond.symm.trans failed
      exact ⟨b, rfl⟩
    · cases entered.symm.trans failed

end Expansion

open Expansion

variable {logical x : Graph} {limits : Limits}

/-- A walk that succeeds has dealt with all arrivals. -/
theorem expand_ok (expanded : expand limits logical = .ok x) :
    ∃ s, Runs (step logical limits) (.start logical) s ∧ s.queue = [] ∧ s.graph = x := by
  unfold expand at expanded
  rcases workOff_cases (walk_ends logical limits) with
    ⟨s, worked, run, done⟩ | ⟨f, _, worked, _⟩
  · rw [worked] at expanded
    cases expanded
    exact ⟨s, run, queue_eq_nil_of_step done, rfl⟩
  · rw [worked] at expanded
    cases expanded

/-- What a walk of any number of steps comes to is what an expansion is. -/
theorem expand_eq_of_workOff {n : Nat} {r : Except Failure State}
    (worked : workOff (step logical limits) n (.start logical) = some r) :
    expand limits logical = r.map State.graph := by
  have worked' :=
    workOff_eq_of_isSome (walk_ends logical limits) (Option.isSome_of_eq_some worked)
  unfold expand
  rw [worked', worked]
  cases r <;> rfl

/-- An expansion is computed by taking enough steps. -/
theorem exists_expand_of_workOff {β : Type} (f : Graph → β) {b : β} {n : Nat}
    (worked : (workOff (step logical limits) n (.start logical)).map
      (fun r => r.map fun s => f s.graph) = some (.ok b)) :
    ∃ x, expand limits logical = .ok x ∧ f x = b := by
  obtain ⟨r, worked', same⟩ := Option.map_eq_some_iff.mp worked
  cases r with
  | error e => cases same
  | ok s => exact ⟨s.graph, expand_eq_of_workOff worked', Except.ok.inj same⟩

theorem exists_expanded_of_workOff {p : Plan} {β : Type} (f : Graph → β) {b : β} {n : Nat}
    (composed : direct limits p = .ok logical)
    (worked : (workOff (step logical limits) n (.start logical)).map
      (fun r => r.map fun s => f s.graph) = some (.ok b)) :
    ∃ x, expanded limits p = .ok x ∧ f x = b := by
  obtain ⟨x, expanded, same⟩ := exists_expand_of_workOff f worked
  exact ⟨x, by simp only [Composition.expanded, composed, expanded], same⟩

/-- A graph is expanded, unless this goes beyond one of the limits. -/
theorem expand_cases (sound : logical.Sound) (limits : Limits) :
    (∃ b, expand limits logical = .error (.beyond limits b)) ∨
      ∃ x, expand limits logical = .ok x := by
  unfold expand
  rcases workOff_cases (walk_ends logical limits) with
    ⟨s, worked, _⟩ | ⟨f, s, worked, run, failed⟩
  · rw [worked]
    exact .inr ⟨s.graph, rfl⟩
  · obtain ⟨b, rfl⟩ := (grounded_of_runs run).step_error sound failed
    rw [worked]
    exact .inl ⟨b, rfl⟩

end Workflow.Composition
