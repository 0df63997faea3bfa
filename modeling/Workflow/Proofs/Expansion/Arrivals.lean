import Workflow.Proofs.Expansion.Outcome

/-!
The arrivals of an expansion. All those in the queue come; one that is let in enters a node that is there
in the end; and every node was entered by an arrival behind the forks that the node says.
-/

namespace Workflow.Composition.Expansion

open Workflow.Graph

variable {logical : Graph} {limits : Limits} {s s' final : State} {v : Visit} {queue : List Visit}
  {t : String} {splits : List Split} {u : Node}

/-- The walk comes to a task behind these forks. -/
def Comes (logical : Graph) (limits : Limits) (t : String) (splits : List Split) : Prop :=
  ∃ s v queue, Runs (step logical limits) (.start logical) s ∧ s.queue = v :: queue ∧
    v.task = t ∧ v.splits = splits

/-- The walk lets in an arrival at a task, which then is behind these forks. -/
def LetIn (logical : Graph) (limits : Limits) (t : String) (splits : List Split) : Prop :=
  ∃ s v queue, Runs (step logical limits) (.start logical) s ∧ s.queue = v :: queue ∧
    v.task = t ∧ s.lineage logical v = splits ∧ tooEarly logical t v.splits = false

/-- Is the next arrival, with the forks that it is then behind, one of these? -/
def nextAmong (logical : Graph) (arrivals : List (String × List Split)) (s : State) : Bool :=
  match s.queue with
  | [] => true
  | v :: _ => arrivals.contains (v.task, s.lineage logical v)

/-- If all arrivals of a walk that ends are among these, then those that are let in are. -/
theorem LetIn.mem_of_passAlong {n : Nat} {arrivals : List (String × List Split)}
    (letIn : LetIn logical limits t splits)
    (along : passAlong (step logical limits) (nextAmong logical arrivals) n (.start logical) = true) :
    (t, splits) ∈ arrivals := by
  obtain ⟨s, v, queue, run, next, rfl, rfl, _⟩ := letIn
  have among := run.passes along
  unfold nextAmong at among
  rw [next] at among
  exact List.contains_iff_mem.mp among

/-- A walk that has dealt with all arrivals. -/
structure Finished (logical : Graph) (limits : Limits) (final : State) : Prop where
  run : Runs (step logical limits) (.start logical) final
  done : final.queue = []

namespace Finished

/-- Every state of the walk leads to its end. -/
theorem runs (finished : Finished logical limits final)
    (run : Runs (step logical limits) (.start logical) s) : Runs (step logical limits) s final :=
  run.to_end finished.run (step_of_nil finished.done)

/-- With an arrival to come, the walk takes a step. -/
theorem exists_step (finished : Finished logical limits final)
    (run : Runs (step logical limits) (.start logical) s) (next : s.queue = v :: queue) :
    ∃ s', Takes (step logical limits) s s' ∧ Runs (step logical limits) s' final := by
  cases (finished.runs run).cases_head with
  | inl same =>
    rw [same, finished.done] at next
    cases next
  | inr step => exact step

end Finished

/-- A step only adds to the graph. -/
theorem grows_of_takes (separated : Separated logical.ids) (unfolded : Unfolded logical s)
    (taken : Takes (step logical limits) s s') : Grows logical s.graph s'.graph := by
  obtain ⟨v, queue, next⟩ := exists_head_of_takes taken
  rcases unfolded.enters separated next taken with ⟨_, rfl⟩ | ⟨_, n, enters⟩
  · exact Grows.refl logical s.graph
  · exact enters.grows unfolded separated

theorem grows_of_runs (separated : Separated logical.ids) (unfolded : Unfolded logical s)
    (run : Runs (step logical limits) s s') : Grows logical s.graph s'.graph := by
  have both : Unfolded logical s' ∧ Grows logical s.graph s'.graph := by
    induction run with
    | refl => exact ⟨unfolded, Grows.refl logical s.graph⟩
    | tail _ taken ih =>
      exact ⟨ih.1.takes separated taken, ih.2.trans (grows_of_takes separated ih.1 taken)⟩
  exact both.2

/-- What is in the queue comes to its head. -/
theorem exists_head_of_mem (separated : Separated logical.ids) (unfolded : Unfolded logical s)
    (run : Runs (step logical limits) s final) (done : final.queue = []) (waiting : v ∈ s.queue) :
    ∃ m queue, Runs (step logical limits) s m ∧ m.queue = v :: queue := by
  induction run using Relation.ReflTransGen.head_induction_on with
  | refl =>
    rw [done] at waiting
    cases waiting
  | @head s s' taken _ ih =>
    obtain ⟨w, queue, next⟩ := exists_head_of_takes taken
    rw [next] at waiting
    rcases List.mem_cons.mp waiting with rfl | later
    · exact ⟨s, queue, .refl, next⟩
    · have waiting' : v ∈ s'.queue := by
        rcases unfolded.enters separated next taken with ⟨_, rfl⟩ | ⟨_, n, enters⟩
        · exact later
        · exact enters.queue_subset later
      obtain ⟨m, rest, run, head⟩ := ih (unfolded.takes separated taken) waiting'
      exact ⟨m, rest, .head taken run, head⟩

namespace Finished

variable (finished : Finished logical limits final) (separated : Separated logical.ids)

include finished separated

theorem unfolded : Unfolded logical final :=
  unfolded_of_runs separated finished.run

/-- An arrival that is in the queue comes. -/
theorem comes (run : Runs (step logical limits) (.start logical) s) (waiting : v ∈ s.queue) :
    Comes logical limits v.task v.splits := by
  obtain ⟨m, queue, run', next⟩ := exists_head_of_mem separated (unfolded_of_runs separated run)
    (finished.runs run) finished.done waiting
  exact ⟨m, v, queue, run.trans run', next, rfl, rfl⟩

/-- An arrival that is let in enters a node, and there is a node of that id in the end; of a fork it is
just the node that was made. -/
theorem exists_node (letIn : LetIn logical limits t splits) :
    Alive logical final.graph splits ∧ ∃ u ∈ final.graph.nodes, u.id = nodeId t splits ∧
      u.name = t ∧ lastNumber u.splits = lastNumber splits ∧
      (forkAt logical t = true → u.splits = splits) := by
  obtain ⟨s, v, queue, run, next, rfl, rfl, onTime⟩ := letIn
  obtain ⟨s', taken, later⟩ := finished.exists_step run next
  have unfolded := unfolded_of_runs separated run
  obtain ⟨n, enters⟩ := unfolded.exists_enters separated next taken onTime
  have grows := enters.grows unfolded separated
  have grows' := grows_of_runs separated (unfolded.takes separated taken) later
  have expected := unfolded.queue v (next ▸ List.mem_cons_self)
  obtain ⟨u, inside, stands, same⟩ := grows'.nodes _ enters.copy_mem
  refine ⟨grows'.alive (enters.alive grows expected), u, inside, stands.id.trans enters.copy_id,
    stands.name.trans enters.copy_name, stands.number, fun fork => ?_⟩
  rw [enters.copy_name] at same
  rw [same fork]
  rfl

end Finished

/-- Every node was entered by an arrival behind the forks that it says. -/
theorem letIn_of_mem (separated : Separated logical.ids)
    (run : Runs (step logical limits) (.start logical) s) (inside : u ∈ s.graph.nodes) :
    LetIn logical limits u.name u.splits := by
  induction run with
  | refl => cases inside
  | @tail s s' run taken ih =>
    have unfolded := unfolded_of_runs separated run
    obtain ⟨v, queue, next⟩ := exists_head_of_takes taken
    rcases unfolded.enters separated next taken with ⟨_, rfl⟩ | ⟨onTime, n, enters⟩
    · exact ih inside
    · rcases (enters.nodes u).mp inside with ⟨old, _⟩ | rfl
      · exact ih old
      · rw [enters.copy_name]
        exact ⟨s, v, queue, run, next, rfl, rfl, onTime⟩

/-- What is behind a node was put into the queue when it was made. -/
theorem exists_queued_of_mem (separated : Separated logical.ids)
    (run : Runs (step logical limits) (.start logical) s) (inside : u ∈ s.graph.nodes) {f : Edge}
    (link : f ∈ logical.edges) (source : f.source = u.name) :
    ∃ m, Runs (step logical limits) (.start logical) m ∧ ∃ v ∈ m.queue, v.task = f.destination := by
  induction run generalizing u with
  | refl => cases inside
  | @tail s s' run taken ih =>
    have unfolded := unfolded_of_runs separated run
    obtain ⟨v, queue, next⟩ := exists_head_of_takes taken
    rcases unfolded.enters separated next taken with ⟨_, rfl⟩ | ⟨_, n, enters⟩
    · exact ih inside source
    · rcases (enters.nodes u).mp inside with ⟨old, _⟩ | rfl
      · exact ih old source
      · rcases enters.queue with ⟨known, _⟩ | ⟨_, _, _, es, links, same⟩
        · obtain ⟨m, inside', named⟩ := mem_ids_iff.mp known
          have stands := (enters.stands unfolded separated inside' named).1
          exact ih inside' (source.trans stands.name)
        · rw [enters.copy_name] at source
          refine ⟨s', run.tail taken, ⟨f.destination, s.lineage logical v,
            some (nodeId v.task (s.lineage logical v), f)⟩, ?_, rfl⟩
          rw [same]
          exact List.mem_append_right _ (List.mem_map.mpr
            ⟨f, (mem_next_iff links).mpr ⟨link, source⟩, rfl⟩)

end Workflow.Composition.Expansion
