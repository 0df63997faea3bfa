import Workflow.Proofs.Graph.Stepwise

/-!
Operations that fail. Most look at everything before they change something. A transition gets its ends
first, but it fails only where several transitions are met, and there its ends are nodes already.
-/

namespace Workflow.Graph

variable {g : Graph} {o : Operation} {f : Failure}

/-- How an operation fails: it names a node or a transition that is not there, or it adds a transition
where several have these criteria. -/
inductive Operation.Fails (g : Graph) : Operation → Failure → Prop where
  | updateTask {id : String} {a : Attributes} (unknown : id ∉ g.ids) :
    Fails g (.updateTask id a) (.unknownTask id)
  | setBarrier {id : String} {barrier : Option Join} (unknown : id ∉ g.ids) :
    Fails g (.setBarrier id barrier) (.unknownTask id)
  | addTransition {source destination : String} {criteria : List String} {ordinal : Option Nat}
      (several : 1 < (g.alternatives source destination criteria).length) :
    Fails g (.addTransition source destination criteria ordinal)
      (.ambiguous source destination (g.alternatives source destination criteria).length)
  | source {source destination : String} {key : Nat} {criteria : List String}
      {ordinal : Option Nat} (unknown : source ∉ g.ids) :
    Fails g (.updateTransition source destination key criteria ordinal) (.unknownTask source)
  | destination {source destination : String} {key : Nat} {criteria : List String}
      {ordinal : Option Nat} (known : source ∈ g.ids) (unknown : destination ∉ g.ids) :
    Fails g (.updateTransition source destination key criteria ordinal) (.unknownTask destination)
  | transition {source destination : String} {key : Nat} {criteria : List String}
      {ordinal : Option Nat} (known : source ∈ g.ids) (known' : destination ∈ g.ids)
      (other : ∀ e ∈ g.between source destination, e.key ≠ key) :
    Fails g (.updateTransition source destination key criteria ordinal)
      (.noTransition source destination)

/-- Where several transitions are met, both ends are there. -/
theorem Sound.mem_of_several (sound : g.Sound) {source destination : String} {criteria : List String}
    (several : 1 < (g.alternatives source destination criteria).length) :
    source ∈ g.ids ∧ destination ∈ g.ids := by
  obtain ⟨e, met⟩ := List.exists_mem_of_length_pos (Nat.zero_lt_of_lt several)
  obtain ⟨inside, rfl, rfl⟩ := mem_between.mp (mem_alternatives_iff.mp met).1
  exact ⟨sound.source_mem e inside, sound.destination_mem e inside⟩

/-- An operation fails in one of these ways only. -/
theorem fails_of_perform (sound : g.Sound) (failed : g.perform o = .error f) : o.Fails g f := by
  cases o with
  | addTask id a => cases failed
  | updateTask id a =>
    rw [perform_updateTask] at failed
    split at failed
    next => cases failed
    next unknown =>
      cases failed
      exact .updateTask unknown
  | setBarrier id barrier =>
    rw [perform_setBarrier] at failed
    split at failed
    next => cases failed
    next unknown =>
      cases failed
      exact .setBarrier unknown
  | addTransition source destination criteria ordinal =>
    obtain ⟨e, _, result⟩ | ⟨_, result⟩ | ⟨several, result⟩ :=
      addTransition_cases sound source destination criteria ordinal
    · simp [perform, result, Except.map] at failed
    · simp [perform, result, Except.map] at failed
    · simp only [perform, result, Except.map, Except.error.injEq] at failed
      exact failed ▸ .addTransition several
  | updateTransition source destination key criteria ordinal =>
    rw [perform_updateTransition] at failed
    split at failed
    next unknown =>
      cases failed
      exact .source unknown
    next known =>
    split at failed
    next unknown =>
      cases failed
      exact .destination (not_not.mp known) unknown
    next known' =>
    split at failed
    next => cases failed
    next other =>
      cases failed
      exact .transition (not_not.mp known) (not_not.mp known')
        fun e there same => other ⟨e, there, same⟩

theorem Operation.Fails.perform (fails : o.Fails g f) (sound : g.Sound) : g.perform o = .error f := by
  cases fails with
  | updateTask unknown => rw [perform_updateTask, if_neg unknown]
  | setBarrier unknown => rw [perform_setBarrier, if_neg unknown]
  | @addTransition source destination criteria ordinal several =>
    obtain ⟨e, alone, _⟩ | ⟨missing, _⟩ | ⟨_, result⟩ :=
      addTransition_cases sound source destination criteria ordinal
    · simp [alone] at several
    · simp [missing] at several
    · simp only [Graph.perform, result, Except.map]
  | source unknown => rw [perform_updateTransition, if_pos unknown]
  | destination known unknown =>
    rw [perform_updateTransition, if_neg (not_not_intro known), if_pos unknown]
  | transition known known' other =>
    rw [perform_updateTransition, if_neg (not_not_intro known), if_neg (not_not_intro known'),
      if_neg (by rintro ⟨e, there, same⟩; exact other e there same)]

/-- An operation fails just where it names something that is not there, or meets several transitions. -/
theorem perform_eq_error_iff (sound : g.Sound) : g.perform o = .error f ↔ o.Fails g f :=
  ⟨fails_of_perform sound, fun fails => fails.perform sound⟩

/-- Where an operation fails that is carried out step by step, the graph and the table behind the last
step are those before the first. -/
theorem Sound.left_eq (sound : g.Sound) {left : Indexed}
    (failed : o.carryOut.run g.indexed = .error f left) :
    g.perform o = .error f ∧ left = g.indexed := by
  rw [sound.run_carryOut] at failed
  cases performed : g.perform o with
  | ok r =>
    rw [performed] at failed
    cases failed
  | error f' =>
    rw [performed] at failed
    cases failed
    exact ⟨rfl, by rw [sound.leftBy_eq performed]⟩

/-- Whatever a graph has been through, an operation that fails leaves its nodes, its edges and its table
of ids as they are, although a transition gets its ends before the others are looked at. It fails just
as the graph gives reason to; the ends of a transition that is not added were there before; and a
session goes on as if nothing had been asked. -/
theorem failing_changes_nothing (begun : g.Begun) (os : List Operation) {left : Indexed}
    (failed : o.carryOut.run (g.indexed.session os) = .error f left) :
    left = g.indexed.session os ∧ left = (g.run os).indexed ∧ o.Fails (g.run os) f ∧
      (∀ source destination criteria ordinal,
        o = .addTransition source destination criteria ordinal →
          source ∈ (g.run os).ids ∧ destination ∈ (g.run os).ids) ∧
      (g.run os).after o = g.run os ∧
      ∀ rs, (g.run os).answers (.change o :: rs) = .error f :: (g.run os).answers rs := by
  have sound : (g.run os).Sound := (sound_of_begun begun).run os
  rw [(sound_of_begun begun).session_indexed] at failed ⊢
  obtain ⟨performed, same⟩ := sound.left_eq failed
  have fails := fails_of_perform sound performed
  have kept : (g.run os).after o = g.run os := by
    simp only [after, performed, sound.leftBy_eq performed]
  refine ⟨same, same, fails, ?_, kept, ?_⟩
  · rintro source destination criteria ordinal rfl
    cases fails with
    | addTransition several => exact sound.mem_of_several several
  · intro rs
    simp only [answers, performed, kept, Except.map]

/-- Two nodes with two transitions between them that have the same criteria. -/
def sameCriteria : Document where
  directed := true
  multigraph := true
  attributes := .object []
  nodes := [{ id := "a" }, { id := "b" }]
  adjacency := [[{ id := "b", key := 0, criteria := ["x"] }, { id := "b", key := 1, criteria := ["x"] }],
    []]

/-- A document may state transitions with the same criteria, and then none can be added to them. -/
theorem sameCriteria_changes_nothing :
    ofDocument sameCriteria = .ok sameCriteria.graph ∧
    ∃ left, (Operation.addTransition "a" "b" ["x"] none).carryOut.run
        (sameCriteria.graph.indexed.session [.addTask "c" {}]) = .error (.ambiguous "a" "b" 2) left ∧
      left = (sameCriteria.graph.run [.addTask "c" {}]).indexed ∧
      left.graph.ids = ["a", "b", "c"] := by
  have states : ofDocument sameCriteria = .ok sameCriteria.graph := by rfl
  have failed : (Operation.addTransition "a" "b" ["x"] none).carryOut.run
      (sameCriteria.graph.indexed.session [.addTask "c" {}]) =
        .error (.ambiguous "a" "b" 2) (sameCriteria.graph.run [.addTask "c" {}]).indexed := by
    rw [(sound_of_ofDocument states).session_indexed,
      ((sound_of_ofDocument states).run _).run_carryOut]
    rfl
  obtain ⟨_, same, _⟩ := failing_changes_nothing (.read states) [.addTask "c" {}] failed
  exact ⟨states, _, failed, same, by decide⟩

end Workflow.Graph
