import Workflow.Graph.Session
import Workflow.Proofs.Graph.Soundness

/-!
What operations do to a graph, and what they leave as it is.
-/

namespace Workflow.Graph

variable {g g' : Graph} {id source destination : String} {criteria : List String}
  {ordinal : Option Nat} {key : Nat}

/-- An operation with what becomes of the graph. One that fails changes nothing; one on a task changes
nodes only; a transition is told its clause, given new criteria or added at the end. -/
inductive Changes (g : Graph) : Operation → Graph → Prop where
  | failed {o : Operation} {f : Failure} (error : g.perform o = .error f) : Changes g o g
  | added (id : String) (a : Attributes) : Changes g (.addTask id a) (g.addTask id a)
  | updated (id : String) (a : Attributes) :
    Changes g (.updateTask id a) (g.modifyNode id fun n => n.merge a)
  | barred (id : String) (barrier : Option Join) :
    Changes g (.setBarrier id barrier) (g.modifyNode id fun n => { n with barrier := barrier })
  | told {e : Edge} {source destination : String} (ordinal : Option Nat)
      (there : e ∈ g.between source destination) :
    Changes g (.addTransition source destination e.criteria ordinal)
      (g.modifyEdge source destination e.key fun e => e.withOrdinal ordinal)
  | linked {source destination : String} {criteria : List String} (ordinal : Option Nat)
      (new : ∀ e ∈ g.between source destination, e.criteria ≠ criteria) :
    Changes g (.addTransition source destination criteria ordinal)
      { (g.ensure source).ensure destination with
        edges := g.edges ++
          [⟨source, destination, freshKey (g.between source destination), criteria, ordinal⟩] }
  | rewritten {e : Edge} {source destination : String} (criteria : List String)
      (ordinal : Option Nat) (there : e ∈ g.between source destination) :
    Changes g (.updateTransition source destination e.key criteria ordinal)
      (g.modifyEdge source destination e.key fun e =>
        { e with criteria := criteria }.withOrdinal ordinal)

def alternatives (g : Graph) (source destination : String) (criteria : List String) : List Edge :=
  (g.between source destination).filter fun e => e.criteria == criteria

theorem mem_alternatives_iff {e : Edge} :
    e ∈ g.alternatives source destination criteria ↔
      e ∈ g.between source destination ∧ e.criteria = criteria := by
  simp [alternatives]

/-- To add a transition either meets one with these criteria, or none, or several. -/
theorem addTransition_cases (sound : g.Sound) (source destination : String) (criteria : List String)
    (ordinal : Option Nat) :
    (∃ e, g.alternatives source destination criteria = [e] ∧
      g.addTransition source destination criteria ordinal =
        .ok (e.key, g.modifyEdge source destination e.key fun e => e.withOrdinal ordinal)) ∨
    (g.alternatives source destination criteria = [] ∧
      g.addTransition source destination criteria ordinal =
        .ok (freshKey (g.between source destination), { (g.ensure source).ensure destination with
          edges := g.edges ++
            [⟨source, destination, freshKey (g.between source destination), criteria, ordinal⟩] })) ∨
    (1 < (g.alternatives source destination criteria).length ∧
      g.addTransition source destination criteria ordinal =
        .error (.ambiguous source destination
          (g.alternatives source destination criteria).length)) := by
  have between : ((g.ensure source).ensure destination).between source destination =
      g.between source destination := by
    simp [Graph.between]
  have refold : (g.between source destination).filter (fun e => e.criteria == criteria) =
      g.alternatives source destination criteria := rfl
  unfold addTransition
  simp only [between, edges_ensure, refold]
  cases found : g.alternatives source destination criteria with
  | nil => exact .inr (.inl ⟨rfl, rfl⟩)
  | cons e others =>
    cases others with
    | nil =>
      have there := mem_alternatives_iff.mp (found ▸ List.mem_singleton_self e)
      exact .inl ⟨e, rfl, by rw [sound.ensure_ends there.1]⟩
    | cons f others => exact .inr (.inr ⟨by simp, rfl⟩)

/-- An operation that fails leaves the graph as it was: where a transition is met several times, its ends
are there. -/
theorem Sound.leftBy_eq (sound : g.Sound) {o : Operation} {f : Failure}
    (failed : g.perform o = .error f) : g.leftBy o = g := by
  cases o with
  | addTransition source destination criteria ordinal =>
    obtain ⟨e, _, result⟩ | ⟨_, result⟩ | ⟨several, _⟩ :=
      addTransition_cases sound source destination criteria ordinal
    · simp [perform, result, Except.map] at failed
    · simp [perform, result, Except.map] at failed
    · have met : 0 < (g.alternatives source destination criteria).length := by omega
      obtain ⟨e, inside⟩ := List.exists_mem_of_length_pos met
      exact sound.ensure_ends (mem_alternatives_iff.mp inside).1
  | _ => rfl

/-- What becomes of a graph is one of the changes. -/
theorem changes_after (sound : g.Sound) (o : Operation) : g.Changes o (g.after o) := by
  unfold after
  cases done : g.perform o with
  | error f =>
    have same := sound.leftBy_eq done
    simp only [same]
    exact .failed done
  | ok r =>
    obtain ⟨answer, g'⟩ := r
    cases o with
    | addTask id a =>
      cases done
      exact .added id a
    | updateTask id a =>
      simp only [perform, updateTask] at done
      split at done
      · cases done
        exact .updated id a
      · cases done
    | setBarrier id barrier =>
      simp only [perform, setBarrier] at done
      split at done
      · cases done
        exact .barred id barrier
      · cases done
    | addTransition source destination criteria ordinal =>
      obtain ⟨e, found, result⟩ | ⟨found, result⟩ | ⟨_, result⟩ :=
        addTransition_cases sound source destination criteria ordinal
      · simp only [perform, result, Except.map, Except.ok.injEq, Prod.mk.injEq] at done
        obtain ⟨there, rfl⟩ := mem_alternatives_iff.mp (found ▸ List.mem_singleton_self e)
        exact done.2 ▸ .told ordinal there
      · simp only [perform, result, Except.map, Except.ok.injEq, Prod.mk.injEq] at done
        have new : ∀ e ∈ g.between source destination, e.criteria ≠ criteria := by
          intro e there same
          have inside := mem_alternatives_iff.mpr ⟨there, same⟩
          simp [found] at inside
        exact done.2 ▸ .linked ordinal new
      · simp [perform, result, Except.map] at done
    | updateTransition source destination key criteria ordinal =>
      simp only [perform, updateTransition] at done
      split at done
      · cases done
      split at done
      · cases done
      split at done
      next found =>
        obtain ⟨e, there, same⟩ := List.any_eq_true.mp found
        obtain rfl : e.key = key := by simpa using same
        cases done
        exact .rewritten criteria ordinal there
      next => cases done

/-- Whatever an operation does, the graph stays sound. -/
theorem Changes.sound {o : Operation} (changes : g.Changes o g') (sound : g.Sound) : g'.Sound := by
  cases changes with
  | failed => exact sound
  | added id a => exact sound.addTask id a
  | updated => exact sound.modifyNode fun _ => rfl
  | barred => exact sound.modifyNode fun _ => rfl
  | told => exact sound.modifyEdge fun _ => rfl
  | rewritten => exact sound.modifyEdge fun _ => rfl
  | @linked source destination criteria ordinal new =>
    have ends := (sound.ensure source).ensure destination
    have between : ((g.ensure source).ensure destination).between source destination =
        g.between source destination := by
      simp [Graph.between]
    rw [← edges_ensure g source, ← edges_ensure (g.ensure source) destination]
    apply ends.append
    · exact mem_ids_ensure.mpr (.inl (mem_ids_ensure.mpr (.inr rfl)))
    · exact mem_ids_ensure.mpr (.inr rfl)
    · intro e there
      rw [between] at there
      exact Nat.ne_of_lt (key_lt_freshKey there)

/-- No operation breaks a graph up, whether it fails or not. -/
theorem Sound.after (sound : g.Sound) (o : Operation) : (g.after o).Sound :=
  (changes_after sound o).sound sound

theorem Sound.run (sound : g.Sound) (os : List Operation) : (g.run os).Sound := by
  induction os generalizing g with
  | nil => exact sound
  | cons o os ih => exact ih (sound.after o)

end Workflow.Graph
