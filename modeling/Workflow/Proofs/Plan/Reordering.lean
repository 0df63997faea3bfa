import Mathlib
import Workflow.Composition.Expansion
import Workflow.Inspection.Structure
import Workflow.Inspection.Vocabulary
import Workflow.Proofs.Inspection.Structure
import Workflow.Proofs.Inspection.Vocabulary.Reports

/-!
Plans that declare the same tasks in another order. What a plan says of its tasks one by one does not
depend on the order, and what it lists of them is sorted. So both compositions and the analysis of
variables come to the same, and the inspection of the structure finds the same problems in some order.
-/

namespace Workflow

namespace Plan

/-- The plans have the same tasks, in any order, and the same declarations. -/
structure Reordered (p q : Plan) : Prop where
  tasks : p.tasks.entries.Perm q.tasks.entries
  inputs : p.inputs = q.inputs
  vars : p.vars = q.vars
  outputs : p.outputs = q.outputs

namespace Reordered

variable {p q : Plan} (same : p.Reordered q)

include same

theorem get? : p.tasks.get? = q.tasks.get? :=
  Table.get?_eq_of_perm same.tasks

theorem contains : p.tasks.contains = q.tasks.contains :=
  Table.contains_eq_of_perm same.tasks

theorem names : p.tasks.names.Perm q.tasks.names :=
  same.tasks.map _

theorem values : p.tasks.values.Perm q.tasks.values :=
  same.tasks.map _

theorem size : p.tasks.size = q.tasks.size :=
  same.tasks.length_eq

theorem next : p.next = q.next := by
  funext t
  unfold Plan.next
  rw [same.get?]

theorem successors : p.successors = q.successors := by
  funext t
  unfold Plan.successors
  rw [same.next]

theorem isTargeted : p.isTargeted = q.isTargeted := by
  funext t
  rw [Bool.eq_iff_iff, isTargeted_iff, isTargeted_iff, same.successors]

theorem starts : p.starts = q.starts := by
  unfold Plan.starts
  rw [same.isTargeted]
  exact mergeSort_le_eq_of_perm (same.names.filter _)

theorem isJoin : p.isJoin = q.isJoin := by
  funext t
  unfold Plan.isJoin
  rw [same.get?]

/-- Predecessors are met in another order, but whether there are several does not depend on it. -/
theorem isSplit : p.isSplit = q.isSplit := by
  funext t
  rw [Bool.eq_iff_iff, isSplit_iff, isSplit_iff, same.names.mem_iff, same.isJoin, same.successors]

theorem inCycle : p.inCycle = q.inCycle := by
  funext t
  unfold Plan.inCycle
  rw [same.successors, reach_eq_of_perm same.names]

end Reordered

/-- Definitions that state their tasks in another order have such plans. -/
theorem reordered_ofDefinition (d : Definition) {tasks : Table Definition.Task}
    (perm : d.tasks.entries.Perm tasks.entries) :
    (ofDefinition d).Reordered (ofDefinition { d with tasks := tasks }) :=
  ⟨perm.map _, rfl, rfl, rfl⟩

end Plan

namespace Composition

variable {p q : Plan} (same : p.Reordered q)

include same

namespace Direct

theorem isFork_reordered : isFork p = isFork q := by
  funext t
  unfold isFork
  rw [same.isSplit, same.inCycle]

theorem extended_reordered : extended p = extended q := by
  funext v
  unfold extended
  rw [isFork_reordered same]

theorem follow_reordered : follow p = follow q := by
  funext t splits s l
  unfold follow
  rw [same.contains, same.inCycle]

theorem followAll_reordered : followAll p = followAll q := by
  funext t splits s ls
  induction ls generalizing s with
  | nil => rfl
  | cons l ls ih => simp only [followAll, follow_reordered same, ih]

theorem visit_reordered : visit p = visit q := by
  funext limits s v
  unfold visit
  rw [same.get?, isFork_reordered same, extended_reordered same, followAll_reordered same, same.next]

theorem step_reordered : step p = step q := by
  funext limits s
  unfold step
  rw [visit_reordered same]

end Direct

open Direct in
/-- Tasks are looked up by name and starts are sorted, so the composition does not see their order. -/
theorem direct_reordered (limits : Limits) : direct limits p = direct limits q := by
  have start : State.start p = State.start q := by
    unfold State.start
    rw [same.starts]
  unfold direct maxSteps
  rw [same.size, same.starts, step_reordered same, start]

theorem expanded_reordered (limits : Limits) : expanded limits p = expanded limits q := by
  unfold expanded
  rw [direct_reordered same]

end Composition

namespace Inspection

variable {p q : Plan} (same : p.Reordered q)

include same

namespace Vocabulary

theorem bring_reordered : bring p = bring q := by
  funext names s t
  unfold bring
  rw [same.contains, same.isJoin]

theorem clause_reordered : clause p = clause q := by
  funext r known s c
  unfold clause
  rw [bring_reordered same]

theorem visit_reordered : visit p = visit q := by
  funext r s t brought
  unfold visit
  rw [same.get?, clause_reordered same]

theorem step_reordered : step p = step q := by
  funext r s
  unfold step
  rw [visit_reordered same]

/-- The steps that are taken at most are counted by the names and the links of all tasks. -/
theorem maxSteps_reordered : maxSteps p = maxSteps q := by
  have names : (published p).length = (published q).length :=
    (same.values.flatMap_right _).length_eq
  have ends : (destinations p).length = (destinations q).length :=
    (same.values.flatMap_right _).length_eq
  unfold maxSteps
  rw [same.size, same.inputs, same.vars, names, ends]

theorem problems_reordered (r : Registry) : problems r p = problems r q := by
  have start : State.start p = State.start q := by
    funext declared found
    unfold State.start
    rw [same.starts]
  unfold problems
  rw [step_reordered same, maxSteps_reordered same, start, same.inputs, same.vars, same.outputs]

end Vocabulary

namespace Structure

theorem localProblems_perm : (localProblems p).Perm (localProblems q) := by
  have undefined_ : undefinedProblems p = undefinedProblems q := by
    funext c
    unfold undefinedProblems
    rw [same.contains]
  unfold localProblems
  rw [undefined_]
  exact same.tasks.flatMap_right _

theorem unreachedProblems_perm : (unreachedProblems p).Perm (unreachedProblems q) := by
  have found : reached p = reached q := by
    unfold reached
    rw [same.successors, same.starts, reach_eq_of_perm same.names]
  unfold unreachedProblems
  rw [found]
  exact (same.names.filter _).map _

theorem arrivals_reordered : arrivals p = arrivals q := by
  have behind : arrivalsBehind p = arrivalsBehind q := by
    funext a
    unfold arrivalsBehind forksBehind
    rw [same.isSplit, same.inCycle, same.successors, same.contains]
  have steps : step p = step q := by
    funext s
    unfold step
    rw [behind]
  have links : (p.tasks.names.flatMap p.successors).length =
      (q.tasks.names.flatMap q.successors).length := by
    rw [same.successors]
    exact (same.names.flatMap_right _).length_eq
  unfold arrivals maxSteps
  rw [links, same.size, same.starts, steps]

theorem ambiguousProblems_perm : (ambiguousProblems p).Perm (ambiguousProblems q) := by
  unfold ambiguousProblems
  rw [arrivals_reordered same, same.isJoin]
  exact (same.names.filter _).map _

/-- The inspection goes through the tasks in their order, so what it finds is in another order. -/
theorem problems_perm : (problems p).Perm (problems q) := by
  have empty : p.tasks.isEmpty = q.tasks.isEmpty := by
    unfold Table.isEmpty
    exact same.tasks.isEmpty_eq
  unfold problems
  rw [same.starts, empty]
  refine (localProblems_perm same).append ?_
  split
  · exact .rfl
  · exact (unreachedProblems_perm same).append (ambiguousProblems_perm same)

end Structure

end Inspection

open Workflow.Composition Workflow.Inspection

variable {p q : Plan}

/-- The order in which tasks are declared does not matter: both compositions come to the same failure or
the same graph, so to the same document, the same variables are found to be read before they are known,
in the same order, and the same is wrong with the structure, up to the order. -/
theorem compiled_alike (same : p.Reordered q) (limits : Limits) (r : Registry) :
    direct limits p = direct limits q ∧ expanded limits p = expanded limits q ∧
      Vocabulary.problems r p = Vocabulary.problems r q ∧
        (Structure.problems p).Perm (Structure.problems q) :=
  ⟨direct_reordered same limits, expanded_reordered same limits,
    Vocabulary.problems_reordered same r, Structure.problems_perm same⟩

/-- A fork that reads what one of the two branches publishes, and two tasks that lead to themselves
only. -/
def scattered : Definition where
  tasks := .ofList
    [("y", { next := [{ destinations := ["y"] }] }),
     ("b", { next := [Vocabulary.publishing "c"] }),
     ("x", { next := [{ destinations := ["x"] }] }),
     ("a", { next := [{ destinations := ["c"] }] }),
     ("c", Vocabulary.reader none [])]

/-- The same tasks, the last one first. -/
def gathered : Definition :=
  { scattered with tasks := ⟨scattered.tasks.entries.reverse, by decide⟩ }

/-- The structural problems do come in another order. -/
theorem scattered_compiled_alike :
    (Plan.ofDefinition scattered).Reordered (.ofDefinition gathered) ∧
      (direct {} (.ofDefinition scattered) = direct {} (.ofDefinition gathered) ∧
        expanded {} (.ofDefinition scattered) = expanded {} (.ofDefinition gathered) ∧
        Vocabulary.problems Vocabulary.percentOnly (.ofDefinition scattered) =
          Vocabulary.problems Vocabulary.percentOnly (.ofDefinition gathered) ∧
        (Structure.problems (.ofDefinition scattered)).Perm
          (Structure.problems (.ofDefinition gathered))) ∧
      Structure.problems (.ofDefinition scattered) ≠ Structure.problems (.ofDefinition gathered) := by
  have same : (Plan.ofDefinition scattered).Reordered (.ofDefinition gathered) :=
    Plan.reordered_ofDefinition scattered (List.reverse_perm _).symm
  refine ⟨same, compiled_alike same {} Vocabulary.percentOnly, ?_⟩
  have arrivals : Structure.arrivals (.ofDefinition scattered) = [("b", []), ("c", []), ("a", [])] :=
    Structure.arrivals_of_workOff (n := 20) (by cbv)
  -- Each inspection names the task first that its definition states first.
  have first : (Structure.problems (.ofDefinition scattered)).head?.map Diagnostic.specPath =
      some (some "tasks.y") := by
    unfold Structure.problems Structure.ambiguousProblems
    rw [arrivals]
    cbv
  have first' : (Structure.problems (.ofDefinition gathered)).head?.map Diagnostic.specPath =
      some (some "tasks.x") := by
    unfold Structure.problems Structure.ambiguousProblems
    rw [← Structure.arrivals_reordered same, arrivals]
    cbv
  intro equal
  rw [equal, first'] at first
  exact absurd first (by decide)

end Workflow
