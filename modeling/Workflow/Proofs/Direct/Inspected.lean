import Mathlib
import Workflow.Proofs.Direct.Composed
import Workflow.Proofs.Expansion.Agreement

/-!
What the inspection of the structure says about the direct composition. The two walk through a plan on
their own, the one by tasks and the other one by tasks behind forks, but they come to the same tasks,
and whatever makes a composition fail is reported.
-/

namespace Workflow

namespace Inspection.Structure

variable {p : Plan} {t : String} {e : Diagnostic}

def undefinedTask (name path : String) : Diagnostic :=
  problem ("The task \"" ++ name ++ "\" is not defined.") path
    (taskSchema ++ ".properties.next.items.properties.do")

def noStart : Diagnostic :=
  problem "Unable to identify start tasks. The workflow may be a cycle with no entry point."
    "tasks" "properties.tasks"

def unreachedTask (name : String) : Diagnostic :=
  taskProblem ("The task \"" ++ name ++ "\" is not reachable from any start task.") name

theorem mem_undefinedProblems_iff {c : Plan.Clause} :
    e ∈ undefinedProblems p c ↔
      ∃ d ∈ c.destinations, isReserved d = false ∧ d ∉ p.tasks.names ∧
        e = undefinedTask d (c.path ++ ".do") := by
  have missing : ∀ d, (!p.tasks.contains d) = true ↔ d ∉ p.tasks.names := by
    intro d
    rw [Bool.not_eq_true', ← Bool.not_eq_true, Table.contains_iff]
  unfold undefinedProblems undefinedTask
  simp only [List.mem_map, List.mem_filter, Bool.and_eq_true, missing, Bool.not_eq_true']
  constructor
  · rintro ⟨d, ⟨destination, plain, nowhere⟩, rfl⟩
    exact ⟨d, destination, plain, nowhere, rfl⟩
  · rintro ⟨d, destination, plain, nowhere, rfl⟩
    exact ⟨d, ⟨destination, plain, nowhere⟩, rfl⟩

/-- The problems that are looked for task by task: reserved names and undefined destinations. -/
theorem mem_localProblems_iff :
    e ∈ localProblems p ↔ ∃ name task, p.tasks.get? name = some task ∧
      (e ∈ reservedProblems name ∨ ∃ c ∈ task.clauses, e ∈ undefinedProblems p c) := by
  unfold localProblems
  simp [Table.get?_eq_some_iff]

/-- A problem with a single task is the name of a command, or a destination that is not defined. -/
theorem message_of_mem_localProblems (inside : e ∈ localProblems p) :
    (∃ n, e.message = "The task name \"" ++ n ++ "\" is reserved with special function.") ∨
      ∃ n, e.message = "The task \"" ++ n ++ "\" is not defined." := by
  obtain ⟨name, task, _, reserved | ⟨c, _, undefined⟩⟩ := mem_localProblems_iff.mp inside
  · unfold reservedProblems at reserved
    split at reserved
    next =>
      rw [List.mem_singleton.mp reserved]
      exact .inl ⟨name, rfl⟩
    next => cases reserved
  · obtain ⟨d, _, _, _, rfl⟩ := mem_undefinedProblems_iff.mp undefined
    exact .inr ⟨d, rfl⟩

theorem mem_unreachedProblems_iff :
    e ∈ unreachedProblems p ↔ ∃ t ∈ p.tasks.names, t ∉ reached p ∧ e = unreachedTask t := by
  unfold unreachedProblems unreachedTask
  simp only [List.mem_map, List.mem_filter, Bool.not_eq_true', List.contains_eq_mem,
    decide_eq_false_iff_not]
  constructor
  · rintro ⟨t, ⟨known, missed⟩, rfl⟩
    exact ⟨t, known, missed, rfl⟩
  · rintro ⟨t, known, missed, rfl⟩
    exact ⟨t, ⟨known, missed⟩, rfl⟩

/-- The report of a join that is reached behind different forks. -/
theorem message_of_mem_ambiguousProblems (inside : e ∈ ambiguousProblems p) :
    ∃ rest, e.message = "The join task \"" ++ rest := by
  obtain ⟨name, _, rfl⟩ := List.mem_map.mp inside
  unfold taskProblem problem
  simp only [String.append_assoc]
  exact ⟨_, rfl⟩

/-- What the inspection of the structure finds, part by part. -/
theorem mem_problems_iff (some_ : p.tasks.isEmpty = false) :
    e ∈ problems p ↔ e ∈ localProblems p ∨ p.starts = [] ∧ e = noStart ∨
      p.starts ≠ [] ∧ (e ∈ unreachedProblems p ∨ e ∈ ambiguousProblems p) := by
  unfold problems
  rw [List.mem_append, some_]
  cases starts : p.starts with
  | nil => simp [noStart]
  | cons t ts => simp

/-- The start tasks are missed just if there are none. -/
theorem noStart_mem_iff (some_ : p.tasks.isEmpty = false) :
    noStart ∈ problems p ↔ p.starts = [] := by
  rw [mem_problems_iff some_]
  constructor
  · rintro (single | ⟨none_, _⟩ | ⟨_, unreached | ambiguous⟩)
    · rcases message_of_mem_localProblems single with ⟨n, same⟩ | ⟨n, same⟩
      · have first := congrArg (fun s => s.toList[0]?) same
        simp [noStart, problem] at first
      · have first := congrArg (fun s => s.toList[0]?) same
        simp [noStart, problem] at first
    · exact none_
    · obtain ⟨t, _, _, same⟩ := mem_unreachedProblems_iff.mp unreached
      have first := congrArg (fun e => e.message.toList[0]?) same
      simp [noStart, unreachedTask, taskProblem, problem] at first
    · obtain ⟨rest, same⟩ := message_of_mem_ambiguousProblems ambiguous
      have first := congrArg (fun s => s.toList[0]?) same
      simp [noStart, problem] at first
  · exact fun none_ => .inr (.inl ⟨none_, rfl⟩)

/-- A task is reported as not reached just if there are start tasks, but none leads to it. -/
theorem unreachedTask_mem_iff (some_ : p.tasks.isEmpty = false) :
    unreachedTask t ∈ problems p ↔ p.starts ≠ [] ∧ t ∈ p.tasks.names ∧ t ∉ reached p := by
  rw [mem_problems_iff some_]
  constructor
  · rintro (single | ⟨_, same⟩ | ⟨begins, unreached | ambiguous⟩)
    · rcases message_of_mem_localProblems single with ⟨n, same⟩ | ⟨n, same⟩
      · have ninth := congrArg (fun s => s.toList[9]?) same
        simp [unreachedTask, taskProblem, problem] at ninth
      · have last := congrArg (fun s => s.toList.reverse[1]?) same
        simp [unreachedTask, taskProblem, problem] at last
    · have first := congrArg (fun e => e.message.toList[0]?) same
      simp [noStart, unreachedTask, taskProblem, problem] at first
    · obtain ⟨t', known, missed, same⟩ := mem_unreachedProblems_iff.mp unreached
      have equal : t = t' := by
        simpa [unreachedTask, taskProblem, problem] using congrArg Diagnostic.message same
      rw [equal]
      exact ⟨begins, known, missed⟩
    · obtain ⟨rest, same⟩ := message_of_mem_ambiguousProblems ambiguous
      have fourth := congrArg (fun s => s.toList[4]?) same
      simp [unreachedTask, taskProblem, problem] at fourth
  · rintro ⟨begins, known, missed⟩
    exact .inr (.inr ⟨begins, .inl (mem_unreachedProblems_iff.mpr ⟨t, known, missed, rfl⟩)⟩)

/-- The tasks that are reached are those that the network arrives at. -/
theorem mem_reached_iff : t ∈ reached p ↔ ∃ σ, p.network.Arrives t σ := by
  refine ⟨exists_arrives_of_reached, ?_⟩
  rintro ⟨σ, arrives⟩
  have known := arrives.mem p.network_among
  unfold reached
  rw [mem_reach_iff]
  induction arrives with
  | start first => exact .start known first
  | follow before link ih => exact .follow (ih (before.mem p.network_among)) link

end Inspection.Structure

namespace Composition

open Workflow.Graph
open Inspection.Structure

variable {p : Plan} {limits : Limits} {g : Graph} {t d : String} {l : Plan.Link}

/-- A link to nowhere is reported where its clause stands. -/
theorem undefinedTask_mem (link : l ∈ p.next t) (plain : isReserved l.task = false)
    (nowhere : l.task ∉ p.tasks.names) :
    ∃ task, p.tasks.get? t = some task ∧ ∃ c ∈ task.clauses, l.task ∈ c.destinations ∧
      undefinedTask l.task (c.path ++ ".do") ∈ problems p := by
  obtain ⟨task, found, c, clause, within⟩ := Plan.mem_next_iff.mp link
  have destination := (Plan.mem_links_iff.mp within).1
  have reported : undefinedTask l.task (c.path ++ ".do") ∈ undefinedProblems p c :=
    mem_undefinedProblems_iff.mpr ⟨l.task, destination, plain, nowhere, rfl⟩
  have single : undefinedTask l.task (c.path ++ ".do") ∈ localProblems p :=
    mem_localProblems_iff.mpr ⟨t, task, found, .inr ⟨c, clause, reported⟩⟩
  exact ⟨task, found, c, clause, destination, List.mem_append_left _ single⟩

/-- The direct composition and the inspection of the structure agree on what is reached and on links to
nowhere. -/
structure Agree (limits : Limits) (p : Plan) : Prop where
  noStart : direct limits p = .error .noStartTasks ↔ noStart ∈ problems p
  unknown : ∀ d t, direct limits p = .error (.unknownTask d t) →
    ∃ task, p.tasks.get? t = some task ∧ ∃ c ∈ task.clauses, d ∈ c.destinations ∧
      undefinedTask d (c.path ++ ".do") ∈ problems p
  succeeds : (∀ d path, undefinedTask d path ∉ problems p) → p.starts ≠ [] →
    ∃ g, direct limits p = .ok g
  unreached : ∀ g, direct limits p = .ok g →
    ∀ t, unreachedTask t ∈ problems p ↔ t ∈ p.tasks.names ∧ t ∉ g.ids

/-- Both look at the same links from the same starts, so they reach the same tasks. -/
theorem direct_agrees (some_ : p.tasks.isEmpty = false)
    (unreserved : ∀ t ∈ p.tasks.names, isReserved t = false)
    (within : ∀ bound max, direct limits p ≠ .error (.limitExceeded bound max)) :
    Agree limits p := by
  rcases direct_outcome limits p with
    ⟨b, beyond⟩ | ⟨none_, failed⟩ | ⟨begins, s, l, link, plain, nowhere, failed⟩ | ⟨begins, g, composed⟩
  · exact absurd beyond (within b _)
  · refine ⟨?_, fun d t other => ?_, fun _ begins => absurd none_ begins, fun g other => ?_⟩
    · simp [failed, noStart_mem_iff some_, none_]
    · rw [failed] at other
      cases other
    · rw [failed] at other
      cases other
  · have reported := undefinedTask_mem link plain nowhere
    refine ⟨?_, fun d t other => ?_, fun none_ _ => ?_, fun g other => ?_⟩
    · simp [failed, noStart_mem_iff some_, begins]
    · rw [failed] at other
      cases other
      exact reported
    · obtain ⟨_, _, c, _, _, inside⟩ := reported
      exact absurd inside (none_ _ _)
    · rw [failed] at other
      cases other
  · refine ⟨?_, fun d t other => ?_, fun _ _ => ⟨g, composed⟩, fun g' same t => ?_⟩
    · simp [composed, noStart_mem_iff some_, begins]
    · rw [composed] at other
      cases other
    · cases composed.symm.trans same
      have ids := (composed_of_direct composed).mem_ids_iff unreserved (t := t)
      rw [unreachedTask_mem_iff some_, mem_reached_iff, ids, and_iff_right begins]

/-- A loop beside a task that is reached, which no start task leads to. -/
def loopBeside : Plan :=
  .bare ⟨[("a", .leading ["b", "noop"] none), ("b", .leading [] none),
    ("l", .leading ["l", "b"] none)], by decide⟩

theorem loopBeside_agrees :
    loopBeside.tasks.isEmpty = false ∧ (∀ t ∈ loopBeside.tasks.names, isReserved t = false) ∧
      (∀ bound max, direct {} loopBeside ≠ .error (.limitExceeded bound max)) ∧
        Agree {} loopBeside ∧ unreachedTask "l" ∈ problems loopBeside := by
  have composed : direct {} loopBeside = .ok
      ⟨[.ofId "a", { Node.ofId "b" with splits := [⟨"b", 0⟩] }], [⟨"a", "b", 0, [], some 0⟩]⟩ :=
    direct_of_workOff (n := 3) (by decide) (by cbv) (by cbv)
  have unreserved : ∀ t ∈ loopBeside.tasks.names, isReserved t = false := by decide
  have within : ∀ bound max, direct {} loopBeside ≠ .error (.limitExceeded bound max) := by
    intro bound max failed
    cases composed.symm.trans failed
  have agree : Agree {} loopBeside := direct_agrees rfl unreserved within
  exact ⟨rfl, unreserved, within, agree, (agree.unreached _ composed "l").mpr (by decide)⟩

end Composition

end Workflow
