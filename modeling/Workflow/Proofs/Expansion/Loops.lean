import Mathlib
import Workflow.Proofs.Expansion.Faithful

/-!
Loops of an expansion. No task on a loop is a fork, so along a loop the innermost instance stays the
same: a way around the loop, followed from a copy of a task, comes back to this very copy.
-/

namespace Workflow.Composition

open Workflow.Graph
open Direct (Composed)
open Workflow.Inspection.Structure (Clean clean_of_problems_eq_nil)

variable {p : Plan} {limits : Limits} {g x : Graph}

namespace Expansion

variable {s : State} {u : Node}

/-- The node has loops of its own: whatever is on a loop with its task has a copy that is on a loop with
the node, behind the same innermost instance. -/
def ClosesLoops (g x : Graph) (u : Node) : Prop :=
  ∀ d, Relation.TransGen g.Adjacent u.name d → Relation.TransGen g.Adjacent d u.name →
    ∃ w ∈ x.nodes, w.name = d ∧ lastNumber w.splits = lastNumber u.splits ∧
      Relation.TransGen x.Adjacent u.id w.id ∧ Relation.TransGen x.Adjacent w.id u.id

/-- A task on a cycle is no fork. -/
theorem not_fork_of_inCycle {t : String} (cycle : g.inCycle t = true) : forkAt g t = false := by
  unfold forkAt
  split
  next n inbound found _ =>
    unfold isFork
    rw [(mem_of_task found).2, cycle]
    simp
  next => rfl

/-- A way along the transitions of the expansion is a way along those that they repeat. -/
theorem Unfolded.transGen (unfolded : Unfolded g s) (inside : u ∈ s.graph.nodes) {b : String}
    (way : Relation.TransGen s.graph.Adjacent u.id b) {w : Node} (inside' : w ∈ s.graph.nodes)
    (id : w.id = b) : Relation.TransGen g.Adjacent u.name w.name := by
  induction way generalizing w with
  | single link =>
    rw [← id] at link
    exact .single (unfolded.adjacent inside inside' link).1
  | @tail c d _ link ih =>
    rw [← id] at link
    have ⟨e, known, source, _⟩ := link
    obtain ⟨m, between, id⟩ := mem_ids_iff.mp (unfolded.coherent.source_mem e known)
    have here : m.id = c := id.trans source
    rw [← here] at link
    exact (ih between here).tail (unfolded.adjacent between inside' link).1

/-- A way that comes back in the end can be followed from any copy of the task that it starts at, and
leads to a copy behind the same innermost instance. -/
theorem Unfolded.exists_along (unfolded : Unfolded g s) (clean : Clean p) (composed : Composed p g)
    (done : s.queue = []) (inside : u ∈ s.graph.nodes) {d : String}
    (way : Relation.TransGen g.Adjacent u.name d) (back : Relation.ReflTransGen g.Adjacent d u.name) :
    ∃ w ∈ s.graph.nodes, w.name = d ∧ lastNumber w.splits = lastNumber u.splits ∧
      Relation.TransGen s.graph.Adjacent u.id w.id := by
  have plain : ∀ {t}, Relation.TransGen g.Adjacent t t → forkAt g t = false := fun cycle =>
    not_fork_of_inCycle ((inCycle_iff_transGen composed.coherent.destination_mem).mpr cycle)
  induction way with
  | single link =>
    have level := plain (Relation.TransGen.tail' back link)
    obtain ⟨f, known, source, target⟩ := link
    obtain ⟨w, inside', name, same, leads⟩ :=
      unfolded.ways clean composed done inside known source
    rw [← target, ← name] at level
    exact ⟨w, inside', name.trans target, same level, .single leads.adjacent⟩
  | @tail c d before link ih =>
    have level := plain ((Relation.TransGen.trans_right back before).tail link)
    obtain ⟨m, between, rfl, number, way⟩ := ih (.head link back)
    obtain ⟨f, known, source, target⟩ := link
    obtain ⟨w, inside', name, same, leads⟩ :=
      unfolded.ways clean composed done between known source
    rw [← target, ← name] at level
    exact ⟨w, inside', name.trans target, (same level).trans number, way.tail leads.adjacent⟩

/-- In the end every node closes its loops. -/
theorem Unfolded.closesLoops (unfolded : Unfolded g s) (clean : Clean p) (composed : Composed p g)
    (done : s.queue = []) (inside : u ∈ s.graph.nodes) : ClosesLoops g s.graph u := by
  intro d way back
  obtain ⟨w, inside', rfl, number, there⟩ :=
    unfolded.exists_along clean composed done inside way back.to_reflTransGen
  obtain ⟨u', inside'', name, number', here⟩ :=
    unfolded.exists_along clean composed done inside' back way.to_reflTransGen
  obtain rfl : u' = u := unfolded.eq_of_name_eq inside'' inside name (number'.trans number)
  exact ⟨w, inside', rfl, number, there, here⟩

/-- A node is on a cycle just if its task is. -/
theorem Unfolded.inCycle_eq (unfolded : Unfolded g s) (clean : Clean p) (composed : Composed p g)
    (done : s.queue = []) (inside : u ∈ s.graph.nodes) :
    s.graph.inCycle u.id = g.inCycle u.name := by
  rw [Bool.eq_iff_iff, inCycle_iff_transGen unfolded.coherent.destination_mem,
    inCycle_iff_transGen composed.coherent.destination_mem]
  constructor
  · intro cycle
    exact unfolded.transGen inside cycle inside rfl
  · intro cycle
    obtain ⟨w, _, _, _, there, here⟩ :=
      unfolded.closesLoops clean composed done inside _ cycle cycle
    exact there.trans here

end Expansion

open Expansion

/-- In the expansion of a plan without complaints, a node can reach itself just if its task can in the
direct composition; every node closes loops of its own, and nodes of forks are on none. -/
theorem expanded_keepsLoops (clean : Inspection.Structure.problems p = [])
    (separated : Separated p.tasks.names) (expanded : expanded limits p = .ok x) :
    ∃ g, direct limits p = .ok g ∧ ∀ u ∈ x.nodes,
      x.inCycle u.id = g.inCycle u.name ∧ ClosesLoops g x u ∧
        (forkAt g u.name = true → x.inCycle u.id = false) := by
  have clean := clean_of_problems_eq_nil clean
  obtain ⟨g, s, composed_, composed, separated', run, done, rfl⟩ := expanded_ok separated expanded
  have unfolded := unfolded_of_runs separated' run
  refine ⟨g, composed_, fun u inside => ?_⟩
  have same := unfolded.inCycle_eq clean composed done inside
  refine ⟨same, unfolded.closesLoops clean composed done inside, fun fork => ?_⟩
  rw [same]
  by_contra cycle
  rw [not_fork_of_inCycle (Bool.not_eq_false _ ▸ cycle)] at fork
  cases fork

/-- A fork with a loop behind it, which a join is the head of. -/
def loopBehindFork : Plan :=
  .bare ⟨[("a", .leading ["c"] none), ("b", .leading ["c"] none), ("c", .leading ["l"] none),
    ("l", .leading ["m"] (some .all)), ("m", .leading ["l"] none)], by decide⟩

def loopBehindForkGraph : Graph where
  nodes := [⟨"a", "a", none, [], none⟩, ⟨"c", "c", none, [⟨"c", 0⟩], none⟩,
    ⟨"b", "b", none, [], none⟩, ⟨"l", "l", some .all, [⟨"c", 0⟩], none⟩,
    ⟨"m", "m", none, [⟨"c", 0⟩], none⟩]
  edges := [⟨"a", "c", 0, [], some 0⟩, ⟨"b", "c", 0, [], some 0⟩, ⟨"c", "l", 0, [], some 0⟩,
    ⟨"l", "m", 0, [], some 0⟩, ⟨"m", "l", 0, [], some 0⟩]

/-- Each of the two instances of the fork has a loop of its own behind it. -/
theorem loopBehindFork_keepsLoops : Inspection.Structure.problems loopBehindFork = [] ∧
    ∃ x, expanded {} loopBehindFork = .ok x ∧
      x.ids = ["a", "b", "c__1", "c__2", "l__1", "l__2", "m__1", "m__2"] ∧
        ∃ g, direct {} loopBehindFork = .ok g ∧ ∀ u ∈ x.nodes,
          x.inCycle u.id = g.inCycle u.name ∧ ClosesLoops g x u ∧
            (forkAt g u.name = true → x.inCycle u.id = false) := by
  have found : Inspection.Structure.arrivals loopBehindFork =
      [("b", []), ("m", ["c"]), ("l", ["c"]), ("c", []), ("a", [])] :=
    Inspection.Structure.arrivals_of_workOff (n := 20) (by cbv)
  have clean : Inspection.Structure.problems loopBehindFork = [] := by
    unfold Inspection.Structure.problems Inspection.Structure.ambiguousProblems
    rw [found]
    cbv
  have composed : direct {} loopBehindFork = .ok loopBehindForkGraph :=
    direct_of_workOff (n := 6) (by decide) (by cbv) (by cbv)
  have worked : (workOff (step loopBehindForkGraph {}) 11 (.start loopBehindForkGraph)).map
      (fun r => r.map fun s => s.graph.ids) =
        some (.ok ["a", "b", "c__1", "c__2", "l__1", "l__2", "m__1", "m__2"]) := by
    cbv
  obtain ⟨x, expanded, ids⟩ := exists_expanded_of_workOff Graph.ids composed worked
  exact ⟨clean, x, expanded, ids,
    expanded_keepsLoops clean (separated_of_not_mem (by decide)) expanded⟩

end Workflow.Composition
