import Workflow.Proofs.Expansion.Unsplit
import Workflow.Proofs.Plan.Chains

/-!
The two tests for cycles. One searches the links of a plan, and the other one the transitions of a graph;
both find exactly the tasks from which a way leads back. Without tasks that have the names of commands,
links and transitions lead the same ways from the nodes of a direct composition, so there the tests agree
(`cycle_tests_agree`).
-/

namespace Workflow

namespace Graph

variable {g : Graph} {t : String} {connects : String → String → Bool}

/-- The test tells whether transitions lead from one node to another, in any number of steps. -/
def DecidesPaths (g : Graph) (connects : String → String → Bool) : Prop :=
  ∀ a ∈ g.ids, ∀ b ∈ g.ids, connects a b = true ↔ Relation.ReflTransGen g.Adjacent a b

/-- By a test for paths: does a transition lead from the task to itself, or to a task with a path to it? -/
def comesBack (connects : String → String → Bool) (g : Graph) (t : String) : Bool :=
  g.contains t && (g.successors t).any fun u => u == t || connects u t

theorem Coherent.mem_ids_of_adjacent (coherent : g.Coherent) {a b : String} (link : g.Adjacent a b) :
    a ∈ g.ids ∧ b ∈ g.ids := by
  obtain ⟨e, edge, rfl, rfl⟩ := link
  exact ⟨coherent.source_mem e edge, coherent.destination_mem e edge⟩

/-- The test by paths finds the cycles, whatever decides whether there is a path. -/
theorem Coherent.comesBack_iff (coherent : g.Coherent) (decides : g.DecidesPaths connects) :
    g.comesBack connects t = true ↔ Relation.TransGen g.Adjacent t t := by
  unfold comesBack
  simp only [Bool.and_eq_true, List.any_eq_true, Bool.or_eq_true, beq_iff_eq, contains_iff,
    mem_successors_iff]
  constructor
  · rintro ⟨known, u, link, rfl | path⟩
    · exact .single link
    · have known' := (coherent.mem_ids_of_adjacent link).2
      exact .head' link ((decides u known' t known).mp path)
  · intro way
    obtain ⟨u, link, path⟩ := Relation.TransGen.head'_iff.mp way
    obtain ⟨known, known'⟩ := coherent.mem_ids_of_adjacent link
    exact ⟨known, u, link, .inr ((decides u known' t known).mpr path)⟩

/-- By a search: do transitions lead from one node to another, in any number of steps? -/
def hasPath (g : Graph) (a b : String) : Bool :=
  (reach g.successors g.ids [a]).contains b

theorem Coherent.hasPath_decidesPaths (coherent : g.Coherent) : g.DecidesPaths g.hasPath := by
  rintro a known b -
  unfold hasPath
  rw [List.contains_iff_mem, mem_reach_iff]
  constructor
  · intro reached
    induction reached with
    | start _ asked => rw [List.mem_singleton.mp asked]
    | follow _ step ih => exact ih.tail (mem_successors_iff.mp step.1)
  · intro path
    induction path with
    | refl => exact .start known (List.mem_singleton_self a)
    | tail _ link ih =>
      exact ih.follow ⟨mem_successors_iff.mpr link, (coherent.mem_ids_of_adjacent link).2⟩

end Graph

namespace Composition

open Workflow.Graph
open Direct (Composed)

variable {p : Plan} {g : Graph} {t : String}

/-- From a node of the composed graph, transitions lead back just if links do. -/
theorem Direct.Composed.transGen_iff (composed : Composed p g)
    (unreserved : ∀ t ∈ p.tasks.names, isReserved t = false) (known : t ∈ g.ids) :
    Relation.TransGen g.Adjacent t t ↔ p.inCycle t = true := by
  rw [Plan.inCycle_iff]
  constructor
  · exact fun way => way.lift id fun _ _ => composed.leads_of_adjacent
  · exact fun way => (composed.transGen unreserved known way).1

/-- A task of a plan is found to be on a cycle just if links lead from it back to it. On the nodes of its
direct composition, the tests by the transitions find the same, if no task has the name of a command. -/
theorem cycle_tests_agree (p : Plan) :
    (∀ t, p.inCycle t = true ↔ Relation.TransGen (fun a b => b ∈ p.successors a) t t) ∧
    ∀ limits g, direct limits p = .ok g → (∀ t ∈ p.tasks.names, isReserved t = false) →
      ∀ t ∈ g.ids, g.inCycle t = p.inCycle t ∧
        ∀ connects, g.DecidesPaths connects → g.comesBack connects t = p.inCycle t := by
  refine ⟨fun t => Plan.inCycle_iff_transGen, fun limits g ok unreserved t known => ?_⟩
  have composed := composed_of_direct ok
  have same := composed.transGen_iff unreserved known
  constructor
  · rw [Bool.eq_iff_iff, inCycle_iff_transGen composed.coherent.destination_mem, same]
  · intro connects decides
    rw [Bool.eq_iff_iff, composed.coherent.comesBack_iff decides, same]

/-- A loop with a way in and a way out, and another one that is not reached, from where links lead to the
first one and to nowhere. -/
def twoLoops : Plan :=
  Plan.bare (.ofList
    [("a", .leading ["b"] none), ("b", .leading ["a", "done", "noop"] none), ("done", .leading [] none),
      ("prep", .leading ["a"] none), ("x", .leading ["b", "lost", "x"] none)])

def twoLoopsGraph : Graph where
  nodes := [.ofId "prep", .ofId "a", .ofId "b", .ofId "done"]
  edges := [⟨"prep", "a", 0, [], some 0⟩, ⟨"a", "b", 0, [], some 0⟩, ⟨"b", "a", 0, [], some 0⟩,
    ⟨"b", "done", 0, [], some 0⟩]

theorem twoLoops_tests_agree :
    direct {} twoLoops = .ok twoLoopsGraph ∧ (∀ t ∈ twoLoops.tasks.names, isReserved t = false) ∧
      twoLoops.tasks.names.filter twoLoops.inCycle = ["a", "b", "x"] ∧
      "b" ∈ twoLoopsGraph.ids ∧ twoLoopsGraph.DecidesPaths twoLoopsGraph.hasPath ∧
      twoLoopsGraph.inCycle "b" = twoLoops.inCycle "b" ∧
      twoLoopsGraph.comesBack twoLoopsGraph.hasPath "b" = twoLoops.inCycle "b" := by
  have composed : direct {} twoLoops = .ok twoLoopsGraph :=
    direct_of_workOff (n := 9) (by decide) (by cbv) (by cbv)
  have unreserved : ∀ t ∈ twoLoops.tasks.names, isReserved t = false := by decide
  have decides := (composed_of_direct composed).coherent.hasPath_decidesPaths
  have known : "b" ∈ twoLoopsGraph.ids := by decide
  obtain ⟨same, byPaths⟩ :=
    (cycle_tests_agree twoLoops).2 {} twoLoopsGraph composed unreserved "b" known
  exact ⟨composed, unreserved, by cbv, known, decides, same, byPaths _ decides⟩

end Composition

end Workflow
