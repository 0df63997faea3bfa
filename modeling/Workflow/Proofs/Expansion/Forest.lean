import Mathlib
import Workflow.Proofs.Expansion.Faithful
import Workflow.Proofs.Expansion.Instances
import Workflow.Proofs.Graph.Paths

/-!
Expansions of graphs without cycles and joins. Every task that several lead to is a fork there, so one
node leads to each node, and there are as many nodes for a task as there are paths to it: one path to a
root, as many as to the only task before a task, and for a fork one along each transition, after each
path to where the transition comes from.
-/

namespace Workflow.Composition

open Workflow.Graph

namespace Expansion

variable {logical : Graph} {limits : Limits} {final : State} {t : String} {u w : Node}
  {splits : List Split} {f e e' : Edge}

/-- The graph has neither cycles nor joins. -/
structure Branching (logical : Graph) : Prop where
  acyclic : ∀ t ∈ logical.ids, logical.inCycle t = false
  joinless : ∀ n ∈ logical.nodes, n.barrier = none

theorem Branching.not_tooEarly (branching : Branching logical) :
    tooEarly logical t splits = false := by
  unfold tooEarly
  split
  next n found => simp [branching.joinless n (mem_of_task found).1]
  next => rfl

/-- What several tasks lead to is a fork. -/
theorem Branching.forkAt_eq_gathers (branching : Branching logical) (known : t ∈ logical.ids) :
    forkAt logical t = logical.gathers t := by
  rw [Bool.eq_iff_iff, forkAt_iff_splitPoint, gathers_iff]
  constructor
  · exact SplitPoint.several
  · intro several
    obtain ⟨n, found, _⟩ := exists_task known
    exact ⟨⟨n, found, branching.joinless n (mem_of_task found).1⟩, several,
      branching.acyclic t known⟩

/-- The innermost numbers of the nodes that stand for a task. -/
def numbersOf (x : Graph) (t : String) : List (Option Nat) :=
  (x.nodes.filter fun u => u.name == t).map fun u => lastNumber u.splits

theorem length_numbersOf (x : Graph) (t : String) :
    (numbersOf x t).length = (instancesOf x t).length := by
  simp [numbersOf, instancesOf]

/-- The numbers of a task are the innermost numbers of its nodes. -/
theorem mem_numbersOf_iff {x : Graph} {k : Option Nat} :
    k ∈ numbersOf x t ↔ ∃ u ∈ x.nodes, u.name = t ∧ lastNumber u.splits = k := by
  simp [numbersOf, and_assoc]

/-- The nodes of one task differ in their innermost numbers, for these tell their ids. -/
theorem Unfolded.numbersOf_nodup {s : State} (unfolded : Unfolded logical s) (t : String) :
    (numbersOf s.graph t).Nodup := by
  refine List.Nodup.map_on ?_ (unfolded.coherent.unique.of_map.filter _)
  intro u inside w inside' number
  simp only [List.mem_filter, beq_iff_eq] at inside inside'
  exact unfolded.eq_of_name_eq inside.1 inside'.1 (inside.2.trans inside'.2.symm) number

namespace Finished

variable (finished : Finished logical limits final) (separated : Separated logical.ids)
  (branching : Branching logical)

include finished separated branching

/-- Each way out of a node was taken. -/
theorem exists_behind (inside : u ∈ final.graph.nodes) (link : f ∈ logical.edges)
    (source : f.source = u.name) :
    ∃ w ∈ final.graph.nodes, w.name = f.destination ∧
      (forkAt logical w.name = false → lastNumber w.splits = lastNumber u.splits) := by
  obtain ⟨splits, _, _, ways⟩ := (finished.unfolded separated).left u inside
  rcases ways f link source with waiting | early | ⟨w, inside', name, level, _⟩
  · rw [finished.done] at waiting
    cases waiting
  · rw [branching.not_tooEarly] at early
    cases early
  · exact ⟨w, inside', name, level⟩

/-- One node stands for a root. -/
theorem length_instancesOf_of_root (first : t ∈ logical.roots) :
    (instancesOf final.graph t).length = 1 := by
  have unfolded := finished.unfolded separated
  have outer : numbersOf final.graph t = [none] := by
    refine List.perm_singleton.mp ((List.perm_ext_iff_of_nodup (unfolded.numbersOf_nodup t)
      (List.nodup_singleton _)).mpr fun k => ?_)
    rw [mem_numbersOf_iff, List.mem_singleton]
    constructor
    · rintro ⟨u, inside, rfl, rfl⟩
      rw [(unfolded.nodes u inside).outer first]
      rfl
    · rintro rfl
      rcases unfolded.roots t first with waiting | early | ⟨u, inside, name, outer⟩
      · rw [finished.done] at waiting
        cases waiting
      · rw [branching.not_tooEarly] at early
        cases early
      · exact ⟨u, inside, name, by rw [outer]; rfl⟩
  rw [← length_numbersOf, outer]
  rfl

/-- As many nodes stand for a task that one task leads to as for that one. -/
theorem length_instancesOf_of_not_gathers (sound : logical.Sound)
    (single : logical.gathers f.destination = false) (link : f ∈ logical.edges) :
    (instancesOf final.graph f.destination).length = (instancesOf final.graph f.source).length := by
  have unfolded := finished.unfolded separated
  have plain : forkAt logical f.destination = false :=
    (branching.forkAt_eq_gathers (sound.destination_mem f link)).trans single
  have perm : (numbersOf final.graph f.destination).Perm (numbersOf final.graph f.source) := by
    refine (List.perm_ext_iff_of_nodup (unfolded.numbersOf_nodup _)
      (unfolded.numbersOf_nodup _)).mpr fun k => ?_
    simp only [mem_numbersOf_iff]
    constructor
    · rintro ⟨w, inside, name, rfl⟩
      rcases unfolded.led w inside with first | ⟨a, adjacent⟩
      · exact absurd name.symm ((mem_roots_iff.mp first).2 f link)
      · obtain ⟨u, inside', rfl⟩ : ∃ u ∈ final.graph.nodes, u.id = a := by
          obtain ⟨e, known, source, _⟩ := adjacent
          exact mem_ids_iff.mp (source ▸ unfolded.coherent.source_mem e known)
        obtain ⟨before, level⟩ := unfolded.adjacent inside' inside adjacent
        rw [name] at before level
        exact ⟨u, inside', source_eq_of_not_gathers single before ⟨f, link, rfl, rfl⟩, level plain⟩
    · rintro ⟨u, inside, name, rfl⟩
      obtain ⟨w, inside', name', level⟩ :=
        finished.exists_behind separated branching inside link name.symm
      rw [name'] at level
      exact ⟨w, inside', name', level plain⟩
  rw [← length_numbersOf, perm.length_eq, length_numbersOf]

/-- For any task but a root, as many nodes stand as for the sources of the steps that lead to it. -/
theorem length_instancesOf_of_not_root (sound : logical.Sound) (known : t ∈ logical.ids)
    (later : t ∉ logical.roots) :
    (instancesOf final.graph t).length =
      ((logical.stepsInto t).map fun a => (instancesOf final.graph a.source).length).sum := by
  cases several : logical.gathers t with
  | true =>
    have fork : forkAt logical t = true :=
      (branching.forkAt_eq_gathers known).trans several
    rw [finished.instancesOf_fork separated fork, sound.stepsInto_of_gathers several]
    simp [arrivalsAt, stepAlong, Function.comp_def]
  | false =>
    obtain ⟨f, link, rfl⟩ : ∃ f ∈ logical.edges, f.destination = t := by
      simpa [mem_roots_iff, known] using later
    rw [finished.length_instancesOf_of_not_gathers separated branching sound several link,
      stepsInto_of_not_gathers several link rfl]
    simp [stepAlong]

/-- One path of the graph leads to a task for each node that stands for it. -/
theorem encard_forkPaths (sound : logical.Sound) (known : t ∈ logical.ids) :
    (logical.forkPaths t).encard = (instancesOf final.graph t).length := by
  have acyclic : ∀ t ∈ logical.ids, ¬Relation.TransGen logical.Adjacent t t := by
    intro t known cycle
    have none_ := branching.acyclic t known
    rw [(inCycle_iff_transGen sound.destination_mem).mpr cycle] at none_
    cases none_
  refine acyclic_induction acyclic (fun t known ih => ?_) known
  by_cases first : t ∈ logical.roots
  · rw [encard_forkPaths_of_root first,
      finished.length_instancesOf_of_root separated branching first, Nat.cast_one]
  · have before : ∀ a ∈ logical.stepsInto t, (logical.forkPaths a.source).encard =
        ((instancesOf final.graph a.source).length : ℕ∞) := by
      intro a step
      obtain ⟨e, link, target, rfl⟩ := mem_stepsInto_iff.mp step
      exact ih e.source (sound.source_mem e link) ⟨e, link, rfl, target⟩
    rw [encard_forkPaths_of_not_root first, List.map_congr_left before,
      finished.length_instancesOf_of_not_root separated branching sound known first,
      Nat.cast_list_sum, List.map_map]
    rfl

/-- The transitions into one node come from one node. -/
theorem source_eq_of_destination_eq (link : e ∈ final.graph.edges)
    (link' : e' ∈ final.graph.edges) (target : e.destination = e'.destination) :
    e.source = e'.source := by
  have unfolded := finished.unfolded separated
  obtain ⟨f, known, u, inside, w, inside', repeats⟩ := unfolded.edges e link
  obtain ⟨f', known', u', inside'', w', inside''', repeats'⟩ := unfolded.edges e' link'
  have id : w'.id = w.id :=
    repeats'.destination.2.symm.trans (target.symm.trans repeats.destination.2)
  obtain rfl := Graph.eq_of_id_eq unfolded.coherent.unique inside''' inside' id
  have defined : w'.name ∈ logical.ids := (unfolded.nodes w' inside').copied.mem
  cases fork : forkAt logical w'.name with
  | true =>
    have numbered := numbered_of_runs separated finished.run
    exact congrArg Edge.source (numbered.single w' inside' fork e link e' link'
      repeats.destination.2 repeats'.destination.2)
  | false =>
    have single : logical.gathers w'.name = false :=
      (branching.forkAt_eq_gathers defined).symm.trans fork
    have name : u.name = u'.name :=
      source_eq_of_not_gathers single ⟨f, known, repeats.source.1, repeats.destination.1⟩
        ⟨f', known', repeats'.source.1, repeats'.destination.1⟩
    have number : lastNumber u.splits = lastNumber u'.splits :=
      (repeats.level fork).trans (repeats'.level fork).symm
    obtain rfl := unfolded.eq_of_name_eq inside inside'' name number
    exact repeats.source.2.trans repeats'.source.2.symm

end Finished

end Expansion

open Expansion

/-- The graph `x` is the forest of the paths of `logical`: one node leads to each node, the nodes of one
task are behind different forks, and they are as many as the paths to the task. -/
structure ForestOfPaths (logical x : Graph) : Prop where
  single : ∀ e ∈ x.edges, ∀ e' ∈ x.edges, e.destination = e'.destination → e.source = e'.source
  apart : ∀ u ∈ x.nodes, ∀ w ∈ x.nodes, u.name = w.name → u.splits = w.splits → u = w
  paths : ∀ t, (logical.forkPaths t).encard = (instancesOf x t).length

variable {logical x : Graph} {limits : Limits}

/-- In a graph without cycles and joins nothing is shared: the expansion has one node for each path.
-/
theorem expand_forestOfPaths (sound : logical.Sound) (separated : Separated logical.ids)
    (branching : Branching logical) (expanded : expand limits logical = .ok x) :
    ForestOfPaths logical x := by
  obtain ⟨final, run, done, rfl⟩ := expand_ok expanded
  have finished : Finished logical limits final := ⟨run, done⟩
  have unfolded := finished.unfolded separated
  refine ⟨?_, ?_, ?_⟩
  · intro e link e' link' target
    exact finished.source_eq_of_destination_eq separated branching link link' target
  · intro u inside w inside' name behind
    exact unfolded.eq_of_name_eq inside inside' name (congrArg lastNumber behind)
  · intro t
    by_cases known : t ∈ logical.ids
    · exact finished.encard_forkPaths separated branching sound known
    · have nobody : instancesOf final.graph t = [] := by
        unfold instancesOf
        rw [List.map_eq_nil_iff, List.filter_eq_nil_iff]
        intro u inside named
        rw [beq_iff_eq] at named
        exact known (named ▸ (unfolded.nodes u inside).copied.mem)
      have nowhere : logical.forkPaths t = ∅ :=
        Set.eq_empty_of_forall_notMem fun _ leads => known (sound.mem_ids_of_forkPath leads)
      rw [nobody, nowhere]
      simp

theorem forkBehindFork_forestOfPaths : forkBehindFork.Sound ∧ Separated forkBehindFork.ids ∧
    Branching forkBehindFork ∧ ∃ x, expand {} forkBehindFork = .ok x ∧
      instancesOf x "f" = ["f__1", "f__2", "f__3", "f__4", "f__5", "f__6"] ∧
        ForestOfPaths forkBehindFork x := by
  have sound : forkBehindFork.Sound := by
    refine ⟨?_, ?_, ?_, ?_⟩ <;> decide
  have branching : Branching forkBehindFork := by
    have acyclic : (forkBehindFork.ids.all fun t => !forkBehindFork.inCycle t) = true := by
      cbv
    exact ⟨by simpa using acyclic, by decide⟩
  obtain ⟨x, expanded, ids⟩ := forkBehindFork_instances
  exact ⟨sound, forkBehindFork_separated, branching, x, expanded, ids,
    expand_forestOfPaths sound forkBehindFork_separated branching expanded⟩

end Workflow.Composition
