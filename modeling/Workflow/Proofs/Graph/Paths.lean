import Mathlib.Data.List.Dedup
import Mathlib.Data.Set.Card
import Workflow.Proofs.Graph.Lookup

/-!
Paths from the roots of a graph to its tasks. Where several tasks lead to one, each transition into it
is a way of its own; where only one does, all transitions from it are one way. So the paths to a task
are as many as those to the tasks that these ways come from.
-/

namespace Workflow.Graph

variable {g : Graph} {t : String} {e : Edge}

/-- Do transitions from several tasks lead to this one? -/
def gathers (g : Graph) (t : String) : Bool :=
  1 < ((g.edges.filter fun e => e.destination == t).map Edge.source).eraseDups.length

structure PathStep where
  source : String
  destination : String
  /-- Which of the transitions between the two is taken, if this makes a difference. -/
  key : Option Nat
  deriving DecidableEq, Repr

/-- The step along a transition. Which one is taken makes a difference if several tasks lead to the
destination. -/
def stepAlong (g : Graph) (e : Edge) : PathStep :=
  ⟨e.source, e.destination, if g.gathers e.destination then some e.key else none⟩

/-- The paths from a root to a task, as the steps that they take. -/
inductive ForkPath (g : Graph) : String → List PathStep → Prop where
  | root {r : String} (first : r ∈ g.roots) : ForkPath g r []
  | follow {e : Edge} {path : List PathStep} (before : ForkPath g e.source path)
      (link : e ∈ g.edges) : ForkPath g e.destination (path ++ [g.stepAlong e])

def forkPaths (g : Graph) (t : String) : Set (List PathStep) :=
  {path | g.ForkPath t path}

theorem Sound.mem_ids_of_forkPath (sound : g.Sound) {path : List PathStep}
    (leads : g.ForkPath t path) : t ∈ g.ids := by
  cases leads with
  | root first => exact (mem_roots_iff.mp first).1
  | follow _ link => exact sound.destination_mem _ link

def stepsInto (g : Graph) (t : String) : List PathStep :=
  ((g.edges.filter fun e => e.destination == t).map g.stepAlong).dedup

theorem gathers_iff : g.gathers t = true ↔ ∃ a b, g.Adjacent a t ∧ g.Adjacent b t ∧ a ≠ b := by
  unfold gathers Adjacent
  rw [decide_eq_true_iff, one_lt_length_eraseDups_iff]
  simp only [List.mem_map, List.mem_filter, beq_iff_eq]
  constructor
  · rintro ⟨_, ⟨e, ⟨link, target⟩, rfl⟩, _, ⟨e', ⟨link', target'⟩, rfl⟩, differ⟩
    exact ⟨_, _, ⟨e, link, rfl, target⟩, ⟨e', link', rfl, target'⟩, differ⟩
  · rintro ⟨a, b, ⟨e, link, source, target⟩, ⟨e', link', source', target'⟩, differ⟩
    exact ⟨a, ⟨e, ⟨link, target⟩, source⟩, b, ⟨e', ⟨link', target'⟩, source'⟩, differ⟩

/-- Where transitions from several tasks do not lead, those that lead there come from one. -/
theorem source_eq_of_not_gathers (single : g.gathers t = false) {a b : String}
    (first : g.Adjacent a t) (second : g.Adjacent b t) : a = b := by
  by_contra differ
  rw [gathers_iff.mpr ⟨a, b, first, second, differ⟩] at single
  cases single

theorem mem_stepsInto_iff {a : PathStep} :
    a ∈ g.stepsInto t ↔ ∃ e ∈ g.edges, e.destination = t ∧ g.stepAlong e = a := by
  unfold stepsInto
  rw [List.mem_dedup]
  simp only [List.mem_map, List.mem_filter, beq_iff_eq, and_assoc]

theorem stepsInto_nodup (g : Graph) (t : String) : (g.stepsInto t).Nodup :=
  List.nodup_dedup _

/-- Into a task that several lead to there are as many steps as transitions. -/
theorem Sound.stepsInto_of_gathers (sound : g.Sound) (several : g.gathers t = true) :
    g.stepsInto t = (g.edges.filter fun e => e.destination == t).map g.stepAlong := by
  have apart : ((g.edges.filter fun e => e.destination == t).map g.stepAlong).Nodup := by
    refine List.Nodup.map_on ?_ (sound.edges_nodup.filter _)
    intro e inside e' inside' same
    simp only [List.mem_filter, beq_iff_eq] at inside inside'
    unfold stepAlong at same
    rw [inside.2, inside'.2, several] at same
    simp only [if_true, PathStep.mk.injEq, Option.some.injEq] at same
    exact sound.eq_of_key_eq inside.1 inside'.1 same.1 (inside.2.trans inside'.2.symm) same.2.2
  exact apart.dedup

/-- Into a task that one task leads to there is one step. -/
theorem stepsInto_of_not_gathers (single : g.gathers t = false) (link : e ∈ g.edges)
    (target : e.destination = t) : g.stepsInto t = [g.stepAlong e] := by
  refine List.perm_singleton.mp
    ((List.perm_ext_iff_of_nodup (stepsInto_nodup g t) (List.nodup_singleton _)).mpr fun a => ?_)
  rw [mem_stepsInto_iff, List.mem_singleton]
  constructor
  · rintro ⟨e', link', target', rfl⟩
    have source : e'.source = e.source :=
      source_eq_of_not_gathers single ⟨e', link', rfl, target'⟩ ⟨e, link, rfl, target⟩
    unfold stepAlong
    rw [source, target, target', single]
    simp
  · rintro rfl
    exact ⟨e, link, target, rfl⟩

/-- A path is empty at a root, or goes on from a path to the task before. -/
theorem forkPath_iff {path : List PathStep} :
    g.ForkPath t path ↔ t ∈ g.roots ∧ path = [] ∨
      ∃ a ∈ g.stepsInto t, ∃ before ∈ g.forkPaths a.source, path = before ++ [a] := by
  constructor
  · intro leads
    cases leads with
    | root first => exact .inl ⟨first, rfl⟩
    | @follow e before earlier link =>
      exact .inr ⟨_, mem_stepsInto_iff.mpr ⟨e, link, rfl, rfl⟩, before, earlier, rfl⟩
  · rintro (⟨first, rfl⟩ | ⟨a, step, before, earlier, rfl⟩)
    · exact .root first
    · obtain ⟨e, link, rfl, rfl⟩ := mem_stepsInto_iff.mp step
      exact .follow earlier link

/-- A root is the beginning of a path, and there is no other path to it. -/
theorem encard_forkPaths_of_root (first : t ∈ g.roots) : (g.forkPaths t).encard = 1 := by
  refine Set.encard_eq_one.mpr ⟨[], Set.eq_singleton_iff_unique_mem.mpr ⟨.root first, ?_⟩⟩
  intro path leads
  rcases forkPath_iff.mp leads with ⟨_, same⟩ | ⟨a, step, _⟩
  · exact same
  · obtain ⟨e, link, target, _⟩ := mem_stepsInto_iff.mp step
    exact absurd target ((mem_roots_iff.mp first).2 e link)

/-- Paths with different last steps are different, and so are those that differ before the last one. -/
theorem encard_paths_along {steps : List PathStep} (nodup : steps.Nodup)
    (paths : PathStep → Set (List PathStep)) :
    {path | ∃ a ∈ steps, ∃ before ∈ paths a, path = before ++ [a]}.encard =
      (steps.map fun a => (paths a).encard).sum := by
  induction steps with
  | nil => simp
  | cons a steps ih =>
    obtain ⟨fresh, nodup⟩ := List.nodup_cons.mp nodup
    have parts : {path | ∃ b ∈ a :: steps, ∃ before ∈ paths b, path = before ++ [b]} =
        (fun before => before ++ [a]) '' paths a ∪
          {path | ∃ b ∈ steps, ∃ before ∈ paths b, path = before ++ [b]} := by
      ext path
      simp only [Set.mem_ofPred_eq, List.exists_mem_cons_iff, Set.mem_union, Set.mem_image,
        eq_comm]
    have apart : Disjoint ((fun before => before ++ [a]) '' paths a)
        {path | ∃ b ∈ steps, ∃ before ∈ paths b, path = before ++ [b]} := by
      rw [Set.disjoint_left]
      rintro _ ⟨before, _, rfl⟩ ⟨b, later, before', _, same⟩
      obtain rfl := List.singleton_inj.mp (List.append_inj_right' same rfl)
      exact fresh later
    have images : ((fun before => before ++ [a]) '' paths a).encard = (paths a).encard :=
      (List.append_left_injective [a]).encard_image _
    rw [parts, Set.encard_union_eq apart, images, ih nodup, List.map_cons, List.sum_cons]

/-- A path to any other task comes along one of the steps that lead there. -/
theorem encard_forkPaths_of_not_root (later : t ∉ g.roots) :
    (g.forkPaths t).encard =
      ((g.stepsInto t).map fun a => (g.forkPaths a.source).encard).sum := by
  rw [← encard_paths_along (stepsInto_nodup g t) fun a => g.forkPaths a.source]
  congr 1
  ext path
  have cases_ : path ∈ g.forkPaths t ↔ _ := forkPath_iff
  simp only [cases_, later, false_and, false_or, Set.mem_ofPred_eq]

end Workflow.Graph
