import Mathlib.Data.List.Induction
import Workflow.Proofs.Graph.Session

/-!
Transitions between the same nodes with the same criteria are merged when they are added. New criteria
of a transition are not compared with those of the others: this is the one way to get two of a kind.
-/

namespace Workflow.Graph

variable {g g' : Graph}

/-- What is merged: transitions with these ends and criteria. -/
def Edge.sense (e : Edge) : String × String × List String :=
  (e.source, e.destination, e.criteria)

theorem Edge.sense_eq_iff {a b : Edge} :
    a.sense = b.sense ↔
      a.source = b.source ∧ a.destination = b.destination ∧ a.criteria = b.criteria := by
  simp [Edge.sense]

/-- No two transitions have the same ends and the same criteria. -/
def Merged (g : Graph) : Prop :=
  (g.edges.map Edge.sense).Nodup

instance (g : Graph) : Decidable g.Merged :=
  inferInstanceAs (Decidable (List.Nodup _))

/-- The operation gives a transition the criteria of another one between the same nodes. -/
def Operation.Repeats (g : Graph) : Operation → Prop
  | .updateTransition source destination key criteria _ =>
    (∃ e ∈ g.between source destination, e.key = key) ∧
      ∃ e ∈ g.between source destination, e.key ≠ key ∧ e.criteria = criteria
  | _ => False

/-- New criteria for a transition that is there never fail. -/
theorem Sound.updateTransition_ok (sound : g.Sound) {source destination : String} {e : Edge}
    (there : e ∈ g.between source destination) (criteria : List String) (ordinal : Option Nat) :
    ∃ g', g.updateTransition source destination e.key criteria ordinal = .ok g' := by
  obtain ⟨inside, origin, target⟩ := mem_between.mp there
  have known : g.contains source = true :=
    contains_iff.mpr (origin ▸ sound.source_mem e inside)
  have known' : g.contains destination = true :=
    contains_iff.mpr (target ▸ sound.destination_mem e inside)
  have found : ((g.between source destination).any fun f => f.key == e.key) = true :=
    List.any_eq_true.mpr ⟨e, there, beq_self_eq_true e.key⟩
  unfold updateTransition
  rw [known, known', found]
  exact ⟨_, rfl⟩

theorem Merged.eq_of_sense_eq (merged : g.Merged) {a b : Edge} (first : a ∈ g.edges)
    (second : b ∈ g.edges) (same : a.sense = b.sense) : a = b :=
  List.inj_on_of_nodup_map merged first second same

/-- The sense of a transition `f` when `e` is given new criteria. -/
def Edge.senseAfter (e : Edge) (criteria : List String) (f : Edge) : String × String × List String :=
  if f.identity = e.identity then (e.source, e.destination, criteria) else f.sense

theorem Edge.senseAfter_same {e f : Edge} {criteria : List String} (hit : f.identity = e.identity) :
    e.senseAfter criteria f = (e.source, e.destination, criteria) :=
  if_pos hit

theorem Edge.senseAfter_other {e f : Edge} {criteria : List String}
    (missed : f.identity ≠ e.identity) : e.senseAfter criteria f = f.sense :=
  if_neg missed

/-- A new criterion changes the sense of its transition only. -/
theorem senses_rewritten (g : Graph) (e : Edge) (criteria : List String) (ordinal : Option Nat) :
    (g.modifyEdge e.source e.destination e.key fun e =>
      { e with criteria := criteria }.withOrdinal ordinal).edges.map Edge.sense =
        g.edges.map (e.senseAfter criteria) := by
  unfold modifyEdge
  rw [List.map_map]
  refine List.map_congr_left fun f _ => ?_
  rw [Function.comp_apply]
  by_cases hit : f.identity = e.identity
  · obtain ⟨origin, target, key⟩ := Edge.identity_eq_iff.mp hit
    simp [Edge.senseAfter_same hit, origin, target, key, Edge.sense, Edge.withOrdinal]
  · have missed : ¬((f.source == e.source && f.destination == e.destination &&
        f.key == e.key) = true) := by
      simpa [Edge.identity_eq_iff, and_assoc] using hit
    rw [if_neg missed, Edge.senseAfter_other hit]

/-- Where no other transition between the same nodes has the new criteria, only `e` gets their sense. -/
theorem identity_of_senseAfter {e f : Edge} {criteria : List String}
    (apart : ∀ f ∈ g.between e.source e.destination, f.key ≠ e.key → f.criteria ≠ criteria)
    (inside : f ∈ g.edges) (same : e.senseAfter criteria f = (e.source, e.destination, criteria)) :
    f.identity = e.identity := by
  by_contra missed
  rw [Edge.senseAfter_other missed] at same
  obtain ⟨origin, target, same⟩ : f.source = e.source ∧ f.destination = e.destination ∧
      f.criteria = criteria := by
    simpa [Edge.sense] using same
  have other : f.key ≠ e.key :=
    fun key => missed (Edge.identity_eq_iff.mpr ⟨origin, target, key⟩)
  exact apart f (mem_between.mpr ⟨inside, origin, target⟩) other same

/-- So transitions stay apart, if no other one has the new criteria. -/
theorem Merged.senses_apart (merged : g.Merged) (sound : g.Sound) {e : Edge} {criteria : List String}
    (apart : ∀ f ∈ g.between e.source e.destination, f.key ≠ e.key → f.criteria ≠ criteria) :
    (g.edges.map (e.senseAfter criteria)).Nodup := by
  refine List.Nodup.map_on ?_ sound.edges_nodup
  intro a first b second same
  by_cases hit : a.identity = e.identity
  · rw [Edge.senseAfter_same hit] at same
    have hit' := identity_of_senseAfter apart second same.symm
    exact sound.eq_of_identity_eq first second (hit.trans hit'.symm)
  · have missed : b.identity ≠ e.identity := by
      intro hit'
      rw [Edge.senseAfter_same hit'] at same
      exact hit (identity_of_senseAfter apart first same)
    rw [Edge.senseAfter_other hit, Edge.senseAfter_other missed] at same
    exact merged.eq_of_sense_eq first second same

/-- New criteria keep transitions apart just if no other one between the same nodes has them. -/
theorem merged_rewritten_iff (sound : g.Sound) (merged : g.Merged) {source destination : String}
    {e : Edge} {criteria : List String} {ordinal : Option Nat}
    (there : e ∈ g.between source destination) :
    (g.modifyEdge source destination e.key fun e =>
        { e with criteria := criteria }.withOrdinal ordinal).Merged ↔
      ∀ f ∈ g.between source destination, f.key ≠ e.key → f.criteria ≠ criteria := by
  obtain ⟨inside, rfl, rfl⟩ := mem_between.mp there
  unfold Merged
  rw [senses_rewritten]
  constructor
  · intro unique f between other same
    obtain ⟨inside', origin, target⟩ := mem_between.mp between
    have missed : f.identity ≠ e.identity := fun hit => other (Edge.identity_eq_iff.mp hit).2.2
    have equal : f = e := by
      apply List.inj_on_of_nodup_map unique inside' inside
      rw [Edge.senseAfter_other missed, Edge.senseAfter_same rfl, Edge.sense, origin, target, same]
    exact other (congrArg Edge.key equal)
  · exact merged.senses_apart sound

/-- Only an operation that repeats criteria breaks what was merged. -/
theorem Changes.merged_iff {o : Operation} (changes : g.Changes o g') (sound : g.Sound)
    (merged : g.Merged) : g'.Merged ↔ ¬o.Repeats g := by
  cases changes with
  | @failed _ f error =>
    refine iff_of_true merged ?_
    intro repeats
    cases o with
    | updateTransition source destination key criteria ordinal =>
      obtain ⟨⟨e, there, rfl⟩, _⟩ := repeats
      obtain ⟨g', done⟩ := sound.updateTransition_ok there criteria ordinal
      simp [perform, done, Except.map] at error
    | _ => exact repeats
  | added => exact iff_of_true (by rwa [Merged, edges_addTask]) not_false
  | updated => exact iff_of_true merged not_false
  | barred => exact iff_of_true merged not_false
  | @told e source destination ordinal there =>
    have same : (g.modifyEdge source destination e.key fun e =>
        e.withOrdinal ordinal).edges.map Edge.sense = g.edges.map Edge.sense := by
      unfold modifyEdge
      rw [List.map_map]
      refine List.map_congr_left fun f _ => ?_
      rw [Function.comp_apply]
      split <;> rfl
    exact iff_of_true (by rwa [Merged, same]) not_false
  | @linked source destination criteria ordinal new =>
    refine iff_of_true ?_ not_false
    unfold Merged
    rw [List.map_append, List.map_singleton]
    refine List.concat_eq_append ▸ List.Nodup.concat ?_ merged
    intro known
    obtain ⟨e, inside, same⟩ := List.mem_map.mp known
    obtain ⟨origin, target, same⟩ := Edge.sense_eq_iff.mp same
    exact new e (mem_between.mpr ⟨inside, origin, target⟩) same
  | @rewritten e source destination criteria ordinal there =>
    rw [merged_rewritten_iff sound merged there]
    unfold Operation.Repeats
    constructor
    · intro apart repeats
      obtain ⟨_, f, between, other, same⟩ := repeats
      exact apart f between other same
    · intro single f between other same
      exact single ⟨⟨e, there, rfl⟩, f, between, other, same⟩

/-- Where transitions are merged, and only there, one can be added between any two nodes. -/
theorem merged_iff_addTransition_ok (sound : g.Sound) :
    g.Merged ↔ ∀ source destination criteria ordinal,
      ∃ r, g.addTransition source destination criteria ordinal = .ok r := by
  constructor
  · intro merged source destination criteria ordinal
    obtain ⟨e, _, result⟩ | ⟨_, result⟩ | ⟨several, _⟩ :=
      addTransition_cases sound source destination criteria ordinal
    · exact ⟨_, result⟩
    · exact ⟨_, result⟩
    · have unique : (g.alternatives source destination criteria).Nodup :=
        (sound.edges_nodup.filter _).filter _
      have single : ∀ a ∈ g.alternatives source destination criteria,
          ∀ b ∈ g.alternatives source destination criteria, a = b := by
        intro a first b second
        obtain ⟨there, same⟩ := mem_alternatives_iff.mp first
        obtain ⟨there', same'⟩ := mem_alternatives_iff.mp second
        obtain ⟨inside, origin, target⟩ := mem_between.mp there
        obtain ⟨inside', origin', target'⟩ := mem_between.mp there'
        exact merged.eq_of_sense_eq inside inside' (Edge.sense_eq_iff.mpr
          ⟨origin.trans origin'.symm, target.trans target'.symm, same.trans same'.symm⟩)
      match found : g.alternatives source destination criteria with
      | [] => simp [found] at several
      | [_] => simp [found] at several
      | a :: b :: _ =>
        rw [found] at unique single
        have apart := (List.nodup_cons.mp unique).1
        exact absurd (single a (by simp) b (by simp)) fun same => apart (by simp [same])
  · intro possible
    refine List.Nodup.map_on ?_ sound.edges_nodup
    intro a first b second same
    obtain ⟨origin, target, criteria⟩ := Edge.sense_eq_iff.mp same
    have there : a ∈ g.alternatives a.source a.destination a.criteria :=
      mem_alternatives_iff.mpr ⟨mem_between.mpr ⟨first, rfl, rfl⟩, rfl⟩
    have there' : b ∈ g.alternatives a.source a.destination a.criteria :=
      mem_alternatives_iff.mpr ⟨mem_between.mpr ⟨second, origin.symm, target.symm⟩, criteria.symm⟩
    obtain ⟨r, done⟩ := possible a.source a.destination a.criteria none
    obtain ⟨e, found, _⟩ | ⟨found, _⟩ | ⟨_, failed⟩ :=
      addTransition_cases sound a.source a.destination a.criteria none
    · rw [found, List.mem_singleton] at there there'
      exact there.trans there'.symm
    · simp [found] at there
    · rw [done] at failed
      cases failed

theorem run_concat (g : Graph) (os : List Operation) (o : Operation) :
    g.run (os ++ [o]) = (g.run os).after o := by
  simp [run]

/-- A session that begins with the empty graph keeps its transitions merged all the while just if no
operation of it repeats criteria; and as long as they are merged, and only then, a transition can be
added between any two nodes. -/
theorem merged_throughout_iff (os : List Operation) :
    ((∀ before, before <+: os → (Graph.empty.run before).Merged) ↔
      ∀ before o, before ++ [o] <+: os → ¬o.Repeats (Graph.empty.run before)) ∧
    ((Graph.empty.run os).Merged ↔ ∀ source destination criteria ordinal,
      ∃ r, (Graph.empty.run os).addTransition source destination criteria ordinal = .ok r) := by
  have sound : ∀ before, (Graph.empty.run before).Sound :=
    fun before => sound_empty.run before
  have step : ∀ before o, (Graph.empty.run before).Merged →
      ((Graph.empty.run (before ++ [o])).Merged ↔ ¬o.Repeats (Graph.empty.run before)) := by
    intro before o merged
    rw [run_concat]
    exact (changes_after (sound before) o).merged_iff (sound before) merged
  refine ⟨?_, merged_iff_addTransition_ok (sound os)⟩
  constructor
  · intro throughout before o part
    have merged := throughout before ((List.prefix_append before [o]).trans part)
    exact (step before o merged).mp (throughout (before ++ [o]) part)
  · intro unrepeated before part
    -- From one operation to the next, along the part of the session that is done.
    induction before using List.reverseRecOn with
    | nil => exact List.nodup_nil
    | append_singleton before o ih =>
      have merged := ih ((List.prefix_append before [o]).trans part)
      exact (step before o merged).mpr (unrepeated before o part)

/-- Two transitions from `a` to `b`, of which the second is then given the criteria of the first. -/
def updatedTwin : List Operation :=
  [.addTransition "a" "b" ["x"] none, .addTransition "a" "b" ["y"] none,
   .updateTransition "a" "b" 1 ["x"] none]

/-- New criteria make twins of two transitions, and behind that none like them can be added. -/
theorem updatedTwin_not_merged :
    ¬(Graph.empty.run updatedTwin).Merged ∧
    (Graph.empty.run updatedTwin).addTransition "a" "b" ["x"] none =
      .error (.ambiguous "a" "b" 2) := by
  decide

end Workflow.Graph
