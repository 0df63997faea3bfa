import Workflow.Composition.Basic
import Workflow.Proofs.Graph.Soundness

/-!
Graphs whose parts fit together, and the transitions that a composition adds to them: nothing is
lost, what is new comes from the clause that was followed, and the addition never fails.
-/

namespace Workflow.Graph

variable {g : Graph} {source destination : String} {criteria : List String}

/-- A transition with these criteria leads from one node to another. -/
def Leads (g : Graph) (source destination : String) (criteria : List String) : Prop :=
  ∃ e ∈ g.edges, e.source = source ∧ e.destination = destination ∧ e.criteria = criteria

/-- A transition leads from one node to another. -/
def Adjacent (g : Graph) (source destination : String) : Prop :=
  ∃ e ∈ g.edges, e.source = source ∧ e.destination = destination

theorem Leads.adjacent (leads : g.Leads source destination criteria) :
    g.Adjacent source destination := by
  obtain ⟨e, inside, origin, target, _⟩ := leads
  exact ⟨e, inside, origin, target⟩

/-- Transitions between the same nodes have keys and criteria of their own. -/
def Edge.Apart (a b : Edge) : Prop :=
  a.source = b.source → a.destination = b.destination → a.key ≠ b.key ∧ a.criteria ≠ b.criteria

instance : Std.Symm Edge.Apart where
  symm _ _ apart origin target :=
    ⟨(apart origin.symm target.symm).1.symm, (apart origin.symm target.symm).2.symm⟩

/-- Every node has an id of its own, transitions lead from nodes to nodes, and those between the same
nodes can be told apart. -/
structure Coherent (g : Graph) : Prop where
  unique : g.ids.Nodup
  source_mem : ∀ e ∈ g.edges, e.source ∈ g.ids
  destination_mem : ∀ e ∈ g.edges, e.destination ∈ g.ids
  apart : g.edges.Pairwise Edge.Apart

theorem coherent_empty : Coherent .empty :=
  ⟨List.nodup_nil, nofun, nofun, .nil⟩

/-- Of the transitions between two nodes no two have the same criteria. -/
theorem Coherent.eq_of_criteria_eq (coherent : g.Coherent) {a b : Edge} (first : a ∈ g.edges)
    (second : b ∈ g.edges) (origin : a.source = b.source) (target : a.destination = b.destination)
    (same : a.criteria = b.criteria) : a = b := by
  by_contra different
  exact (coherent.apart.forall first second different origin target).2 same

theorem Coherent.sound (coherent : g.Coherent) : g.Sound :=
  ⟨coherent.unique, coherent.source_mem, coherent.destination_mem,
    coherent.apart.imp fun apart origin target => (apart origin target).1⟩

theorem Coherent.of_edges (coherent : g.Coherent) {g' : Graph} (sound : g'.Sound)
    (edges : g'.edges = g.edges) : g'.Coherent :=
  ⟨sound.unique, sound.source_mem, sound.destination_mem, edges ▸ coherent.apart⟩

/-- A graph hangs together with one task more. -/
theorem Coherent.addTask (coherent : g.Coherent) (id : String) (a : Attributes) :
    (g.addTask id a).Coherent :=
  coherent.of_edges (coherent.sound.addTask id a) (edges_addTask g id a)

theorem Coherent.ensure (coherent : g.Coherent) (id : String) : (g.ensure id).Coherent :=
  coherent.of_edges (coherent.sound.ensure id) (edges_ensure g id)

theorem Coherent.eq_of_key_eq (coherent : g.Coherent) {a b : Edge} (first : a ∈ g.edges)
    (second : b ∈ g.edges) (origin : a.source = b.source) (target : a.destination = b.destination)
    (same : a.key = b.key) : a = b :=
  coherent.sound.eq_of_key_eq first second origin target same

theorem Coherent.edges_nodup (coherent : g.Coherent) : g.edges.Nodup :=
  coherent.sound.edges_nodup

/-- Telling an edge its clause anew leaves its ends. -/
theorem between_modifyEdge (g : Graph) (source destination : String) (key : Nat)
    (ordinal : Option Nat) (u v : String) :
    (g.modifyEdge source destination key fun e => e.withOrdinal ordinal).between u v =
      (g.between u v).map fun e =>
        if e.source == source && e.destination == destination && e.key == key then
          e.withOrdinal ordinal else e := by
  unfold modifyEdge between
  rw [List.filter_map]
  refine congrArg _ (List.filter_congr fun e _ => ?_)
  rw [Function.comp_apply]
  split <;> rfl

/-- Telling an edge its clause anew leaves its ends, its key and its criteria. -/
theorem Coherent.modifyEdge (coherent : g.Coherent) (key : Nat) (ordinal : Option Nat) :
    (g.modifyEdge source destination key fun e => e.withOrdinal ordinal).Coherent := by
  have sound : (g.modifyEdge source destination key fun e => e.withOrdinal ordinal).Sound :=
    coherent.sound.modifyEdge fun _ => rfl
  refine ⟨sound.unique, sound.source_mem, sound.destination_mem, ?_⟩
  refine List.pairwise_map.mpr (coherent.apart.imp fun {a b} apart => ?_)
  unfold Edge.Apart at apart ⊢
  split <;> split <;> exact apart

end Workflow.Graph

namespace Workflow.Composition

open Workflow.Graph

variable {g g' : Graph} {source destination : String} {criteria : List String}
  {ordinal : Option Nat}

/-- What becomes of the transitions between two nodes when one is ensured: if there is one with these
criteria, it is told the clause that was followed; else a new one comes last. -/
def noted (source destination : String) (criteria : List String) (ordinal : Option Nat)
    (edges : List Edge) : List Edge :=
  if ∃ e ∈ edges, e.criteria = criteria then
    edges.map fun e => if e.criteria = criteria then e.withOrdinal ordinal else e
  else edges ++ [⟨source, destination, freshKey edges, criteria, ordinal⟩]

/-- What becomes of a graph when a transition is ensured: it is there, with the clause that was
followed or with its old one; the others are as they were, apart from the clause of one that had
the same ends and criteria. -/
structure Ensures (g : Graph) (source destination : String) (criteria : List String)
    (ordinal : Option Nat) (g' : Graph) : Prop where
  coherent : g'.Coherent
  nodes : g'.nodes = ((g.ensure source).ensure destination).nodes
  leads : g'.Leads source destination criteria
  kept : ∀ {s d c}, g.Leads s d c → g'.Leads s d c
  known : ∀ e ∈ g'.edges, e ∈ g.edges ∨
    e.source = source ∧ e.destination = destination ∧ e.criteria = criteria ∧ e.ordinal = ordinal
  between : g'.between source destination =
    noted source destination criteria ordinal (g.between source destination)
  elsewhere : ∀ {u v}, u ≠ source ∨ v ≠ destination → g'.between u v = g.between u v

/-- Of the transitions between two nodes, the one with these criteria is told its clause. -/
private theorem noted_of_mem (coherent : g.Coherent) {e : Edge} (inside : e ∈ g.edges)
    (origin : e.source = source) (target : e.destination = destination)
    (same : e.criteria = criteria) :
    noted source destination criteria ordinal (g.between source destination) =
      (g.between source destination).map fun f => if f = e then e.withOrdinal ordinal else f := by
  unfold noted
  rw [if_pos ⟨e, mem_between.mpr ⟨inside, origin, target⟩, same⟩]
  refine List.map_congr_left fun f between => ?_
  obtain ⟨inside', origin', target'⟩ := mem_between.mp between
  by_cases equal : f = e
  · rw [if_pos equal, if_pos (equal ▸ same), equal]
  · rw [if_neg equal, if_neg fun same' => equal ?_]
    exact coherent.eq_of_criteria_eq inside' inside (origin'.trans origin.symm)
      (target'.trans target.symm) (same'.trans same.symm)

/-- A transition that is there with the clause that was followed leaves the graph as it is. -/
private theorem ensures_self (coherent : g.Coherent) {e : Edge} (inside : e ∈ g.edges)
    (origin : e.source = source) (target : e.destination = destination)
    (same : e.criteria = criteria) (told : e.withOrdinal ordinal = e) :
    Ensures g source destination criteria ordinal g where
  coherent := coherent
  nodes := by rw [coherent.sound.ensure_ends (mem_between.mpr ⟨inside, origin, target⟩)]
  leads := ⟨e, inside, origin, target, same⟩
  kept := id
  known _ inside := .inl inside
  between := by
    rw [noted_of_mem coherent inside origin target same, told]
    refine (List.map_id'' (fun f => ?_) _).symm
    split
    next equal => exact equal.symm
    next => rfl
  elsewhere _ := rfl

/-- A transition with other clauses is told the clause anew. -/
private theorem ensures_modifyEdge (coherent : g.Coherent) {e : Edge} {k : Nat} (inside : e ∈ g.edges)
    (origin : e.source = source) (target : e.destination = destination)
    (same : e.criteria = criteria) :
    Ensures g source destination criteria (some k)
      (g.modifyEdge source destination e.key fun e => e.withOrdinal (some k)) where
  coherent := coherent.modifyEdge e.key (some k)
  nodes := by rw [coherent.sound.ensure_ends (mem_between.mpr ⟨inside, origin, target⟩)]; rfl
  leads := by
    refine ⟨e.withOrdinal (some k), List.mem_map.mpr ⟨e, inside, ?_⟩, origin, target, same⟩
    simp [origin, target]
  kept := by
    rintro s d c ⟨f, inside, origin, target, same⟩
    refine ⟨_, List.mem_map.mpr ⟨f, inside, rfl⟩, ?_⟩
    split <;> exact ⟨origin, target, same⟩
  known := by
    intro f changed
    obtain ⟨f, inside', rfl⟩ := List.mem_map.mp changed
    split
    next hit =>
      simp only [Bool.and_eq_true, beq_iff_eq] at hit
      obtain ⟨⟨origin', target'⟩, key⟩ := hit
      obtain rfl : f = e := coherent.eq_of_key_eq inside' inside (origin'.trans origin.symm)
        (target'.trans target.symm) key
      exact .inr ⟨origin, target, same, rfl⟩
    next => exact .inl inside'
  between := by
    rw [noted_of_mem coherent inside origin target same, between_modifyEdge]
    refine List.map_congr_left fun f between => ?_
    obtain ⟨inside', origin', target'⟩ := mem_between.mp between
    by_cases equal : f = e
    · simp [equal, origin, target]
    · have apart : f.key ≠ e.key := fun key => equal (coherent.eq_of_key_eq inside' inside
        (origin'.trans origin.symm) (target'.trans target.symm) key)
      simp [equal, apart]
  elsewhere := by
    intro u v apart
    rw [between_modifyEdge]
    refine (List.map_congr_left fun f between => ?_).trans (List.map_id _)
    obtain ⟨_, rfl, rfl⟩ := mem_between.mp between
    rcases apart with apart | apart
    · simp [apart]
    · simp [apart]

/-- A transition that was not there comes last, with a key that no other between its ends has. -/
private theorem ensures_append (coherent : g.Coherent)
    (missing : ∀ e ∈ g.edges, e.source = source → e.destination = destination →
      e.criteria ≠ criteria) :
    Ensures g source destination criteria ordinal
      { (g.ensure source).ensure destination with
        edges := g.edges ++
          [⟨source, destination, freshKey (g.between source destination), criteria, ordinal⟩] } where
  coherent := by
    have ends := (coherent.ensure source).ensure destination
    refine ⟨ends.unique, ?_, ?_, ?_⟩
    · intro e inside
      rcases List.mem_append.mp inside with inside | new
      · exact ends.source_mem e (by rw [edges_ensure, edges_ensure]; exact inside)
      · rw [List.mem_singleton.mp new]
        exact mem_ids_ensure.mpr (.inl (mem_ids_ensure.mpr (.inr rfl)))
    · intro e inside
      rcases List.mem_append.mp inside with inside | new
      · exact ends.destination_mem e (by rw [edges_ensure, edges_ensure]; exact inside)
      · rw [List.mem_singleton.mp new]
        exact mem_ids_ensure.mpr (.inr rfl)
    · refine List.pairwise_append.mpr ⟨coherent.apart, List.pairwise_singleton _ _, ?_⟩
      intro e inside new single origin target
      rw [List.mem_singleton.mp single] at origin target ⊢
      have fresh := key_lt_freshKey (mem_between.mpr ⟨inside, origin, target⟩)
      exact ⟨Nat.ne_of_lt fresh, missing e inside origin target⟩
  nodes := rfl
  leads := ⟨_, List.mem_append_right _ List.mem_cons_self, rfl, rfl, rfl⟩
  kept := by
    rintro s d c ⟨e, inside, rest⟩
    exact ⟨e, List.mem_append_left _ inside, rest⟩
  known := by
    intro e inside
    rcases List.mem_append.mp inside with inside | new
    · exact .inl inside
    · rw [List.mem_singleton.mp new]
      exact .inr ⟨rfl, rfl, rfl, rfl⟩
  between := by
    have none_ : ¬∃ e ∈ g.between source destination, e.criteria = criteria := by
      rintro ⟨e, between, same⟩
      obtain ⟨inside, origin, target⟩ := mem_between.mp between
      exact missing e inside origin target same
    rw [noted, if_neg none_]
    simp [Graph.between]
  elsewhere := by
    intro u v apart
    rcases apart with apart | apart
    · simp [Graph.between, apart.symm]
    · simp [Graph.between, apart.symm]

/-- Between two nodes there is at most one transition with given criteria. -/
theorem matching_cases (coherent : g.Coherent) (source destination : String)
    (criteria : List String) :
    (g.between source destination).filter (fun e => e.criteria == criteria) = [] ∨
      ∃ e ∈ g.edges, e.source = source ∧ e.destination = destination ∧ e.criteria = criteria ∧
        (g.between source destination).filter (fun e => e.criteria == criteria) = [e] := by
  have fits : ∀ e ∈ (g.between source destination).filter (fun e => e.criteria == criteria),
      e ∈ g.edges ∧ e.source = source ∧ e.destination = destination ∧ e.criteria = criteria := by
    intro e inside
    obtain ⟨between, same⟩ := List.mem_filter.mp inside
    obtain ⟨inside, origin, target⟩ := mem_between.mp between
    exact ⟨inside, origin, target, by simpa using same⟩
  have apart : ((g.between source destination).filter
      (fun e => e.criteria == criteria)).Pairwise Edge.Apart :=
    (coherent.apart.filter _).filter _
  cases matching : (g.between source destination).filter (fun e => e.criteria == criteria) with
  | nil => exact .inl rfl
  | cons e others =>
    rw [matching] at fits apart
    obtain ⟨inside, origin, target, same⟩ := fits e List.mem_cons_self
    cases others with
    | nil => exact .inr ⟨e, inside, origin, target, same, rfl⟩
    | cons f others =>
      have later : f ∈ e :: f :: others := List.mem_cons_of_mem _ List.mem_cons_self
      obtain ⟨_, origin', target', same'⟩ := fits f later
      have differ := (List.pairwise_cons.mp apart).1 f List.mem_cons_self
        (origin.trans origin'.symm) (target.trans target'.symm)
      exact absurd (same.trans same'.symm) differ.2

/-- To ensure a transition never fails: of those between its ends no two have the same criteria. -/
theorem ensureTransition_ok (coherent : g.Coherent) (source destination : String)
    (criteria : List String) (ordinal : Option Nat) :
    ∃ g', ensureTransition g source destination criteria ordinal = .ok g' ∧
      Ensures g source destination criteria ordinal g' := by
  unfold ensureTransition
  split
  next unseen =>
    have unaccepted : ∀ e ∈ g.edges, e.source = source → e.destination = destination →
        Filter.accepts ⟨some criteria, ordinal⟩ e = false := by
      intro e inside origin target
      have missed : e ∉ g.transitions source destination ⟨some criteria, ordinal⟩ := by
        rw [List.isEmpty_iff.mp unseen]
        exact List.not_mem_nil
      simpa [transitions, mem_between, inside, origin, target] using missed
    rcases matching_cases coherent source destination criteria with
      nothing | ⟨e, inside, origin, target, same, only⟩
    · have missing : ∀ e ∈ g.edges, e.source = source → e.destination = destination →
          e.criteria ≠ criteria := by
        intro e inside origin target same
        have kept := List.filter_eq_nil_iff.mp nothing e (mem_between.mpr ⟨inside, origin, target⟩)
        simp [same] at kept
      refine ⟨_, ?_, ensures_append coherent missing⟩
      have between : ((g.ensure source).ensure destination).between source destination =
          g.between source destination := by
        simp only [Graph.between, edges_ensure]
      simp only [addTransition, between, nothing, edges_ensure]
    · -- The edge has these criteria and was not accepted, so it comes from another clause.
      have refused := unaccepted e inside origin target
      cases ordinal with
      | none => simp [Filter.accepts, same] at refused
      | some k =>
        refine ⟨_, ?_, ensures_modifyEdge (k := k) coherent inside origin target same⟩
        simp only [addTransition, coherent.sound.ensure_ends (mem_between.mpr ⟨inside, origin, target⟩), only]
  next seen =>
    obtain ⟨e, accepted⟩ := List.isEmpty_eq_false_iff_exists_mem.mp (by simpa using seen)
    simp only [transitions, List.mem_mergeSort, List.mem_filter, mem_between] at accepted
    obtain ⟨⟨inside, origin, target⟩, fits⟩ := accepted
    simp only [Filter.accepts, Bool.and_eq_true, beq_iff_eq] at fits
    have told : e.withOrdinal ordinal = e := by
      cases ordinal with
      | none => rfl
      | some k =>
        have comes : e.ordinal = some k := by simpa using fits.2
        rw [← comes]
        cases e
        subst comes
        rfl
    exact ⟨g, rfl, ensures_self coherent inside origin target fits.1.symm told⟩

end Workflow.Composition
