import Mathlib
import Workflow.Proofs.Plan.Network

/-!
Chains of transitions through a plan, and the forks on them. Every arrival of the network comes along a
chain, and every chain is an arrival, whichever way it turns and however often it goes around a loop.

A task is on a cycle just if links lead from it back to it; it does not matter that the search passes over
names that are not defined, since nothing leads on from them (`inCycle_iff_transGen`). Going back from any
task along the links, one comes to a start task or around a cycle, as there are finitely many tasks
(`hangs_on_start_or_cycle`).
-/

namespace Workflow.Plan

variable {p : Plan} {c : List String} {s t u : String} {σ : List String}

/-- Tasks in a row, from a start task to this one, each of which leads to the next. -/
structure Chain (p : Plan) (c : List String) (t : String) : Prop where
  starts : ∀ s ∈ c.head?, s ∈ p.starts
  ends : c.getLast? = some t
  linked : c.IsChain fun t u => u ∈ p.successors t

/-- The tasks on a chain, before its last one, that are reached from several tasks, do not join them and
lie on no cycle. -/
def lineage (p : Plan) (c : List String) : List String :=
  c.dropLast.filter fun t => p.isSplit t && !p.inCycle t

theorem chain_singleton_iff : p.Chain [u] t ↔ u = t ∧ u ∈ p.starts := by
  constructor
  · intro chain
    exact ⟨Option.some.inj chain.ends, chain.starts u rfl⟩
  · rintro ⟨rfl, first⟩
    refine ⟨?_, rfl, .singleton u⟩
    intro s head
    cases head
    exact first

/-- A longer chain is a chain with one more task behind its last one. -/
theorem chain_concat_iff (some_ : c ≠ []) :
    p.Chain (c ++ [u]) t ↔ u = t ∧ ∃ s, p.Chain c s ∧ u ∈ p.successors s := by
  have head : (c ++ [u]).head? = c.head? := List.head?_append_of_ne_nil c some_
  constructor
  · intro ⟨starts, ends, linked⟩
    rw [List.getLast?_concat] at ends
    obtain ⟨linked, _, last⟩ := List.isChain_append.mp linked
    have ends' := List.getLast?_eq_some_getLast some_
    exact ⟨Option.some.inj ends, c.getLast some_, ⟨head ▸ starts, ends', linked⟩,
      last _ ends' u rfl⟩
  · rintro ⟨rfl, s, ⟨starts, ends, linked⟩, leads⟩
    refine ⟨head.symm ▸ starts, List.getLast?_concat, List.isChain_append.mpr ⟨linked, .singleton u, ?_⟩⟩
    intro s' last u' first
    rw [ends] at last
    cases last
    cases first
    exact leads

theorem lineage_concat (ends : c.getLast? = some s) :
    p.lineage (c ++ [u]) = p.network.behind s (p.lineage c) := by
  have split : c.dropLast ++ [s] = c := List.dropLast_append_getLast? s ends
  unfold lineage
  rw [List.dropLast_concat]
  nth_rewrite 1 [← split]
  rw [List.filter_append]
  cases fork : p.network.forks s with
  | false =>
    have skipped : (p.isSplit s && !p.inCycle s) = false := fork
    rw [Network.behind_of_not_fork fork]
    simp [skipped]
  | true =>
    have taken : (p.isSplit s && !p.inCycle s) = true := fork
    rw [Network.behind_of_fork fork]
    simp [taken]

theorem mem_names_of_isJoin (join : p.isJoin t = true) : t ∈ p.tasks.names := by
  unfold isJoin at join
  cases found : p.tasks.get? t with
  | some task => exact Table.mem_names_iff.mpr ⟨task, found⟩
  | none => simp [found] at join

/-- A task is arrived at behind the forks on the chains to it. -/
theorem arrives_iff_exists_chain (known : t ∈ p.tasks.names) :
    p.network.Arrives t σ ↔ ∃ c, p.Chain c t ∧ p.lineage c = σ := by
  constructor
  · intro arrives
    induction arrives with
    | start first => exact ⟨[_], chain_singleton_iff.mpr ⟨rfl, first⟩, rfl⟩
    | follow before link ih =>
      obtain ⟨c, chain, rfl⟩ := ih (before.mem p.network_among)
      have some_ : c ≠ [] := by
        rintro rfl
        cases chain.ends
      exact ⟨c ++ [_], (chain_concat_iff some_).mpr ⟨rfl, _, chain, link.1⟩,
        lineage_concat chain.ends⟩
  · rintro ⟨c, chain, rfl⟩
    induction c using List.reverseRecOn generalizing t with
    | nil => cases chain.ends
    | append_singleton c u ih =>
      by_cases some_ : c = []
      · subst some_
        obtain ⟨rfl, first⟩ := chain_singleton_iff.mp chain
        exact .start first
      · obtain ⟨rfl, s, chain, leads⟩ := (chain_concat_iff some_).mp chain
        obtain ⟨task, found, _⟩ := mem_successors_iff.mp leads
        rw [lineage_concat chain.ends]
        exact .follow (ih (Table.mem_names_iff.mpr ⟨task, found⟩) chain) ⟨leads, known⟩

/-! ## Cycles -/

theorem mem_names_of_leads (leads : u ∈ p.successors t) : t ∈ p.tasks.names := by
  obtain ⟨task, found, _⟩ := mem_successors_iff.mp leads
  exact Table.mem_names_iff.mpr ⟨task, found⟩

/-- On a way to a task that is defined there are defined tasks only. -/
theorem transGen_within (known : u ∈ p.tasks.names)
    (way : Relation.TransGen (fun a b => b ∈ p.successors a) t u) :
    Relation.TransGen (Within p.successors p.tasks.names) t u := by
  induction way using Relation.TransGen.head_induction_on with
  | single leads => exact .single ⟨leads, known⟩
  | head leads way ih =>
    obtain ⟨_, next, _⟩ := Relation.TransGen.head'_iff.mp way
    exact .head ⟨leads, mem_names_of_leads next⟩ ih

/-- A task is on a cycle if links lead back to it, for links from undefined tasks there are none. -/
theorem inCycle_iff_transGen :
    p.inCycle t = true ↔ Relation.TransGen (fun a b => b ∈ p.successors a) t t := by
  rw [inCycle_iff]
  constructor
  · exact fun way => way.lift id fun _ _ link => link.1
  · intro way
    obtain ⟨_, leads, _⟩ := Relation.TransGen.head'_iff.mp way
    exact transGen_within (mem_names_of_leads leads) way

/-- Some task leads to a defined task that is not a start task. -/
theorem exists_leads_of_not_start (known : t ∈ p.tasks.names) (later : t ∉ p.starts) :
    ∃ s, t ∈ p.successors s := by
  simpa [mem_starts_iff, known] using later

/-- The task is a start task or on a cycle, or links between defined tasks lead to it from such a task. -/
def Anchored (p : Plan) (t : String) : Prop :=
  ∃ s ∈ p.tasks.names, (s ∈ p.starts ∨ p.inCycle s = true) ∧
    Relation.ReflTransGen (Within p.successors p.tasks.names) s t

/-- What follows an anchored task is anchored. -/
theorem Anchored.follow (anchored : p.Anchored s) (link : Within p.successors p.tasks.names s t) :
    p.Anchored t := by
  obtain ⟨a, known, anchor, way⟩ := anchored
  exact ⟨a, known, anchor, way.tail link⟩

/-- Every defined task is anchored: going back from it, one comes to a start or around a cycle. -/
theorem anchored_of_mem_names (known : t ∈ p.tasks.names) : p.Anchored t := by
  -- A cycle of links into tasks without an anchor would anchor them, so there is none.
  have acyclic : ∀ a ∈ p.tasks.names, ¬Relation.TransGen
      (fun a b => Within p.successors p.tasks.names a b ∧ ¬p.Anchored b) a a := by
    intro a inside cycle
    obtain ⟨_, _, _, free⟩ := Relation.TransGen.tail'_iff.mp cycle
    have looped := inCycle_iff.mpr (cycle.lift id fun _ _ link => link.1)
    exact free ⟨a, inside, .inr looped, .refl⟩
  refine acyclic_induction acyclic (fun a inside ih => ?_) known
  by_contra free
  have later : a ∉ p.starts := fun first => free ⟨a, inside, .inl first, .refl⟩
  obtain ⟨b, leads⟩ := exists_leads_of_not_start inside later
  have link : Within p.successors p.tasks.names b a := ⟨leads, inside⟩
  exact free ((ih b (mem_names_of_leads leads) ⟨link, free⟩).follow link)

/-- Every task hangs on a start task or on a cycle; so where there are tasks, but no start, there is a
cycle. -/
theorem hangs_on_start_or_cycle (p : Plan) :
    (∀ t ∈ p.tasks.names, p.Anchored t) ∧
      (p.starts = [] → p.tasks.names ≠ [] → ∃ t ∈ p.tasks.names, p.inCycle t = true) := by
  refine ⟨fun t => anchored_of_mem_names, fun none_ some_ => ?_⟩
  obtain ⟨t, known⟩ := List.exists_mem_of_ne_nil _ some_
  obtain ⟨s, known', first | cycle, _⟩ := anchored_of_mem_names known
  · rw [none_] at first
    cases first
  · exact ⟨s, known', cycle⟩

/-- Two tasks that lead to each other, and a third one that is reached from them only. -/
def closedLoop : Plan :=
  bare (.ofList
    [("a", .leading ["b"] none), ("b", .leading ["a", "c"] none), ("c", .leading ["noop"] none)])

theorem closedLoop_hangs_on_cycle :
    "c" ∈ closedLoop.tasks.names ∧ closedLoop.inCycle "c" = false ∧ closedLoop.Anchored "c" ∧
      closedLoop.starts = [] ∧ closedLoop.tasks.names ≠ [] ∧
      ∃ t ∈ closedLoop.tasks.names, closedLoop.inCycle t = true := by
  have known : "c" ∈ closedLoop.tasks.names := by decide
  have none_ : closedLoop.starts = [] := by cbv
  have some_ : closedLoop.tasks.names ≠ [] := List.ne_nil_of_mem known
  obtain ⟨anchored, cycle⟩ := hangs_on_start_or_cycle closedLoop
  exact ⟨known, by cbv, anchored "c" known, none_, some_, cycle none_ some_⟩

end Workflow.Plan
