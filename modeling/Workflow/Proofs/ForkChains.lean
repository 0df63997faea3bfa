import Mathlib.Data.List.Chain
import Workflow.Proofs.Arrivals

/-!
The forks on the way to a task, as a chain: they are different, each of them leads to the next, and the
last one leads to the task.
-/

namespace Workflow

/-- Different forks in a row, each of which leads to the next on some way, and the last one to the task
that they are noted for. The task itself is among them just if it is a fork, and is the last one then. -/
structure ForkChain (forks : String → Prop) (leads : String → String → Prop) (t : String)
    (σ : List String) : Prop where
  distinct : σ.Nodup
  all : ∀ f ∈ σ, forks f
  linked : σ.IsChain (Relation.TransGen leads)
  reaches : ∀ f ∈ σ.getLast?, Relation.ReflTransGen leads f t
  own : t ∈ σ ↔ forks t
  last : t ∈ σ → σ.getLast? = some t

theorem ForkChain.of_iff {forks forks' : String → Prop} {leads : String → String → Prop} {t : String}
    {σ : List String} (chain : ForkChain forks leads t σ) (same : ∀ f, forks f ↔ forks' f) :
    ForkChain forks' leads t σ where
  distinct := chain.distinct
  all f inside := (same f).mp (chain.all f inside)
  linked := chain.linked
  reaches := chain.reaches
  own := chain.own.trans (same t)
  last := chain.last

namespace Network

variable {w : Network} {t : String} {σ : List String}

/-- A task stands behind the forks on the way to it. -/
theorem Arrives.linked_concat (arrives : w.Arrives t σ)
    (linked : σ.IsChain (Relation.TransGen w.leads)) :
    (σ ++ [t]).IsChain (Relation.TransGen w.leads) := by
  refine List.isChain_append.mpr ⟨linked, .singleton t, fun f last u first => ?_⟩
  cases first
  exact (arrives.transGen (List.mem_of_getLast? last)).2

/-- Of the forks on the way to a task, each leads to the next. -/
theorem Arrives.linked (arrives : w.Arrives t σ) : σ.IsChain (Relation.TransGen w.leads) := by
  induction arrives with
  | start => exact .nil
  | @follow t u σ before _ ih =>
    cases fork : w.forks t with
    | false =>
      rw [behind_of_not_fork fork]
      exact ih
    | true =>
      rw [behind_of_fork fork]
      exact before.linked_concat ih

/-- Where no fork leads back to itself, the forks on the ways out of a task are a chain to it. -/
theorem Arrives.forkChain (acyclic : w.Acyclic) (arrives : w.Arrives t σ) :
    ForkChain (fun f => w.forks f = true) w.leads t (w.behind t σ) := by
  cases fork : w.forks t with
  | false =>
    have other : t ∉ σ := by
      intro inside
      rw [(arrives.transGen inside).1] at fork
      cases fork
    rw [behind_of_not_fork fork]
    exact
      { distinct := arrives.nodup acyclic
        all := fun f inside => (arrives.transGen inside).1
        linked := arrives.linked
        reaches := fun f last => (arrives.transGen (List.mem_of_getLast? last)).2.to_reflTransGen
        own := by simp [other, fork]
        last := fun inside => absurd inside other }
  | true =>
    have new : t ∉ σ := fun inside => acyclic t fork (arrives.transGen inside).2
    rw [behind_of_fork fork]
    exact
      { distinct := List.concat_eq_append ▸ (arrives.nodup acyclic).concat new
        all := by
          intro f inside
          rcases List.mem_append.mp inside with before | last
          · exact (arrives.transGen before).1
          · rw [List.mem_singleton.mp last]
            exact fork
        linked := arrives.linked_concat arrives.linked
        reaches := by
          intro f last
          rw [List.getLast?_concat] at last
          cases last
          exact .refl
        own := by simp [fork]
        last := fun _ => List.getLast?_concat }

end Network

end Workflow
