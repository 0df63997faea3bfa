import Mathlib.Data.Set.Finite.List
import Mathlib.Logic.Relation
import Mathlib.Order.WellFounded
import Workflow.Worklist

/-!
The search finds exactly what can be reached: its nodes are the ends of the paths that start at a
pending node and stay among the remaining nodes. Where nothing is reached from itself, nodes can be
taken up in the order in which they lead to each other (`acyclic_induction`).
-/

namespace Workflow

variable {α : Type} {next : α → List α} {nodes pending : List α}

/-- A step along `next` to one of the nodes. -/
def Within (next : α → List α) (nodes : List α) (a b : α) : Prop :=
  b ∈ next a ∧ b ∈ nodes

/-- The ends of the paths that start at a pending node and stay among the nodes. -/
inductive Reachable (next : α → List α) (nodes pending : List α) : α → Prop where
  | start {x : α} (known : x ∈ nodes) (asked : x ∈ pending) : Reachable next nodes pending x
  | follow {x y : α} (before : Reachable next nodes pending x) (step : Within next nodes x y) :
      Reachable next nodes pending y

private theorem reachable_cons_of_not_mem {x y : α} (unknown : x ∉ nodes) :
    Reachable next nodes (x :: pending) y ↔ Reachable next nodes pending y := by
  constructor
  · intro reached
    induction reached with
    | start known asked =>
      rcases List.mem_cons.mp asked with rfl | waiting
      · exact absurd known unknown
      · exact .start known waiting
    | follow _ step ih => exact .follow ih step
  · intro reached
    induction reached with
    | start known asked => exact .start known (List.mem_cons_of_mem _ asked)
    | follow _ step ih => exact .follow ih step

/-- Among finitely many nodes that lead back to themselves on no way, a property of each node can be
had from those of the nodes before it. -/
@[elab_as_elim]
theorem acyclic_induction {leads : α → α → Prop} {motive : α → Prop}
    (acyclic : ∀ a ∈ nodes, ¬Relation.TransGen leads a a)
    (step : ∀ a ∈ nodes, (∀ b ∈ nodes, leads b a → motive b) → motive a) {a : α} (known : a ∈ nodes) :
    motive a := by
  -- The order in which nodes lead to each other; it is irreflexive, for a finite number of nodes.
  let before (a b : { a // a ∈ nodes }) : Prop := Relation.TransGen leads a.1 b.1
  have transitive : IsTrans _ before := ⟨fun _ _ _ => .trans⟩
  have irreflexive : Std.Irrefl before := ⟨fun a cycle => acyclic a.1 a.2 cycle⟩
  have finite : Finite { a // a ∈ nodes } := nodes.finite_toSet.to_subtype
  have wf : WellFounded before := Finite.wellFounded_of_trans_of_irrefl before
  have all : ∀ a : { a // a ∈ nodes }, motive a.1 := by
    intro a
    induction a using wf.induction with
    | _ a ih => exact step a.1 a.2 fun b inside link => ih ⟨b, inside⟩ (.single link)
  exact all ⟨a, known⟩

variable [DecidableEq α]

/-- What is reached after a node was taken out is reached with it, too. -/
private theorem reachable_of_erase {x y : α} (known : x ∈ nodes)
    (reached : Reachable next (nodes.erase x) (next x ++ pending) y) :
    Reachable next nodes (x :: pending) y := by
  induction reached with
  | start kept asked =>
    have inside := List.mem_of_mem_erase kept
    rcases List.mem_append.mp asked with behind | waiting
    · exact .follow (.start known List.mem_cons_self) ⟨behind, inside⟩
    · exact .start inside (List.mem_cons_of_mem _ waiting)
  | follow _ step ih => exact .follow ih ⟨step.1, List.mem_of_mem_erase step.2⟩

/-- A path to another node need not come back to the first: it is cut behind its last visit. -/
private theorem reachable_erase {x y : α} (other : y ≠ x)
    (reached : Reachable next nodes (x :: pending) y) :
    Reachable next (nodes.erase x) (next x ++ pending) y := by
  induction reached with
  | start known asked =>
    have kept := (List.mem_erase_of_ne other).mpr known
    rcases List.mem_cons.mp asked with same | waiting
    · exact absurd same other
    · exact .start kept (List.mem_append_right _ waiting)
  | @follow z y _ step ih =>
    have kept := (List.mem_erase_of_ne other).mpr step.2
    by_cases same : z = x
    · subst same
      exact .start kept (List.mem_append_left _ step.1)
    · exact .follow (ih same) ⟨step.1, kept⟩

theorem mem_reach_iff {y : α} : y ∈ reach next nodes pending ↔ Reachable next nodes pending y := by
  fun_induction reach next nodes pending with
  | case1 nodes =>
    constructor
    · intro found
      cases found
    · intro reached
      induction reached with
      | start _ asked => cases asked
      | follow _ _ ih => cases ih
  | case2 nodes x pending known ih =>
    constructor
    · intro found
      rcases List.mem_cons.mp found with rfl | later
      · exact .start known List.mem_cons_self
      · exact reachable_of_erase known (ih.mp later)
    · intro reached
      by_cases same : y = x
      · exact List.mem_cons.mpr (.inl same)
      · exact List.mem_cons.mpr (.inr (ih.mpr (reachable_erase same reached)))
  | case3 nodes x pending unknown ih => rw [ih, reachable_cons_of_not_mem unknown]

/-- The search depends on which nodes there are, and not on their order. -/
theorem reach_eq_of_perm {nodes' : List α} (perm : nodes.Perm nodes') :
    reach next nodes pending = reach next nodes' pending := by
  fun_induction reach next nodes pending generalizing nodes' with
  | case1 nodes => simp [reach]
  | case2 nodes x pending known ih =>
    rw [reach, if_pos (perm.mem_iff.mp known), ih (perm.erase x)]
  | case3 nodes x pending unknown ih =>
    rw [reach, if_neg fun known => unknown (perm.mem_iff.mpr known), ih perm]

/-- A search from the neighbours of a node finds what a path of one step or more leads to. -/
theorem mem_reach_next_iff {x y : α} :
    y ∈ reach next nodes (next x) ↔ Relation.TransGen (Within next nodes) x y := by
  rw [mem_reach_iff]
  constructor
  · intro reached
    induction reached with
    | start known asked => exact .single ⟨asked, known⟩
    | follow _ step ih => exact .tail ih step
  · intro path
    induction path with
    | single step => exact .start step.2 step.1
    | tail _ step ih => exact .follow ih step

end Workflow
