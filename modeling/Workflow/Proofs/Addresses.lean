import Mathlib.Order.RelClasses
import Mathlib.Order.WellFounded

/-!
Addresses of the ends of routes, in the order in which a breadth-first search comes to them: a
shorter route before a longer one, and of two that are equally long the one that turns off first at
the earlier way. Main statements: the order is linear (an instance), of the addresses with a property
one is the first (`exists_first`), and `way_lt_way_iff` says where the ways out of a place are.
-/

namespace Workflow

/-- Which way is taken at the beginning, and at every place on the route. -/
inductive Address where
  | root
  | way (before : Address) (i : Nat)
  deriving DecidableEq, Repr

namespace Address

/-- The order of a breadth-first search. -/
def Precedes : Address → Address → Prop
  | _, root => False
  | root, way _ _ => True
  | way a i, way b j => Precedes a b ∨ a = b ∧ i < j

instance decidablePrecedes : DecidableRel Precedes
  | root, root => isFalse fun before => before
  | way _ _, root => isFalse fun before => before
  | root, way _ _ => isTrue trivial
  | way a i, way b j =>
    have := decidablePrecedes a b
    inferInstanceAs (Decidable (Precedes a b ∨ a = b ∧ i < j))

theorem not_precedes_root (a : Address) : ¬Precedes a root := by
  cases a <;> exact fun before => before

theorem precedes_irrefl (a : Address) : ¬Precedes a a := by
  induction a with
  | root => exact not_precedes_root root
  | way a i ih =>
    rintro (before | ⟨_, less⟩)
    · exact ih before
    · exact Nat.lt_irrefl i less

theorem Precedes.trans {a b c : Address} (first : Precedes a b) (second : Precedes b c) :
    Precedes a c := by
  induction c generalizing a b with
  | root => exact absurd second (not_precedes_root b)
  | way c k ih =>
    cases a with
    | root => trivial
    | way a i =>
      cases b with
      | root => exact absurd first (not_precedes_root _)
      | way b j =>
        rcases first with before | ⟨rfl, less⟩ <;> rcases second with before' | ⟨rfl, less'⟩
        · exact .inl (ih before before')
        · exact .inl before
        · exact .inl before'
        · exact .inr ⟨rfl, less.trans less'⟩

theorem precedes_trichotomous (a b : Address) : Precedes a b ∨ a = b ∨ Precedes b a := by
  induction a generalizing b with
  | root =>
    cases b with
    | root => exact .inr (.inl rfl)
    | way b j => exact .inl trivial
  | way a i ih =>
    cases b with
    | root => exact .inr (.inr trivial)
    | way b j =>
      rcases ih b with before | rfl | after
      · exact .inl (.inl before)
      · rcases Nat.lt_trichotomy i j with less | rfl | more
        · exact .inl (.inr ⟨rfl, less⟩)
        · exact .inr (.inl rfl)
        · exact .inr (.inr (.inr ⟨rfl, more⟩))
      · exact .inr (.inr (.inl after))

instance : IsStrictTotalOrder Address Precedes where
  irrefl := precedes_irrefl
  trans _ _ _ := Precedes.trans
  trichotomous a b := by
    intro first second
    rcases precedes_trichotomous a b with before | same | after
    · exact absurd before first
    · exact same
    · exact absurd after second

instance : LinearOrder Address :=
  linearOrderOfSTO Precedes

variable {a b : Address} {i j : Nat}

/-- Ways out of places are in the order of the places, and out of one place in their own. -/
theorem way_lt_way_iff : a.way i < b.way j ↔ a < b ∨ a = b ∧ i < j :=
  Iff.rfl

theorem root_le (a : Address) : root ≤ a := by
  cases a with
  | root => exact le_refl root
  | way a i => exact le_of_lt (show root < a.way i from trivial)

theorem lt_way (a : Address) (i : Nat) : a < a.way i := by
  induction a generalizing i with
  | root => trivial
  | way a j ih => exact .inl (ih j)

theorem way_le_way (before : a ≤ b) (i : Nat) : a.way i ≤ b.way i := by
  rcases lt_or_eq_of_le before with less | rfl
  · exact le_of_lt (way_lt_way_iff.mpr (.inl less))
  · exact le_refl _

theorem way_zero_le (before : a ≤ b) (i : Nat) : a.way 0 ≤ b.way i := by
  rcases lt_or_eq_of_le before with less | rfl
  · exact le_of_lt (way_lt_way_iff.mpr (.inl less))
  · rcases Nat.eq_zero_or_pos i with rfl | more
    · exact le_refl _
    · exact le_of_lt (way_lt_way_iff.mpr (.inr ⟨rfl, more⟩))

/-- The length of the route. -/
def depth : Address → Nat
  | root => 0
  | way a _ => a.depth + 1

theorem depth_le_of_lt (before : a < b) : a.depth ≤ b.depth := by
  induction b generalizing a with
  | root => exact absurd before (not_precedes_root a)
  | way b j ih =>
    cases a with
    | root => exact Nat.zero_le _
    | way a i =>
      rcases way_lt_way_iff.mp before with less | ⟨rfl, _⟩
      · exact Nat.succ_le_succ (ih less)
      · exact Nat.le_refl _

/-- Shorter routes come first. -/
theorem lt_of_depth_lt (shorter : a.depth < b.depth) : a < b := by
  by_contra behind
  rcases lt_or_eq_of_le (not_lt.mp behind) with less | rfl
  · have := depth_le_of_lt less
    omega
  · exact Nat.lt_irrefl _ shorter

/-- Going back to ever earlier addresses comes to an end. -/
theorem precedes_wf : WellFounded Precedes := by
  have acc_way : ∀ a, Acc Precedes a → ∀ i, Acc Precedes (way a i) := by
    intro a acc
    induction acc with
    | intro a _ ih =>
      intro i
      induction i using Nat.strong_induction_on with
      | _ i ih' =>
        constructor
        intro b before
        cases b with
        | root => exact ⟨_, fun c before' => absurd before' (not_precedes_root c)⟩
        | way b j =>
          rcases before with less | ⟨rfl, less⟩
          · exact ih b less j
          · exact ih' j less
  constructor
  intro a
  induction a with
  | root => exact ⟨_, fun c before => absurd before (not_precedes_root c)⟩
  | way a i ih => exact acc_way a ih i

instance : WellFoundedLT Address :=
  ⟨precedes_wf⟩

/-- Of the addresses with a property, one is the first. -/
theorem exists_first {holds : Address → Prop} (some_ : ∃ a, holds a) :
    ∃ a, holds a ∧ ∀ b, holds b → a ≤ b := by
  obtain ⟨a, fits, least⟩ := precedes_wf.has_min {a | holds a} some_
  exact ⟨a, fits, fun b other => not_lt.mp (least b other)⟩

end Address

end Workflow
