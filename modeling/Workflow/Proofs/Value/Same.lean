import Mathlib
import Workflow.Proofs.Decimal.Rounding
import Workflow.Value.Basic

/-!
Equality of values by structure. On JSON values it is an equivalence relation, and it is implied by
equality of the doubles where the values are numbers. Objects are the same just where they have the
same keys with the same values.
-/

namespace Workflow

open Decimal

/-! ## Relations between lists -/

section Lists

variable {α : Type} {R : α → α → Prop} {xs ys zs : List α}

theorem forall₂_symm_of_mem (symm : ∀ x ∈ xs, ∀ y, R x y → R y x) (related : List.Forall₂ R xs ys) :
    List.Forall₂ R ys xs :=
  List.Forall₂.flip <| ((List.forall₂_and_left _ _).mpr ⟨symm, related⟩).imp
    fun _ _ both => both.1 _ both.2

theorem forall₂_trans_of_mem (trans : ∀ x ∈ xs, ∀ y z, R x y → R y z → R x z)
    (first : List.Forall₂ R xs ys) (second : List.Forall₂ R ys zs) : List.Forall₂ R xs zs := by
  induction first generalizing zs with
  | nil => exact second
  | cons related _ ih =>
    cases second with
    | cons related' others' =>
      refine .cons (trans _ List.mem_cons_self _ _ related related') ?_
      exact ih (fun x inside => trans x (List.mem_cons_of_mem _ inside)) others'

/-- Where all else is related to itself, the lists are related as the items in which they differ. -/
theorem forall₂_around {before after : List α} {x y : α} (self : ∀ a ∈ before ++ after, R a a) :
    List.Forall₂ R (before ++ x :: after) (before ++ y :: after) ↔ R x y := by
  induction before with
  | nil => exact List.forall₂_cons.trans (and_iff_left (List.forall₂_same.mpr self))
  | cons a before ih =>
    obtain ⟨first, others⟩ := List.forall_mem_cons.mp self
    rw [List.cons_append, List.cons_append, List.forall₂_cons, and_iff_right first]
    exact ih others

end Lists

/-! ## Sorted members -/

section Members

variable {α : Type} {R : α → α → Prop} {m n : String × α} {ms ns : List (String × α)} {key : String}
  {value : α}

/-- Two members have the same key and related values. -/
def OnMember (R : α → α → Prop) (m n : String × α) : Prop :=
  m.1 = n.1 ∧ R m.2 n.2

def SortedKeys (ms : List (String × α)) : Prop :=
  ms.Pairwise fun m n => m.1 < n.1

theorem lookup_eq_none_of_lt (above : ∀ m ∈ ms, key < m.1) : ms.lookup key = none :=
  List.lookup_eq_none_iff.mpr fun m inside => bne_iff_ne.mpr (above m inside).ne

theorem SortedKeys.tail (sorted : SortedKeys (m :: ms)) : SortedKeys ms :=
  (List.pairwise_cons.mp sorted).2

theorem SortedKeys.lookup_first (sorted : SortedKeys (m :: ms)) : ms.lookup m.1 = none :=
  lookup_eq_none_of_lt (List.pairwise_cons.mp sorted).1

/-- The first key is the least. -/
theorem SortedKeys.le_of_lookup (sorted : SortedKeys (m :: ms))
    (found : (m :: ms).lookup key = some value) : m.1 ≤ key := by
  by_contra below
  have above : ∀ n ∈ m :: ms, key < n.1 := by
    rw [List.forall_mem_cons]
    exact ⟨not_le.mp below, fun n inside =>
      (not_le.mp below).trans ((List.pairwise_cons.mp sorted).1 n inside)⟩
  rw [lookup_eq_none_of_lt above] at found
  cases found

/-- Related entries are there in both places or in neither. -/
theorem rel_iff {o o' : Option α} : Option.Rel R o o' ↔
    o.isSome = o'.isSome ∧ ∀ v w, o = some v → o' = some w → R v w := by
  constructor
  · intro related
    cases related with
    | some related =>
      refine ⟨rfl, ?_⟩
      rintro _ _ ⟨⟩ ⟨⟩
      exact related
    | none =>
      refine ⟨rfl, ?_⟩
      rintro _ _ ⟨⟩
  · intro ⟨there, related⟩
    cases o with
    | none =>
      cases o' with
      | none => exact .none
      | some w => exact absurd there Bool.false_ne_true
    | some v =>
      cases o' with
      | none => exact absurd there.symm Bool.false_ne_true
      | some w => exact .some (related v w rfl rfl)

/-- Sorted members are related one by one just where the keys are the same and the values related
key by key. -/
theorem forall₂_onMember_iff (sorted : SortedKeys ms) (sorted' : SortedKeys ns) :
    List.Forall₂ (OnMember R) ms ns ↔ ∀ key, Option.Rel R (ms.lookup key) (ns.lookup key) := by
  constructor
  · intro related key
    induction related with
    | nil => exact .none
    | @cons m n ms ns first _ ih =>
      rw [List.lookup_cons, List.lookup_cons, ← first.1]
      split
      · exact .some first.2
      · exact ih sorted.tail sorted'.tail
  · intro related
    induction ms generalizing ns with
    | nil =>
      cases ns with
      | nil => exact .nil
      | cons n ns =>
        have here := related n.1
        rw [List.lookup_cons_self] at here
        cases here
    | cons m ms ih =>
      cases ns with
      | nil =>
        have here := related m.1
        rw [List.lookup_cons_self] at here
        cases here
      | cons n ns =>
        -- Each first key is among the other keys, so neither is below the other.
        obtain ⟨there, first⟩ := rel_iff.mp (related m.1)
        obtain ⟨there', -⟩ := rel_iff.mp (related n.1)
        rw [List.lookup_cons_self] at there there'
        obtain ⟨w, found⟩ := Option.isSome_iff_exists.mp there.symm
        obtain ⟨v, found'⟩ := Option.isSome_iff_exists.mp there'
        have same : m.1 = n.1 := le_antisymm (sorted.le_of_lookup found') (sorted'.le_of_lookup found)
        refine .cons ⟨same, ?_⟩ (ih sorted.tail sorted'.tail fun key => ?_)
        · exact first m.2 n.2 List.lookup_cons_self (by rw [same, List.lookup_cons_self])
        · by_cases here : key = m.1
          · rw [here, sorted.lookup_first, same, sorted'.lookup_first]
            exact .none
          · have later := related key
            rwa [List.lookup_cons, List.lookup_cons, ← same, beq_false_of_ne here] at later

end Members

namespace Value

variable {u v w : Value}

/-- Induction over values: what holds of a value as soon as it holds of its items or members holds
of all. -/
@[elab_as_elim]
theorem induction {motive : Value → Prop} (null : motive null) (bool : ∀ b, motive (bool b))
    (number : ∀ n, motive (number n)) (string : ∀ s, motive (string s))
    (list : ∀ items, (∀ item ∈ items, motive item) → motive (list items))
    (object : ∀ members, (∀ m ∈ members, motive m.2) → motive (object members)) : ∀ v, motive v
  | .null => null
  | .bool b => bool b
  | .number n => number n
  | .string s => string s
  | .list items => list items fun item _ => induction null bool number string list object item
  | .object members => object members fun m inside =>
    have := List.sizeOf_lt_of_mem inside
    induction null bool number string list object m.2
decreasing_by
  · decreasing_tactic
  · cases m
    simp only [Value.object.sizeOf_spec, Prod.mk.sizeOf_spec] at *
    omega

/-- What JSON can hold: doubles that are finite, and objects with their keys in order. -/
inductive IsJson : Value → Prop where
  | null : IsJson null
  | bool (b : Bool) : IsJson (bool b)
  | whole (n : Whole) : IsJson (ofWhole n)
  | float {x : Float} (finite : x.isFinite = true) : IsJson (number (.float x))
  | string (s : String) : IsJson (string s)
  | list {items : List Value} (json : ∀ item ∈ items, IsJson item) : IsJson (list items)
  | object {members : List (String × Value)} (sorted : SortedKeys members)
    (json : ∀ m ∈ members, IsJson m.2) : IsJson (object members)

/-- Lists are equal item by item. -/
theorem sameItems_iff {xs ys : List Value} :
    sameItems xs ys = true ↔ List.Forall₂ (fun v w => same v w = true) xs ys := by
  induction xs generalizing ys with
  | nil => cases ys <;> simp [sameItems]
  | cons x xs ih => cases ys <;> simp [sameItems, ih]

/-- Sorted members are equal key by key. -/
theorem sameMembers_iff {ms ns : List (String × Value)} :
    sameMembers ms ns = true ↔ List.Forall₂ (OnMember fun v w => same v w = true) ms ns := by
  induction ms generalizing ns with
  | nil => cases ns <;> simp [sameMembers]
  | cons m ms ih => cases ns <;> simp [sameMembers, ih, OnMember]

end Value

/-! ## Numbers -/

section Numbers

variable {a b c : Number}

namespace Number

theorem toFloat_beq_of_same (equal : a.same b = true) : (a.toFloat == b.toFloat) = true := by
  cases a with
  | whole m =>
    cases b with
    | whole n => exact (beq_nearestInt_iff m n).mpr (congrArg roundInt (beq_iff_eq.mp equal))
    | float y => cases equal
  | float x =>
    cases b with
    | whole n => cases equal
    | float y => exact equal

theorem same_symm (equal : a.same b = true) : b.same a = true := by
  cases a with
  | whole m =>
    cases b with
    | whole n => exact beq_iff_eq.mpr (beq_iff_eq.mp equal).symm
    | float y => cases equal
  | float x =>
    cases b with
    | whole n => cases equal
    | float y => exact beq_symm equal

theorem same_trans (first : a.same b = true) (second : b.same c = true) : a.same c = true := by
  cases a <;> cases b <;> cases c <;> try contradiction
  · exact beq_iff_eq.mpr ((beq_iff_eq.mp first).trans (beq_iff_eq.mp second))
  · exact beq_trans first second

end Number

end Numbers

/-! ## Equality by structure -/

namespace Value

variable {u v w : Value}

theorem IsJson.same_self (json : v.IsJson) : same v v = true := by
  induction json with
  | null => rfl
  | bool b => exact beq_self_eq_true b
  | whole n => exact beq_self_eq_true n.val
  | float finite => exact beq_self_of_finite finite
  | string s => exact beq_self_eq_true s
  | list _ ih => exact sameItems_iff.mpr (List.forall₂_same.mpr ih)
  | object _ _ ih => exact sameMembers_iff.mpr (List.forall₂_same.mpr fun m inside => ⟨rfl, ih m inside⟩)

theorem same_symm (equal : same v w = true) : same w v = true := by
  induction v using induction generalizing w with
  | null => cases w <;> first | rfl | cases equal
  | bool a =>
    cases w with
    | bool b => exact beq_iff_eq.mpr (beq_iff_eq.mp equal).symm
    | _ => cases equal
  | number a =>
    cases w with
    | number b => exact Number.same_symm equal
    | _ => cases equal
  | string a =>
    cases w with
    | string b => exact beq_iff_eq.mpr (beq_iff_eq.mp equal).symm
    | _ => cases equal
  | list xs ih =>
    cases w with
    | list ys =>
      refine sameItems_iff.mpr (forall₂_symm_of_mem ?_ (sameItems_iff.mp equal))
      exact fun x inside _ => ih x inside
    | _ => cases equal
  | object ms ih =>
    cases w with
    | object ns =>
      refine sameMembers_iff.mpr (forall₂_symm_of_mem ?_ (sameMembers_iff.mp equal))
      exact fun m inside n related => ⟨related.1.symm, ih m inside related.2⟩
    | _ => cases equal

theorem same_trans (first : same u v = true) (second : same v w = true) : same u w = true := by
  induction u using induction generalizing v w with
  | null => cases v <;> first | exact second | cases first
  | bool a =>
    cases v with
    | bool b => rwa [beq_iff_eq.mp first]
    | _ => cases first
  | number a =>
    cases v with
    | number b =>
      cases w with
      | number c => exact Number.same_trans first second
      | _ => cases second
    | _ => cases first
  | string a =>
    cases v with
    | string b => rwa [beq_iff_eq.mp first]
    | _ => cases first
  | list xs ih =>
    cases v with
    | list ys =>
      cases w with
      | list zs =>
        refine sameItems_iff.mpr
          (forall₂_trans_of_mem ?_ (sameItems_iff.mp first) (sameItems_iff.mp second))
        exact fun x inside _ _ => ih x inside
      | _ => cases second
    | _ => cases first
  | object ms ih =>
    cases v with
    | object ns =>
      cases w with
      | object ps =>
        refine sameMembers_iff.mpr
          (forall₂_trans_of_mem ?_ (sameMembers_iff.mp first) (sameMembers_iff.mp second))
        exact fun m inside _ _ related related' =>
          ⟨related.1.trans related'.1, ih m inside related.2 related'.2⟩
      | _ => cases second
    | _ => cases first

end Value

end Workflow
