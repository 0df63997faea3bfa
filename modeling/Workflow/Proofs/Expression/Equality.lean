import Mathlib
import Workflow.Proofs.Expression.Comparison
import Workflow.Proofs.Value.Same

/-!
Equality of values. Two numbers are equal when their doubles are, and all else by structure, in which
numbers of different kinds differ. So equality is an equivalence relation, but the items of two lists
can be equal one by one where the lists are not: just where two of them are numbers of the same value
that differ by structure.
-/

namespace Workflow

open Decimal

namespace Expression

variable {data u v w : Value} {l r : Expression}

/-- Two numbers whose doubles are equal, but which differ by structure: they are of different kinds, or
different whole numbers that are rounded to the same. -/
def Mixed (v w : Value) : Prop :=
  ∃ a b : Number, v = .number a ∧ w = .number b ∧ (a.toFloat == b.toFloat) = true ∧ a.same b = false

theorem equals_of_ne_number (other : ∀ a, v ≠ .number a) (w : Value) : equals v w = v.same w := by
  cases v with
  | number a => exact absurd rfl (other a)
  | _ => rfl

theorem equals_of_number_left {a : Number} (other : ∀ b, w ≠ .number b) :
    equals (.number a) w = false := by
  cases w with
  | number b => exact absurd rfl (other b)
  | _ => rfl

theorem exists_number_or (v : Value) : (∃ a, v = .number a) ∨ ∀ a, v ≠ .number a := by
  rw [← not_exists]
  exact em _

/-- Values are the same by structure just if they are equal, and not two numbers of different kinds.
-/
theorem same_iff_equals (v w : Value) : v.same w = true ↔ equals v w = true ∧ ¬Mixed v w := by
  obtain ⟨a, rfl⟩ | other := exists_number_or v
  · cases w with
    | number b =>
      constructor
      · intro equal
        refine ⟨Number.toFloat_beq_of_same equal, ?_⟩
        rintro ⟨_, _, ⟨⟩, ⟨⟩, -, differ⟩
        exact Bool.false_ne_true (differ.symm.trans equal)
      · intro ⟨equal, unmixed⟩
        by_contra differ
        exact unmixed ⟨a, b, rfl, rfl, equal, Bool.eq_false_iff.mpr differ⟩
    | _ =>
      exact ⟨fun equal => absurd equal Bool.false_ne_true,
        fun equal => absurd equal.1 Bool.false_ne_true⟩
  · rw [equals_of_ne_number other]
    exact ⟨fun equal => ⟨equal, fun ⟨a, _, number, _⟩ => other a number⟩, And.left⟩

/-- Numbers are equal as doubles, all other values by structure. -/
theorem equals_iff : equals v w = true ↔
    (∃ a b : Number, v = .number a ∧ w = .number b ∧ (a.toFloat == b.toFloat) = true) ∨
      (∀ a, v ≠ .number a) ∧ (∀ b, w ≠ .number b) ∧ v.same w = true := by
  obtain ⟨a, rfl⟩ | other := exists_number_or v
  · obtain ⟨b, rfl⟩ | other' := exists_number_or w
    · simp [equals]
    · rw [equals_of_number_left other']
      simp [other']
  · rw [equals_of_ne_number other]
    obtain ⟨b, rfl⟩ | other' := exists_number_or w
    · have differ : v.same (.number b) = false := by
        cases v with
        | number a => exact absurd rfl (other a)
        | _ => rfl
      simp [other, differ]
    · simp [other, other']

/-! ## An equivalence -/

theorem equals_self (json : v.IsJson) : equals v v = true :=
  ((same_iff_equals v v).mp json.same_self).1

theorem equals_symm (equal : equals v w = true) : equals w v = true := by
  rw [equals_iff] at *
  obtain ⟨a, b, rfl, rfl, close⟩ | ⟨other, other', same⟩ := equal
  · exact .inl ⟨b, a, rfl, rfl, beq_symm close⟩
  · exact .inr ⟨other', other, Value.same_symm same⟩

/-- Equality is transitive: numbers are equal to numbers only. -/
theorem equals_trans (first : equals u v = true) (second : equals v w = true) : equals u w = true := by
  rw [equals_iff] at *
  obtain ⟨a, b, rfl, rfl, close⟩ | ⟨other, middle, same⟩ := first
  · obtain ⟨_, c, ⟨⟩, rfl, close'⟩ | ⟨middle, -⟩ := second
    · exact .inl ⟨a, c, rfl, rfl, beq_trans close close'⟩
    · exact absurd rfl (middle b)
  · obtain ⟨b, _, rfl, -⟩ | ⟨-, other', same'⟩ := second
    · exact absurd rfl (middle b)
    · exact .inr ⟨other, other', Value.same_trans same same'⟩

/-! ## Lists and objects -/

section Containers

variable {xs ys : List Value} {ms ns : List (String × Value)}

/-- The lists are equal just where they are of one length and their items are equal one by one. -/
def ListLaw (xs ys : List Value) : Prop :=
  equals (.list xs) (.list ys) = true ↔ List.Forall₂ (fun v w => equals v w = true) xs ys

/-- The objects are equal just where they have the same keys and their values are equal key by key. -/
def ObjectLaw (ms ns : List (String × Value)) : Prop :=
  equals (.object ms) (.object ns) = true ↔
    ∀ key, Option.Rel (fun v w => equals v w = true) (ms.lookup key) (ns.lookup key)

/-- The law of lists fails just where the items are equal one by one, but two of them are mixed. -/
theorem listLaw_iff : ListLaw xs ys ↔
    (List.Forall₂ (fun v w => equals v w = true) xs ys → ∀ p ∈ xs.zip ys, ¬Mixed p.1 p.2) := by
  have equal : equals (.list xs) (.list ys) = true ↔ List.Forall₂ (fun v w => v.same w = true) xs ys :=
    Value.sameItems_iff
  unfold ListLaw
  rw [equal]
  constructor
  · intro law items p inside
    have same := (List.forall₂_iff_zip.mp (law.mpr items)).2 inside
    exact ((same_iff_equals p.1 p.2).mp same).2
  · intro unmixed
    constructor
    · exact List.Forall₂.imp fun v w same => ((same_iff_equals v w).mp same).1
    · intro items
      obtain ⟨lengths, pairs⟩ := List.forall₂_iff_zip.mp items
      refine List.forall₂_iff_zip.mpr ⟨lengths, fun {v w} inside => ?_⟩
      exact (same_iff_equals v w).mpr ⟨pairs inside, unmixed items (v, w) inside⟩

/-- The law of objects fails just where their values are equal key by key, but two of them are mixed. -/
theorem objectLaw_iff (sorted : SortedKeys ms) (sorted' : SortedKeys ns) : ObjectLaw ms ns ↔
    ((∀ key, Option.Rel (fun v w => equals v w = true) (ms.lookup key) (ns.lookup key)) →
      ∀ key v w, ms.lookup key = some v → ns.lookup key = some w → ¬Mixed v w) := by
  have equal : equals (.object ms) (.object ns) = true ↔
      ∀ key, Option.Rel (fun v w => v.same w = true) (ms.lookup key) (ns.lookup key) :=
    Value.sameMembers_iff.trans (forall₂_onMember_iff sorted sorted')
  unfold ObjectLaw
  rw [equal]
  constructor
  · intro law values key v w found found'
    have same := (rel_iff.mp (law.mpr values key)).2 v w found found'
    exact ((same_iff_equals v w).mp same).2
  · intro unmixed
    constructor
    · intro same key
      obtain ⟨keys, pairs⟩ := rel_iff.mp (same key)
      refine rel_iff.mpr ⟨keys, fun v w found found' => ?_⟩
      exact ((same_iff_equals v w).mp (pairs v w found found')).1
    · intro values key
      obtain ⟨keys, pairs⟩ := rel_iff.mp (values key)
      refine rel_iff.mpr ⟨keys, fun v w found found' => ?_⟩
      exact (same_iff_equals v w).mpr ⟨pairs v w found found', unmixed values key v w found found'⟩

end Containers

/-! ## Wrappings -/

/-- A list with an item left open, or an object with the value of a member left open. -/
inductive Wrapping where
  | item (before after : List Value)
  | member (before : List (String × Value)) (key : String) (after : List (String × Value))

/-- The wrapping with the value filled in. -/
def Wrapping.around (v : Value) : Wrapping → Value
  | item before after => .list (before ++ v :: after)
  | member before key after => .object (before ++ (key, v) :: after)

/-- The value within wrappings, the first of them outermost. -/
def wrap (wrappings : List Wrapping) (v : Value) : Value :=
  wrappings.foldr (fun wrapping v => wrapping.around v) v

section Wrappings

variable {wrapping : Wrapping} {wrappings : List Wrapping}

/-- A wrapping that is JSON around any value answers for what it is around. -/
theorem same_around (json : (wrapping.around u).IsJson) :
    (wrapping.around v).same (wrapping.around w) = v.same w := by
  rw [Bool.eq_iff_iff]
  cases wrapping with
  | item before after =>
    cases json with
    | list json =>
      refine Value.sameItems_iff.trans (forall₂_around fun item inside => (json item ?_).same_self)
      simp only [List.mem_append, List.mem_cons] at *
      tauto
  | member before key after =>
    cases json with
    | object _ json =>
      have others : ∀ m ∈ before ++ after, OnMember (fun v w => v.same w = true) m m := by
        refine fun m inside => ⟨rfl, (json m ?_).same_self⟩
        simp only [List.mem_append, List.mem_cons] at *
        tauto
      exact (Value.sameMembers_iff.trans (forall₂_around others)).trans (and_iff_right rfl)

/-- Wrapped values are the same just if the values are. -/
theorem same_wrap (json : ∀ wrapping ∈ wrappings, (wrapping.around .null).IsJson) :
    (wrap wrappings v).same (wrap wrappings w) = v.same w := by
  induction wrappings with
  | nil => rfl
  | cons wrapping wrappings ih =>
    obtain ⟨first, others⟩ := List.forall_mem_cons.mp json
    exact (same_around first).trans (ih others)

/-- Around two values, wrappings leave the answer as it is just where the values are not mixed. -/
theorem equals_wrap_iff (nonempty : wrappings ≠ [])
    (json : ∀ wrapping ∈ wrappings, (wrapping.around .null).IsJson) :
    equals (wrap wrappings v) (wrap wrappings w) = equals v w ↔ ¬Mixed v w := by
  have wrapped : ∀ a, wrap wrappings v ≠ .number a := by
    cases wrappings with
    | nil => exact absurd rfl nonempty
    | cons wrapping wrappings => cases wrapping <;> exact fun a number => Value.noConfusion number
  rw [equals_of_ne_number wrapped, same_wrap json, Bool.eq_iff_iff, same_iff_equals]
  constructor
  · rintro answers mixed
    obtain ⟨a, b, rfl, rfl, close, -⟩ := id mixed
    exact (answers.mpr close).2 mixed
  · exact fun unmixed => and_iff_left unmixed

end Wrappings

/-! ## The laws of equality -/

theorem evaluate_equal (left : evaluate data l = .ok v) (right : evaluate data r = .ok w) :
    evaluate data (.binary .equal l r) = .ok (.bool (equals v w)) :=
  evaluate_binary (by decide) left right

/-- The operator of equality answers for any two values, and what it answers is an equivalence
relation on JSON values. Its answers for lists and objects follow from those for the items and the
values just where no two of these that are equal are mixed, and so do its answers for values within
wrappings. -/
theorem equality_laws (left : evaluate data l = .ok v) (right : evaluate data r = .ok w) :
    evaluate data (.binary .equal l r) = .ok (.bool (equals v w)) ∧
      (Equivalence fun v w : {v : Value // v.IsJson} => equals v.1 w.1 = true) ∧
      (∀ xs ys, ListLaw xs ys ↔
        (List.Forall₂ (fun v w => equals v w = true) xs ys → ∀ p ∈ xs.zip ys, ¬Mixed p.1 p.2)) ∧
      (∀ ms ns, (Value.object ms).IsJson → (Value.object ns).IsJson → (ObjectLaw ms ns ↔
        ((∀ key, Option.Rel (fun v w => equals v w = true) (ms.lookup key) (ns.lookup key)) →
          ∀ key v w, ms.lookup key = some v → ns.lookup key = some w → ¬Mixed v w))) ∧
      ∀ wrappings, wrappings ≠ [] → (∀ wrapping ∈ wrappings, (wrapping.around .null).IsJson) →
        (equals (wrap wrappings v) (wrap wrappings w) = equals v w ↔ ¬Mixed v w) := by
  refine ⟨evaluate_equal left right, ⟨fun v => equals_self v.2, equals_symm, equals_trans⟩,
    fun _ _ => listLaw_iff, fun ms ns json json' => ?_,
    fun _ nonempty json => equals_wrap_iff nonempty json⟩
  cases json with
  | object sorted _ =>
    cases json' with
    | object sorted' _ => exact objectLaw_iff sorted sorted'

def one : Value := .ofWhole ⟨1, by decide⟩

def oneDouble : Value := .number (.float 1.0)

theorem one_mixed : Mixed one oneDouble :=
  ⟨.whole ⟨1, by decide⟩, .float 1.0, rfl, rfl, by decide +kernel, rfl⟩

theorem one_equals : equals one oneDouble = true := by
  obtain ⟨a, b, left, right, close, -⟩ := one_mixed
  exact equals_iff.mpr (.inl ⟨a, b, left, right, close⟩)

theorem one_isJson : one.IsJson :=
  .whole _

theorem oneDouble_isJson : oneDouble.IsJson :=
  .float (by decide +kernel)

def oneTwice : Value :=
  .object [("x", one), ("y", oneDouble)]

/-- The two are equal by themselves. In lists, in objects and within wrappings they are not. -/
theorem oneTwice_laws :
    evaluate oneTwice (.binary .equal (.var "x") (.var "y")) = .ok (.bool true) ∧
      ListLaw [one] [one] ∧ ¬ListLaw [one] [oneDouble] ∧
      ¬ObjectLaw [("k", one)] [("k", oneDouble)] ∧
      equals (wrap [.item [.null] [], .member [] "k" []] one)
        (wrap [.item [.null] [], .member [] "k" []] oneDouble) = false := by
  have left : evaluate oneTwice (.var "x") = .ok one := rfl
  have right : evaluate oneTwice (.var "y") = .ok oneDouble := rfl
  obtain ⟨answers, equivalence, lists, objects, wrapped⟩ := equality_laws left right
  have json : ∀ {v : Value}, v.IsJson → (Value.object [("k", v)]).IsJson := fun json =>
    .object (List.pairwise_singleton _ _) (by simpa using json)
  have pairs : List.Forall₂ (fun v w => equals v w = true) [one] [oneDouble] := .cons one_equals .nil
  refine ⟨?_, (lists _ _).mpr fun _ => ?_, fun law => ?_, fun law => ?_, ?_⟩
  · rw [answers, one_equals]
  · rintro p inside ⟨a, b, left, right, -, differ⟩
    obtain rfl := List.mem_singleton.mp inside
    cases left
    cases right
    exact absurd differ (by decide)
  · exact (lists _ _).mp law pairs (one, oneDouble) (List.mem_singleton_self _) one_mixed
  · refine (objects _ _ (json one_isJson) (json oneDouble_isJson)).mp law (fun key => ?_) "k" one
      oneDouble rfl rfl one_mixed
    rw [List.lookup_cons, List.lookup_cons]
    split
    · exact .some one_equals
    · exact .none
  · have around := wrapped [.item [.null] [], .member [] "k" []] (List.cons_ne_nil _ _)
      (fun c inside => ?_)
    · exact Bool.eq_false_iff.mpr fun equal => around.mp (equal.trans one_equals.symm) one_mixed
    · obtain rfl | inside := List.mem_cons.mp inside
      · exact .list (by simp [Value.IsJson.null])
      · obtain rfl := List.mem_singleton.mp inside
        exact json .null

/-- Lists with the two as their items are not equal. -/
theorem oneInLists_differ :
    Delimited.percent.evaluate "<% x = y %>" oneTwice = .ok (.bool true) ∧
      Delimited.percent.evaluate "<% [x] = [y] %>" oneTwice = .ok (.bool false) := by
  have cut : Delimited.percent.segments "<% x = y %>" = .ok ([⟨[], " x = y ".toList⟩], []) := by cbv
  have cutLists : Delimited.percent.segments "<% [x] = [y] %>" =
      .ok ([⟨[], " [x] = [y] ".toList⟩], []) := by cbv
  constructor
  · refine Delimited.evaluate_alone cut (by cbv) (e := .binary .equal (.var "x") (.var "y")) (by cbv) ?_
    rw [evaluate_equal (v := one) (w := oneDouble) rfl rfl, one_equals]
  · refine Delimited.evaluate_alone cutLists (by cbv)
      (e := .binary .equal (.list [.var "x"]) (.list [.var "y"])) (by cbv) ?_
    exact evaluate_equal (v := .list [one]) (w := .list [oneDouble]) rfl rfl

end Expression

end Workflow
