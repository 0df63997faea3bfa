import Workflow.Composition.Expansion

/-!
The ids of the nodes of an expansion: two arrivals get one id only if they are at one task, behind
forks of which the last have one number.
-/

namespace Workflow.Composition

open Workflow.Graph (Split)

/-- No id is another one followed by two underscores and a number. -/
def Separated (ids : List String) : Prop :=
  ∀ a ∈ ids, ∀ b ∈ ids, ∀ n : Nat, a ≠ b ++ "__" ++ toString n

theorem separated_of_not_mem {ids : List String} (free : ∀ a ∈ ids, '_' ∉ a.toList) :
    Separated ids := by
  intro a inside b _ n same
  refine free a inside ?_
  rw [same]
  simp [String.toList_append]

theorem Separated.mono {ids ids' : List String} (separated : Separated ids') (part : ids ⊆ ids') :
    Separated ids :=
  fun a inside b inside' n => separated a (part inside) b (part inside') n

namespace Expansion

/-- The number of the innermost fork. -/
def lastNumber (splits : List Split) : Option Nat :=
  splits.getLast?.map Split.instance_

@[simp] theorem lastNumber_nil : lastNumber [] = none := rfl

@[simp] theorem lastNumber_append (splits : List Split) (s : Split) :
    lastNumber (splits ++ [s]) = some s.instance_ := by
  simp [lastNumber]

private theorem split_at_last {α : Type} {c : α} {xs ys ds es : List α} (ds_free : c ∉ ds)
    (es_free : c ∉ es) (same : xs ++ c :: ds = ys ++ c :: es) : xs = ys ∧ ds = es := by
  rcases List.append_eq_append_iff.mp same with ⟨between, rfl, rest⟩ | ⟨between, rfl, rest⟩
  · cases between with
    | nil => exact ⟨by simp, by simpa using rest⟩
    | cons d between =>
      obtain ⟨rfl, rfl⟩ := List.cons.inj rest
      exact absurd (by simp) ds_free
  · cases between with
    | nil => exact ⟨by simp, by simpa using rest.symm⟩
    | cons d between =>
      obtain ⟨rfl, rfl⟩ := List.cons.inj rest
      exact absurd (by simp) es_free

/-- The underscore before a number is the last one of an id, since numbers have digits only. -/
theorem numbered_inj {a b : String} {m n : Nat}
    (same : a ++ "__" ++ toString m = b ++ "__" ++ toString n) : a = b ∧ m = n := by
  have lists : (a.toList ++ ['_']) ++ '_' :: Nat.toDigits 10 m =
      (b.toList ++ ['_']) ++ '_' :: Nat.toDigits 10 n := by
    have lists := congrArg String.toList same
    simpa [String.toList_append] using lists
  obtain ⟨names, digits⟩ :=
    split_at_last Nat.underscore_not_in_toDigits Nat.underscore_not_in_toDigits lists
  refine ⟨String.toList_inj.mp (List.append_cancel_right names), ?_⟩
  have read := congrArg (fun digits => Nat.ofDigitChars 10 digits 0) digits
  simpa only [Nat.ofDigitChars_ten_toDigits] using read

theorem nodeId_of_lastNumber_none {splits : List Split} (task : String)
    (none_ : lastNumber splits = none) : nodeId task splits = task := by
  unfold lastNumber at none_
  unfold nodeId
  rw [Option.map_eq_none_iff.mp none_]

theorem nodeId_of_lastNumber_some {splits : List Split} {k : Nat} (task : String)
    (some_ : lastNumber splits = some k) :
    nodeId task splits = task ++ "__" ++ toString k := by
  unfold lastNumber at some_
  unfold nodeId
  obtain ⟨s, last, rfl⟩ := Option.map_eq_some_iff.mp some_
  rw [last]

/-- The id depends on the forks by the number of the last one only. -/
theorem nodeId_congr {a b : List Split} (task : String) (same : lastNumber a = lastNumber b) :
    nodeId task a = nodeId task b := by
  cases number : lastNumber b with
  | none => rw [nodeId_of_lastNumber_none task (same.trans number),
      nodeId_of_lastNumber_none task number]
  | some k => rw [nodeId_of_lastNumber_some task (same.trans number),
      nodeId_of_lastNumber_some task number]

/-- Among separated ids, the id of a node tells its task and its innermost number. -/
theorem nodeId_inj {ids : List String} (separated : Separated ids) {t u : String} (known : t ∈ ids)
    (known' : u ∈ ids) {a b : List Split} (same : nodeId t a = nodeId u b) :
    t = u ∧ lastNumber a = lastNumber b := by
  cases first : lastNumber a with
  | none =>
    rw [nodeId_of_lastNumber_none t first] at same
    cases second : lastNumber b with
    | none =>
      rw [nodeId_of_lastNumber_none u second] at same
      exact ⟨same, rfl⟩
    | some k =>
      rw [nodeId_of_lastNumber_some u second] at same
      exact absurd same (separated t known u known' k)
  | some j =>
    rw [nodeId_of_lastNumber_some t first] at same
    cases second : lastNumber b with
    | none =>
      rw [nodeId_of_lastNumber_none u second] at same
      exact absurd same.symm (separated u known' t known j)
    | some k =>
      rw [nodeId_of_lastNumber_some u second] at same
      obtain ⟨names, numbers⟩ := numbered_inj same
      exact ⟨names, congrArg some numbers⟩

end Expansion

end Workflow.Composition
