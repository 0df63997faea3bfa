import Workflow.Proofs.Value.Same

/-!
Building objects member by member. The members come to be sorted by key, each of them is one that was
put in, and members that are sorted stay what they are (`ofMembers_of_sorted`).
-/

namespace Workflow.Value

variable {key : String} {value : Value} {m : String × Value} {ms sorted : List (String × Value)}

theorem mem_of_mem_insertMember (inside : m ∈ insertMember key value ms) :
    m = (key, value) ∨ m ∈ ms := by
  induction ms with
  | nil => exact .inl (List.mem_singleton.mp inside)
  | cons n ms ih =>
    unfold insertMember at inside
    split at inside
    · exact List.mem_cons.mp inside
    · split at inside
      · exact (List.mem_cons.mp inside).imp_right (List.mem_cons_of_mem n)
      · rcases List.mem_cons.mp inside with rfl | later
        · exact .inr List.mem_cons_self
        · exact (ih later).imp_right (List.mem_cons_of_mem n)

theorem sortedKeys_insertMember (sorted : SortedKeys ms) : SortedKeys (insertMember key value ms) := by
  induction ms with
  | nil => exact List.pairwise_singleton _ _
  | cons n ms ih =>
    obtain ⟨above, sorted'⟩ := List.pairwise_cons.mp sorted
    unfold insertMember
    split
    next below =>
      refine List.pairwise_cons.mpr ⟨List.forall_mem_cons.mpr ⟨below, fun m inside => ?_⟩, sorted⟩
      exact lt_trans below (above m inside)
    next notBelow =>
      split
      next same => exact List.pairwise_cons.mpr ⟨fun m inside => same ▸ above m inside, sorted'⟩
      next other =>
        refine List.pairwise_cons.mpr ⟨fun m inside => ?_, ih sorted'⟩
        rcases mem_of_mem_insertMember inside with rfl | old
        · exact lt_of_le_of_ne (not_lt.mp notBelow) (Ne.symm other)
        · exact above m old

/-- A member whose key is above all others comes last. -/
theorem insertMember_last (above : ∀ m ∈ ms, m.1 < key) :
    insertMember key value ms = ms ++ [(key, value)] := by
  induction ms with
  | nil => rfl
  | cons n ms ih =>
    obtain ⟨first, others⟩ := List.forall_mem_cons.mp above
    unfold insertMember
    rw [if_neg (lt_asymm first), if_neg (ne_of_gt first), ih others, List.cons_append]

/-- An object holds members of those it is built from, sorted by key. -/
theorem exists_ofMembers (ms : List (String × Value)) :
    ∃ sorted, ofMembers ms = .object sorted ∧ SortedKeys sorted ∧ sorted ⊆ ms := by
  have more : ∀ (before ms : List (String × Value)), SortedKeys before →
      SortedKeys (ms.foldl (fun sorted m => insertMember m.1 m.2 sorted) before) ∧
        ms.foldl (fun sorted m => insertMember m.1 m.2 sorted) before ⊆ before ++ ms := by
    intro before ms sorted
    induction ms generalizing before with
    | nil => exact ⟨sorted, List.subset_append_left before []⟩
    | cons n ms ih =>
      obtain ⟨sorted', inside⟩ := ih _ (sortedKeys_insertMember sorted)
      refine ⟨sorted', fun m found => ?_⟩
      rcases List.mem_append.mp (inside found) with first | later
      · rcases mem_of_mem_insertMember first with rfl | old
        · exact List.mem_append_right _ List.mem_cons_self
        · exact List.mem_append_left _ old
      · exact List.mem_append_right _ (List.mem_cons_of_mem n later)
  obtain ⟨sorted, inside⟩ := more [] ms .nil
  exact ⟨_, rfl, sorted, inside⟩

/-- An object keeps members that are sorted. -/
theorem ofMembers_of_sorted (sorted : SortedKeys ms) : ofMembers ms = .object ms := by
  have more : ∀ before later : List (String × Value), SortedKeys (before ++ later) →
      later.foldl (fun sorted m => insertMember m.1 m.2 sorted) before = before ++ later := by
    intro before later sorted
    induction later generalizing before with
    | nil => exact (List.append_nil before).symm
    | cons n later ih =>
      have above : ∀ m ∈ before, m.1 < n.1 := fun m inside =>
        (List.pairwise_append.mp sorted).2.2 m inside n List.mem_cons_self
      rw [List.foldl_cons, insertMember_last above, ih, List.append_assoc, List.singleton_append]
      rwa [List.append_assoc]
  exact congrArg Value.object (more [] ms sorted)

end Workflow.Value
