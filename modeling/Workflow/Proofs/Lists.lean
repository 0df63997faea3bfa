import Mathlib.Data.List.Induction
import Mathlib.Data.List.Nodup
import Mathlib.Order.Lattice

/-!
Lists without their repetitions, in which everything stands where it comes first; lists that are
sorted by one thing and then by a number; lists up to the first member without a property; and one
bound for all members of a list.
-/

namespace Workflow

section TakeWhile

variable {α : Type} {p : α → Bool} {l l' : List α}

theorem takeWhile_dropWhile_of_stop (all : ∀ a ∈ l, p a = true) (stop : ∀ a ∈ l'.head?, p a = false) :
    (l ++ l').takeWhile p = l ∧ (l ++ l').dropWhile p = l' := by
  rw [List.takeWhile_append_of_pos all, List.dropWhile_append_of_pos all]
  cases l' with
  | nil => simp
  | cons a l' => simp [stop a rfl]

theorem takeWhile_append_of_stop (stop : ∀ a ∈ l'.head?, p a = false) :
    (l ++ l').takeWhile p = l.takeWhile p ∧ (l ++ l').dropWhile p = l.dropWhile p ++ l' := by
  have ends := takeWhile_dropWhile_of_stop (l := []) (by simp) stop
  induction l with
  | nil => exact ends
  | cons a l ih =>
    rw [List.cons_append, List.takeWhile_cons, List.takeWhile_cons, List.dropWhile_cons,
      List.dropWhile_cons]
    split
    · exact ⟨congrArg _ ih.1, ih.2⟩
    · exact ⟨rfl, rfl⟩

theorem stop_of_dropWhile : ∀ a ∈ (l.dropWhile p).head?, p a = false := by
  intro a first
  have stopped := List.head?_dropWhile_not p l
  rw [Option.mem_def.mp first] at stopped
  simpa using stopped

end TakeWhile

section EraseDups

variable {α : Type} [BEq α] [LawfulBEq α] {l l' : List α} {a : α}

/-- Members that are known add nothing. -/
theorem eraseDups_append_of_subset (known : l' ⊆ l) : (l ++ l').eraseDups = l.eraseDups := by
  have none_ : l'.removeAll l = [] := by
    simp only [List.removeAll, List.filter_eq_nil_iff, Bool.not_eq_true, Bool.not_eq_false',
      List.elem_eq_mem, decide_eq_true_eq]
    exact fun a inside => known inside
  rw [List.eraseDups_append, none_]
  simp

/-- A new member comes last. -/
theorem eraseDups_concat_of_not_mem (new : a ∉ l) :
    (l ++ [a]).eraseDups = l.eraseDups ++ [a] := by
  rw [List.eraseDups_append]
  simp [List.removeAll, new, List.eraseDups_cons]

theorem eraseDups_sublist_nodup (l : List α) : l.eraseDups.Sublist l ∧ l.eraseDups.Nodup := by
  induction l using List.reverseRecOn with
  | nil => simp
  | append_singleton l a ih =>
    by_cases known : a ∈ l
    · rw [eraseDups_append_of_subset (by simpa using known)]
      exact ⟨ih.1.trans (List.sublist_append_left l [a]), ih.2⟩
    · rw [eraseDups_concat_of_not_mem known]
      refine ⟨ih.1.append (List.Sublist.refl [a]), ?_⟩
      have apart : ∀ b ∈ l, b ≠ a := by
        rintro b inside rfl
        exact known inside
      simpa [List.nodup_append, ih.2] using apart

theorem eraseDups_of_nodup (unique : l.Nodup) : l.eraseDups = l := by
  induction l using List.reverseRecOn with
  | nil => rfl
  | append_singleton l a ih =>
    rw [List.nodup_append] at unique
    have new : a ∉ l := fun inside => unique.2.2 a inside a List.mem_cons_self rfl
    rw [eraseDups_concat_of_not_mem new, ih unique.1]

/-- What is left stands in the order in which it first came. -/
theorem pairwise_idxOf_eraseDups (l : List α) :
    l.eraseDups.Pairwise fun a b => l.idxOf a < l.idxOf b := by
  induction l using List.reverseRecOn with
  | nil => exact .nil
  | append_singleton l c ih =>
    have earlier : ∀ b ∈ l, (l ++ [c]).idxOf b = l.idxOf b := fun b => List.idxOf_append_of_mem
    have kept : l.eraseDups.Pairwise fun a b => (l ++ [c]).idxOf a < (l ++ [c]).idxOf b := by
      refine ih.imp_of_mem fun first second before => ?_
      rwa [earlier _ (List.mem_eraseDups.mp first), earlier _ (List.mem_eraseDups.mp second)]
    by_cases known : c ∈ l
    · rwa [eraseDups_append_of_subset (by simpa using known)]
    · rw [eraseDups_concat_of_not_mem known]
      refine List.pairwise_append.mpr ⟨kept, List.pairwise_singleton _ c, fun a inside b last => ?_⟩
      have inside' : a ∈ l := List.mem_eraseDups.mp inside
      rw [List.mem_singleton.mp last, earlier a inside', List.idxOf_append_of_notMem known,
        List.idxOf_cons_self]
      exact List.idxOf_lt_length_of_mem inside'

/-- What comes up behind depends only on what has come up before. -/
theorem eraseDups_append_congr (same : l.eraseDups = l'.eraseDups) (m : List α) :
    (l ++ m).eraseDups = (l' ++ m).eraseDups := by
  have members : ∀ a, a ∈ l ↔ a ∈ l' := by
    intro a
    rw [← List.mem_eraseDups, same, List.mem_eraseDups]
  have rest : m.removeAll l = m.removeAll l' := by
    unfold List.removeAll
    refine List.filter_congr fun a _ => ?_
    simp [members]
  rw [List.eraseDups_append, List.eraseDups_append, same, rest]

/-- What was known comes up no more. -/
theorem eraseDups_append_cons_of_mem (known : a ∈ l) (m : List α) :
    (l ++ a :: m).eraseDups = (l ++ m).eraseDups := by
  rw [List.append_cons]
  exact eraseDups_append_congr (eraseDups_append_of_subset (by simpa using known)) m

/-- What is new comes up behind what was known. -/
theorem getElem?_eraseDups_of_not_mem (unique : l.Nodup) (new : a ∉ l) (m : List α) :
    (l ++ a :: m).eraseDups[l.length]? = some a := by
  rw [List.append_cons, List.eraseDups_append, eraseDups_concat_of_not_mem new,
    eraseDups_of_nodup unique]
  simp

/-- Of lists that are sorted, only the members count. -/
theorem eraseDups_append_of_sorted {α : Type} [LinearOrder α] [BEq α] [LawfulBEq α]
    (l : List α) {m m' : List α}
    (sorted : m.Pairwise (· ≤ ·)) (sorted' : m'.Pairwise (· ≤ ·)) (same : ∀ a, a ∈ m ↔ a ∈ m') :
    (l ++ m).eraseDups = (l ++ m').eraseDups := by
  have ordered : ∀ {k : List α}, k.Pairwise (· ≤ ·) →
      (k.removeAll l).eraseDups.Pairwise (· ≤ ·) := fun pairwise =>
    (pairwise.filter _).sublist (eraseDups_sublist_nodup _).1
  have perm : (m.removeAll l).eraseDups.Perm (m'.removeAll l).eraseDups := by
    refine (List.perm_ext_iff_of_nodup (eraseDups_sublist_nodup _).2
      (eraseDups_sublist_nodup _).2).mpr fun a => ?_
    simp [List.removeAll, same]
  rw [List.eraseDups_append, List.eraseDups_append,
    perm.eq_of_pairwise (fun a b _ _ first second => le_antisymm first second) (ordered sorted)
      (ordered sorted')]

/-- A list without its repetitions is longer than one just if two of its elements differ. -/
theorem one_lt_length_eraseDups_iff {l : List α} :
    1 < l.eraseDups.length ↔ ∃ a ∈ l, ∃ b ∈ l, a ≠ b := by
  cases l with
  | nil => simp
  | cons a l =>
    rw [List.eraseDups_cons, List.length_cons]
    constructor
    · intro several
      obtain ⟨b, inside⟩ := List.exists_mem_of_length_pos (Nat.lt_of_succ_lt_succ several)
      rw [List.mem_eraseDups, List.mem_filter] at inside
      have apart : b ≠ a := by simpa using inside.2
      exact ⟨a, List.mem_cons_self, b, List.mem_cons_of_mem a inside.1, apart.symm⟩
    · rintro ⟨b, first, c, second, differ⟩
      have other : ∃ d ∈ l, d ≠ a := by
        by_cases same : b = a
        · subst same
          rcases List.mem_cons.mp second with rfl | later
          · exact absurd rfl differ
          · exact ⟨c, later, differ.symm⟩
        · rcases List.mem_cons.mp first with rfl | later
          · exact absurd rfl same
          · exact ⟨b, later, same⟩
      obtain ⟨d, inside, apart⟩ := other
      have kept : d ∈ (l.filter fun b => !b == a).eraseDups := by
        rw [List.mem_eraseDups, List.mem_filter]
        exact ⟨inside, by simpa using apart⟩
      have := List.length_pos_of_mem kept
      omega

end EraseDups

/-- To sort a list puts it in order. -/
theorem pairwise_mergeSort_le {α : Type} [LinearOrder α] [DecidableLE α] (l : List α) :
    (l.mergeSort fun a b => decide (a ≤ b)).Pairwise (· ≤ ·) := by
  have ordered : (l.mergeSort fun a b => decide (a ≤ b)).Pairwise
      fun a b => decide (a ≤ b) = true := by
    refine List.pairwise_mergeSort ?_ ?_ l
    · intro a b c first second
      exact decide_eq_true (le_trans (of_decide_eq_true first) (of_decide_eq_true second))
    · intro a b
      simpa using le_total a b
  exact ordered.imp of_decide_eq_true

/-- To sort a list forgets the order there was. -/
theorem mergeSort_le_eq_of_perm {α : Type} [LinearOrder α] [DecidableLE α] {l l' : List α}
    (perm : l.Perm l') :
    (l.mergeSort fun a b => decide (a ≤ b)) = l'.mergeSort fun a b => decide (a ≤ b) :=
  (((List.mergeSort_perm l _).trans perm).trans (List.mergeSort_perm l' _).symm).eq_of_pairwise
    (fun _ _ _ _ first second => le_antisymm first second)
    (pairwise_mergeSort_le l) (pairwise_mergeSort_le l')

/-- To sort by one thing and then by a number puts a list in this order. -/
theorem pairwise_mergeSort_lex {α β : Type} [LinearOrder β] [DecidableLT β] [BEq β] [LawfulBEq β]
    (f : α → β) (k : α → Nat) (l : List α) :
    (l.mergeSort fun a b => decide (f a < f b) || (f a == f b && decide (k a ≤ k b))).Pairwise
      fun a b => f a < f b ∨ f a = f b ∧ k a ≤ k b := by
  have sorted : (l.mergeSort fun a b => decide (f a < f b) ||
      (f a == f b && decide (k a ≤ k b))).Pairwise fun a b =>
        (decide (f a < f b) || (f a == f b && decide (k a ≤ k b))) = true := by
    apply List.pairwise_mergeSort
    · intro a b c first second
      simp only [Bool.or_eq_true, decide_eq_true_eq, Bool.and_eq_true, beq_iff_eq]
        at first second ⊢
      rcases first with before | ⟨same, less⟩ <;> rcases second with before' | ⟨same', less'⟩
      · exact .inl (before.trans before')
      · exact .inl (same' ▸ before)
      · exact .inl (same ▸ before')
      · exact .inr ⟨same.trans same', less.trans less'⟩
    · intro a b
      simp only [Bool.or_eq_true, decide_eq_true_eq, Bool.and_eq_true, beq_iff_eq]
      rcases lt_trichotomy (f a) (f b) with before | same | after
      · exact .inl (.inl before)
      · rcases Nat.le_total (k a) (k b) with less | more
        · exact .inl (.inr ⟨same, less⟩)
        · exact .inr (.inr ⟨same.symm, more⟩)
      · exact .inr (.inl after)
  exact sorted.imp fun le => by simpa using le

/-- To sort by one thing and then by a number forgets the order there was, where the two tell everything
apart. -/
theorem mergeSort_lex_eq_of_perm {α β : Type} [LinearOrder β] [DecidableLT β] [BEq β] [LawfulBEq β]
    {f : α → β} {k : α → Nat} {l l' : List α} (perm : l.Perm l')
    (apart : ∀ a ∈ l, ∀ b ∈ l, f a = f b → k a = k b → a = b) :
    (l.mergeSort fun a b => decide (f a < f b) || (f a == f b && decide (k a ≤ k b))) =
      l'.mergeSort fun a b => decide (f a < f b) || (f a == f b && decide (k a ≤ k b)) := by
  refine List.Perm.eq_of_pairwise ?_ (pairwise_mergeSort_lex f k l) (pairwise_mergeSort_lex f k l')
    (((List.mergeSort_perm l _).trans perm).trans (List.mergeSort_perm l' _).symm)
  intro a b first second before after
  have first := List.mem_mergeSort.mp first
  have second := perm.mem_iff.mpr (List.mem_mergeSort.mp second)
  have same : f a = f b ∧ k a = k b := by
    obtain before | ⟨same, less⟩ := before
    · obtain after | ⟨same, _⟩ := after
      · exact absurd before after.asymm
      · exact absurd before (same ▸ lt_irrefl _)
    · obtain after | ⟨_, less'⟩ := after
      · exact absurd after (same ▸ lt_irrefl _)
      · exact ⟨same, Nat.le_antisymm less less'⟩
  exact apart a first b second same.1 same.2

/-- To sort by a number forgets the order there was, where it tells everything apart. -/
theorem mergeSort_eq_of_perm {α : Type} {k : α → Nat} {l l' : List α} (perm : l.Perm l')
    (apart : ∀ a ∈ l, ∀ b ∈ l, k a = k b → a = b) :
    (l.mergeSort fun a b => decide (k a ≤ k b)) = l'.mergeSort fun a b => decide (k a ≤ k b) := by
  simpa using mergeSort_lex_eq_of_perm (f := fun _ => ()) perm
    fun a first b second _ => apart a first b second

/-- What holds up to some number for each one of finitely many things holds up to one number for all. -/
theorem exists_le_of_forall_mem {α : Type} {list : List α} {bound : α → Nat → Prop}
    (mono : ∀ a m n, m ≤ n → bound a m → bound a n) (each : ∀ a ∈ list, ∃ n, bound a n) :
    ∃ n, ∀ a ∈ list, bound a n := by
  induction list with
  | nil => exact ⟨0, nofun⟩
  | cons a list ih =>
    obtain ⟨m, first⟩ := each a List.mem_cons_self
    obtain ⟨n, others⟩ := ih fun b inside => each b (List.mem_cons_of_mem a inside)
    refine ⟨max m n, fun b inside => ?_⟩
    rcases List.mem_cons.mp inside with rfl | later
    · exact mono _ _ _ (le_max_left m n) first
    · exact mono _ _ _ (le_max_right m n) (others b later)

end Workflow
