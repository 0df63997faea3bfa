import Workflow.Proofs.Lists

/-!
The breadth-first order: first what starts, then what is next to the first thing, what is next to the
second one, and so on, each thing where it comes up first. Explorations that end pass the same things
in the same order (`Explored.eq`), whatever else they keep in mind.
-/

namespace Workflow

variable {α : Type} [DecidableEq α] {starts passed l l' : List α} {next next' : α → List α} {a : α}

/-- What has come up when these have been passed. -/
def comeUp (starts : List α) (next : α → List α) (passed : List α) : List α :=
  (starts ++ passed.flatMap next).eraseDups

/-- The beginnings of the breadth-first order. The next to be passed is the first of what has come up
and has not been passed. -/
inductive Explored (starts : List α) (next : α → List α) : List α → Prop where
  | nil : Explored starts next []
  | concat {passed : List α} {a : α} (before : Explored starts next passed)
      (first : (comeUp starts next passed)[passed.length]? = some a) :
      Explored starts next (passed ++ [a])

theorem comeUp_concat (starts : List α) (next : α → List α) (passed : List α) (a : α) :
    comeUp starts next (passed ++ [a]) = (starts ++ passed.flatMap next ++ next a).eraseDups := by
  simp [comeUp]

theorem mem_comeUp_iff : a ∈ comeUp starts next passed ↔ a ∈ starts ∨ ∃ b ∈ passed, a ∈ next b := by
  simp [comeUp]

/-- It matters what comes up only, not how often. -/
theorem comeUp_congr (alike : ∀ a ∈ passed, ∀ l, (l ++ next a).eraseDups = (l ++ next' a).eraseDups) :
    comeUp starts next passed = comeUp starts next' passed := by
  induction passed using List.reverseRecOn with
  | nil => rfl
  | append_singleton passed a ih =>
    have before := ih fun b inside => alike b (List.mem_append_left _ inside)
    rw [comeUp_concat, comeUp_concat, alike a (List.mem_append_right _ List.mem_cons_self)]
    exact eraseDups_append_congr before _

theorem Explored.congr (explored : Explored starts next l)
    (alike : ∀ a ∈ l, ∀ m, (m ++ next a).eraseDups = (m ++ next' a).eraseDups) :
    Explored starts next' l := by
  induction explored with
  | nil => exact .nil
  | @concat passed a _ first ih =>
    have earlier : ∀ b ∈ passed, ∀ m, (m ++ next b).eraseDups = (m ++ next' b).eraseDups :=
      fun b inside => alike b (List.mem_append_left _ inside)
    rw [comeUp_congr earlier] at first
    exact .concat (ih earlier) first

/-- Whatever is passed was the first that had come up and had not been passed. -/
theorem Explored.getElem? (explored : Explored starts next l) {k : Nat} (bound : k < l.length) :
    (comeUp starts next (l.take k))[k]? = l[k]? := by
  induction explored with
  | nil => simp at bound
  | @concat passed a _ first ih =>
    rw [List.length_append, List.length_singleton] at bound
    rcases Nat.lt_succ_iff_lt_or_eq.mp bound with earlier | rfl
    · rw [List.take_append_of_le_length earlier.le, List.getElem?_append_left earlier]
      exact ih earlier
    · simpa using first

/-- Of two beginnings of the order, one is a beginning of the other. -/
theorem Explored.isPrefix_or (explored : Explored starts next l) (explored' : Explored starts next l') :
    l <+: l' ∨ l' <+: l := by
  induction explored with
  | nil => exact .inl List.nil_prefix
  | @concat passed a _ first ih =>
    rcases ih with ⟨rest, rfl⟩ | shorter
    · cases rest with
      | nil => exact .inr (by simp)
      | cons b rest =>
        have place := explored'.getElem? (k := passed.length) (by simp)
        rw [List.take_left, first] at place
        obtain rfl : a = b := by simpa using place
        exact .inl (by simp)
    · exact .inr (shorter.trans (List.prefix_append passed [a]))

/-- Explorations that have passed all that has come up have passed the same, in one order. -/
theorem Explored.eq (explored : Explored starts next l) (done : comeUp starts next l = l)
    (explored' : Explored starts next l') (done' : comeUp starts next l' = l') : l = l' := by
  have longer : ∀ {m k : List α}, Explored starts next k → comeUp starts next m = m → m <+: k →
      m = k := by
    rintro m _ further all ⟨rest, rfl⟩
    cases rest with
    | nil => simp
    | cons b rest =>
      have place := further.getElem? (k := m.length) (by simp)
      rw [List.take_left, all] at place
      simp at place
  rcases explored.isPrefix_or explored' with before | behind
  · exact longer explored' done before
  · exact (longer explored done' behind).symm

end Workflow
