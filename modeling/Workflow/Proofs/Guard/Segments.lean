import Workflow.Dialect.Delimited
import Workflow.Proofs.Dialect.Cuts
import Workflow.Proofs.Guard.Words

/-!
Delimiters hold no word characters, so a text in which a word is replaced is cut in the same places.
-/

namespace Workflow

open Text (isWord splitAtFirst)

namespace Text

variable {pattern cs : List Char}

/-- No pattern that starts outside of words is found in one. -/
theorem splitAtFirst_word {w : List Char} {d : Char} (word : ∀ c ∈ w, isWord c = true)
    (other : isWord d = false) :
    splitAtFirst (d :: pattern) (w ++ cs) =
      (splitAtFirst (d :: pattern) cs).map fun (gap, behind) => (w ++ gap, behind) := by
  induction w with
  | nil => simp
  | cons c w ih =>
    rw [List.forall_mem_cons] at word
    rw [List.cons_append, splitAtFirst_cons, ih word.2, Option.map_map]
    · rfl
    · intro rest same
      rw [(List.cons.inj same).1, other] at word
      cases word.1

end Text

namespace Composition.Renaming

open Text

variable (r : Renaming) {inside : Bool} {d : Char} {pattern cs : List Char}

/-- No pattern without word characters comes up at the start of a text. -/
theorem starts_of_apply (others : ∀ c ∈ pattern, isWord c = false) {rest : List Char}
    (starts : r.apply inside cs = pattern ++ rest) : ∃ rest, cs = pattern ++ rest := by
  induction pattern generalizing cs inside with
  | nil => exact ⟨cs, rfl⟩
  | cons c pattern ih =>
    rw [List.forall_mem_cons] at others
    have first : cs.head? = some c := by
      rw [← r.head?_apply inside cs, starts]
      rfl
    obtain ⟨cs, rfl⟩ := List.head?_eq_some_iff.mp first
    rw [r.apply_other others.1] at starts
    obtain ⟨rest, rfl⟩ := ih others.2 (List.cons.inj starts).2
    exact ⟨rest, rfl⟩

/-- A pattern without word characters stands at the same place. -/
theorem splitAtFirst_apply (others : ∀ c ∈ d :: pattern, isWord c = false) :
    splitAtFirst (d :: pattern) (r.apply inside cs) =
      (splitAtFirst (d :: pattern) cs).map fun (gap, behind) =>
        (r.apply inside gap, r.apply false behind) := by
  induction cs using words_induction generalizing inside with
  | nil => rw [apply_nil]; rfl
  | other c cs other ih =>
    by_cases starts : ∃ rest, c :: cs = d :: pattern ++ rest
    · obtain ⟨rest, same⟩ := starts
      have kept : r.apply inside (d :: pattern ++ rest) = d :: pattern ++ r.apply false rest :=
        r.apply_others others
      rw [same, kept, splitAtFirst_append, splitAtFirst_append]
      simp
    · have differs : ∀ rest, c :: r.apply false cs ≠ d :: pattern ++ rest := by
        intro rest same
        have text : r.apply inside (c :: cs) = d :: pattern ++ rest := (r.apply_other other).trans same
        exact starts (r.starts_of_apply others text)
      rw [r.apply_other other, splitAtFirst_cons differs, splitAtFirst_cons (not_exists.mp starts), ih,
        Option.map_map, Option.map_map]
      refine Option.map_congr fun found _ => ?_
      simp [r.apply_other other]
  | word w cs nonempty word outside ih =>
    have other : isWord d = false := others d (by simp)
    have gapOutside {found : List Char × List Char}
        (cut : splitAtFirst (d :: pattern) cs = some found) :
        StartsOutside found.1 := by
      rw [eq_of_splitAtFirst cut, List.append_assoc] at outside
      exact startsOutside_of_append outside
    cases inside with
    | true =>
      rw [r.apply_inside word, splitAtFirst_word word other, splitAtFirst_word word other, ih,
        Option.map_map, Option.map_map]
      refine Option.map_congr fun found _ => ?_
      simp [r.apply_inside word]
    | false =>
      rw [r.apply_word nonempty word outside, splitAtFirst_word (r.isWord_of_mem_word word) other,
        splitAtFirst_word word other, ih, Option.map_map, Option.map_map]
      -- The word ends where the gap goes on behind it, so it is a mention there if it is one here.
      refine Option.map_congr fun found cut => ?_
      simp [r.apply_word nonempty word (gapOutside cut)]

/-- The bodies of the segments of a text. -/
theorem segments_apply {d : Delimiters} {segments : List Segment} {tail : List Char}
    (opening : d.opening ≠ []) (closing : d.closing ≠ [])
    (others : ∀ c ∈ d.opening ++ d.closing, isWord c = false)
    (cut : d.segments cs = .ok (segments, tail)) :
    ∃ segments' tail', d.segments (r.apply inside cs) = .ok (segments', tail') ∧
      segments'.map Segment.body = segments.map fun s => r.apply false s.body := by
  obtain ⟨others, others'⟩ := List.forall_mem_append.mp others
  obtain ⟨o, os, open_⟩ := List.exists_cons_of_ne_nil opening
  obtain ⟨c, _, close⟩ := List.exists_cons_of_ne_nil closing
  have atOpening (inside : Bool) (cs : List Char) :
      splitAtFirst d.opening (r.apply inside cs) = (splitAtFirst d.opening cs).map
        fun (gap, behind) => (r.apply inside gap, r.apply false behind) := by
    rw [open_] at others ⊢
    exact r.splitAtFirst_apply others
  have atClosing (cs : List Char) :
      splitAtFirst d.closing (r.apply false cs) = (splitAtFirst d.closing cs).map
        fun (gap, behind) => (r.apply false gap, r.apply false behind) := by
    rw [close] at others' ⊢
    exact r.splitAtFirst_apply others'
  fun_induction Delimiters.segments d cs generalizing segments inside with
  | case1 cs absent =>
    cases cut
    refine ⟨[], _, Delimiters.segments_of_absent ?_, rfl⟩
    rw [atOpening, absent]
    rfl
  | case2 => cases cut
  | case3 cs gap behind _ body rest _ none_ =>
    exact absurd none_ (by simp [open_])
  | case4 => cases cut
  | case5 cs gap behind opened body rest closed _ segments tail cut' ih =>
    cases cut
    obtain ⟨segments', tail', cut'', same⟩ := @ih false segments cut'
    have opened' : splitAtFirst d.opening (r.apply inside cs) =
        some (r.apply inside gap, r.apply false behind) := by
      rw [atOpening, opened]
      rfl
    have closed' : splitAtFirst d.closing (r.apply false behind) =
        some (r.apply false body, r.apply false rest) := by
      rw [atClosing, closed]
      rfl
    refine ⟨⟨r.apply inside gap, r.apply false body⟩ :: segments', tail', ?_, by simp [same]⟩
    rw [Delimiters.segments_of_found opening opened' closed', cut'']
    rfl

/-- The same for the dialect of guards. -/
theorem percentSegments_apply {segments : List Segment} {tail : List Char}
    (cut : Delimited.percent.delimiters.segments cs = .ok (segments, tail)) :
    ∃ segments' tail',
      Delimited.percent.delimiters.segments (r.apply inside cs) = .ok (segments', tail') ∧
      segments'.map Segment.body = segments.map fun s => r.apply false s.body := by
  have others : (['<', '%'] ++ ['%', '>']).all (fun c => !isWord c) = true := by decide
  refine r.segments_apply (by decide) (by decide) (fun c among => ?_) cut
  simpa using List.all_eq_true.mp others c among

end Composition.Renaming

end Workflow
