import Mathlib.Data.List.Infix
import Workflow.Dialect.Segment

/-!
Where the delimiters of a text stand: the first opening delimiter, the first closing one behind it, and
so on in what is left. The text has one such decomposition, or an opening delimiter is left open, and
its segments are those of the decomposition.
-/

namespace Workflow

namespace Text

variable {pattern before behind before' behind' cs : List Char}

/-- A text that starts with the pattern is cut in front of it. -/
theorem splitAtFirst_append (pattern cs : List Char) :
    splitAtFirst pattern (pattern ++ cs) = some ([], cs) := by
  cases whole : pattern ++ cs with
  | nil => simp_all [splitAtFirst]
  | cons c rest =>
    rw [splitAtFirst, if_pos, ← whole, List.drop_left]
    rw [← whole, List.isPrefixOf_iff_prefix]
    exact List.prefix_append _ _

theorem splitAtFirst_cons {c : Char} (differs : ∀ rest, c :: cs ≠ pattern ++ rest) :
    splitAtFirst pattern (c :: cs) =
      (splitAtFirst pattern cs).map fun (gap, behind) => (c :: gap, behind) := by
  rw [splitAtFirst, if_neg]
  rw [List.isPrefixOf_iff_prefix]
  rintro ⟨rest, same⟩
  exact differs rest same.symm

/-- What a text is cut into. -/
theorem eq_of_splitAtFirst (cut : splitAtFirst pattern cs = some (before, behind)) :
    cs = before ++ pattern ++ behind := by
  induction cs generalizing before with
  | nil =>
    cases pattern with
    | nil => cases cut; rfl
    | cons => cases cut
  | cons c cs ih =>
    by_cases starts : ∃ rest, c :: cs = pattern ++ rest
    · obtain ⟨rest, same⟩ := starts
      rw [same, splitAtFirst_append] at cut
      cases cut
      exact same
    · rw [splitAtFirst_cons (not_exists.mp starts), Option.map_eq_some_iff] at cut
      obtain ⟨⟨before', behind'⟩, cut, same⟩ := cut
      cases same
      rw [ih cut]
      rfl

/-- The first occurrence of the pattern in the text stands between these parts of it. -/
structure FirstAt (pattern cs before behind : List Char) : Prop where
  whole : cs = before ++ pattern ++ behind
  least : ∀ before' behind', cs = before' ++ pattern ++ behind' → before.length ≤ before'.length

/-- There is one first occurrence. -/
theorem FirstAt.unique (here : FirstAt pattern cs before behind)
    (here' : FirstAt pattern cs before' behind') : before = before' ∧ behind = behind' := by
  have lengths : before.length = before'.length :=
    Nat.le_antisymm (here.least _ _ here'.whole) (here'.least _ _ here.whole)
  have whole := here.whole.symm.trans here'.whole
  rw [List.append_assoc, List.append_assoc] at whole
  obtain ⟨same, rest⟩ := List.append_inj whole lengths
  exact ⟨same, List.append_cancel_left rest⟩

theorem FirstAt.isInfix (here : FirstAt pattern cs before behind) : pattern <:+: cs :=
  ⟨before, behind, here.whole.symm⟩

theorem length_le_of_splitAtFirst (cut : splitAtFirst pattern cs = some (before, behind))
    (other : cs = before' ++ pattern ++ behind') : before.length ≤ before'.length := by
  induction cs generalizing before before' with
  | nil =>
    have whole := eq_of_splitAtFirst cut
    rw [eq_comm, List.append_eq_nil_iff, List.append_eq_nil_iff] at whole
    rw [whole.1.1]
    exact Nat.zero_le _
  | cons c cs ih =>
    cases before' with
    | nil =>
      rw [other, List.nil_append, splitAtFirst_append] at cut
      cases cut
      exact Nat.le_refl _
    | cons d before' =>
      by_cases starts : ∃ rest, c :: cs = pattern ++ rest
      · obtain ⟨rest, same⟩ := starts
        rw [same, splitAtFirst_append] at cut
        cases cut
        exact Nat.zero_le _
      · rw [splitAtFirst_cons (not_exists.mp starts), Option.map_eq_some_iff] at cut
        obtain ⟨⟨before, behind⟩, cut, same⟩ := cut
        cases same
        exact Nat.succ_le_succ (ih cut (List.cons.inj other).2)

theorem splitAtFirst_of_isInfix (inside : pattern <:+: cs) :
    ∃ before behind, splitAtFirst pattern cs = some (before, behind) := by
  obtain ⟨front, back, rfl⟩ := inside
  induction front with
  | nil => exact ⟨[], back, splitAtFirst_append pattern back⟩
  | cons c front ih =>
    rw [List.cons_append, List.cons_append]
    by_cases starts : ∃ rest, c :: (front ++ pattern ++ back) = pattern ++ rest
    · obtain ⟨rest, same⟩ := starts
      exact ⟨[], rest, same ▸ splitAtFirst_append pattern rest⟩
    · obtain ⟨before, behind, cut⟩ := ih
      exact ⟨c :: before, behind, by rw [splitAtFirst_cons (not_exists.mp starts), cut]; rfl⟩

theorem splitAtFirst_eq_none_iff : splitAtFirst pattern cs = none ↔ ¬pattern <:+: cs := by
  constructor
  · intro absent inside
    obtain ⟨before, behind, cut⟩ := splitAtFirst_of_isInfix inside
    rw [absent] at cut
    cases cut
  · intro absent
    cases cut : splitAtFirst pattern cs with
    | none => rfl
    | some found => exact absurd ⟨_, _, (eq_of_splitAtFirst cut).symm⟩ absent

/-- A text is split at the first occurrence. -/
theorem splitAtFirst_eq_some_iff :
    splitAtFirst pattern cs = some (before, behind) ↔ FirstAt pattern cs before behind := by
  have sound {before behind : List Char} (cut : splitAtFirst pattern cs = some (before, behind)) :
      FirstAt pattern cs before behind :=
    ⟨eq_of_splitAtFirst cut, fun _ _ other => length_le_of_splitAtFirst cut other⟩
  refine ⟨sound, fun here => ?_⟩
  obtain ⟨before', behind', cut⟩ := splitAtFirst_of_isInfix here.isInfix
  obtain ⟨rfl, rfl⟩ := here.unique (sound cut)
  exact cut

/-- Where a pattern stands first, what starts with it stands first. -/
theorem FirstAt.extend {more : List Char} (here : FirstAt pattern cs before (more ++ behind)) :
    FirstAt (pattern ++ more) cs before behind where
  whole := by rw [here.whole, List.append_assoc, List.append_assoc, List.append_assoc]
  least before' behind' other := by
    refine here.least before' (more ++ behind') ?_
    rw [other, List.append_assoc, List.append_assoc, List.append_assoc]

theorem occursIn_iff : occursIn pattern cs = true ↔ pattern <:+: cs := by
  unfold occursIn
  rw [← not_iff_not, ← splitAtFirst_eq_none_iff]
  simp

section Infix

variable {c : Char} (nonempty : pattern ≠ []) (absent : c ∉ pattern)

include nonempty absent

/-- A character that is not in the pattern adds no occurrence of it. -/
theorem isInfix_cons_iff : pattern <:+: c :: cs ↔ pattern <:+: cs := by
  rw [List.infix_cons_iff, or_iff_right]
  intro starts
  cases pattern with
  | nil => exact nonempty rfl
  | cons d pattern => exact absent ((List.cons_prefix_cons.mp starts).1 ▸ .head _)

theorem isInfix_concat_iff : pattern <:+: cs ++ [c] ↔ pattern <:+: cs := by
  rw [← List.reverse_infix, List.reverse_concat, isInfix_cons_iff, List.reverse_infix]
  · simpa using nonempty
  · simpa using absent

end Infix

end Text

namespace Delimiters

open Text (splitAtFirst FirstAt splitAtFirst_eq_some_iff splitAtFirst_eq_none_iff)

variable {d : Delimiters} {cs gap behind body rest tail unclosed : List Char}
  {segments : List Segment} {closes closes' : List Char → List Char → Prop}

theorem segments_of_absent (absent : splitAtFirst d.opening cs = none) :
    d.segments cs = .ok ([], cs) := by
  rw [Delimiters.segments]
  split
  · rfl
  next found =>
    rw [absent] at found
    cases found

theorem segments_of_found (nonempty : d.opening ≠ [])
    (opened : splitAtFirst d.opening cs = some (gap, behind))
    (closed : splitAtFirst d.closing behind = some (body, rest)) :
    d.segments cs =
      (d.segments rest).map fun (segments, tail) => (⟨gap, body⟩ :: segments, tail) := by
  have progress : d.opening.length + d.closing.length ≠ 0 := by
    have positive := List.length_pos_iff.mpr nonempty
    omega
  conv => lhs; rw [Delimiters.segments]
  split
  next absent =>
    rw [absent] at opened
    cases opened
  next found =>
    rw [found] at opened
    cases opened
    split
    next absent =>
      rw [absent] at closed
      cases closed
    next found =>
      rw [found] at closed
      cases closed
      rw [dif_neg progress]
      cases d.segments rest <;> rfl

theorem segments_of_unclosed (opened : splitAtFirst d.opening cs = some (gap, behind))
    (absent : splitAtFirst d.closing behind = none) :
    d.segments cs = .error (d.opening ++ behind) := by
  rw [Delimiters.segments]
  split
  next absent' =>
    rw [absent'] at opened
    cases opened
  next found =>
    rw [found] at opened
    cases opened
    split
    · rfl
    next found' =>
      rw [absent] at found'
      cases found'

/-- The text is made of these segments and of the tail. Each opening delimiter is the first one in what
is left of the text, and where the closing one may stand depends on the body and on what is behind. -/
inductive Decomposes (d : Delimiters) (closes : List Char → List Char → Prop) :
    List Char → List Segment → List Char → Prop
  | tail {cs : List Char} (absent : ¬d.opening <:+: cs) : Decomposes d closes cs [] cs
  | segment {cs gap body behind tail : List Char} {segments : List Segment}
      (opened : FirstAt d.opening cs gap (body ++ d.closing ++ behind))
      (closed : closes body behind) (others : Decomposes d closes behind segments tail) :
      Decomposes d closes cs (⟨gap, body⟩ :: segments) tail

/-- The closing delimiter behind the body is the first one there is. -/
def ClosesFirst (d : Delimiters) (body behind : List Char) : Prop :=
  FirstAt d.closing (body ++ d.closing ++ behind) body behind

/-- The closing delimiter is not in the body. -/
def ClosesOutside (d : Delimiters) (body _ : List Char) : Prop :=
  ¬d.closing <:+: body

/-- Behind some of the segments, an opening delimiter is left open. -/
inductive LeavesOpen (d : Delimiters) : List Char → List Char → Prop
  | here {cs gap behind : List Char} (opened : FirstAt d.opening cs gap behind)
      (unclosed : ¬d.closing <:+: behind) : LeavesOpen d cs (d.opening ++ behind)
  | later {cs gap body behind unclosed : List Char}
      (opened : FirstAt d.opening cs gap (body ++ d.closing ++ behind))
      (closed : d.ClosesFirst body behind) (others : LeavesOpen d behind unclosed) :
      LeavesOpen d cs unclosed

theorem splitAtFirst_closing_iff :
    splitAtFirst d.closing behind = some (body, rest) ↔
      behind = body ++ d.closing ++ rest ∧ d.ClosesFirst body rest := by
  rw [splitAtFirst_eq_some_iff]
  constructor
  · intro here
    refine ⟨here.whole, ?_⟩
    have here' := here
    rwa [here.whole] at here'
  · rintro ⟨rfl, closed⟩
    exact closed

/-- A text is cut as it decomposes. -/
theorem Decomposes.segments_eq (nonempty : d.opening ≠ [])
    (decomposes : d.Decomposes d.ClosesFirst cs segments tail) :
    d.segments cs = .ok (segments, tail) := by
  induction decomposes with
  | tail absent => exact segments_of_absent (splitAtFirst_eq_none_iff.mpr absent)
  | segment opened closed others ih =>
    rw [segments_of_found nonempty (splitAtFirst_eq_some_iff.mpr opened)
      (splitAtFirst_closing_iff.mpr ⟨rfl, closed⟩), ih]
    rfl

theorem LeavesOpen.segments_eq (nonempty : d.opening ≠ []) (leaves : d.LeavesOpen cs unclosed) :
    d.segments cs = .error unclosed := by
  induction leaves with
  | here opened unclosed =>
    exact segments_of_unclosed (splitAtFirst_eq_some_iff.mpr opened)
      (splitAtFirst_eq_none_iff.mpr unclosed)
  | later opened closed others ih =>
    rw [segments_of_found nonempty (splitAtFirst_eq_some_iff.mpr opened)
      (splitAtFirst_closing_iff.mpr ⟨rfl, closed⟩), ih]
    rfl

/-- What a text is cut into makes it up. -/
theorem decomposes_of_segments (nonempty : d.opening ≠ [])
    (cut : d.segments cs = .ok (segments, tail)) : d.Decomposes d.ClosesFirst cs segments tail := by
  fun_induction Delimiters.segments d cs generalizing segments with
  | case1 cs absent =>
    cases cut
    exact .tail (splitAtFirst_eq_none_iff.mp absent)
  | case2 => cases cut
  | case3 cs gap behind _ body rest _ none_ =>
    exact absurd (List.length_eq_zero_iff.mp (Nat.add_eq_zero_iff.mp none_).1) nonempty
  | case4 => cases cut
  | case5 cs gap behind opened body rest closed _ segments tail cut' ih =>
    cases cut
    obtain ⟨rfl, closes⟩ := splitAtFirst_closing_iff.mp closed
    exact .segment (splitAtFirst_eq_some_iff.mp opened) closes (ih cut')

/-- A text that is not cut leaves a delimiter open. -/
theorem leavesOpen_of_segments (cut : d.segments cs = .error unclosed) :
    d.LeavesOpen cs unclosed := by
  fun_induction Delimiters.segments d cs with
  | case1 => cases cut
  | case2 cs gap behind opened absent =>
    cases cut
    exact .here (splitAtFirst_eq_some_iff.mp opened) (splitAtFirst_eq_none_iff.mp absent)
  | case3 => cases cut
  | case4 cs gap behind opened body rest closed _ unclosed cut' ih =>
    cases cut
    obtain ⟨rfl, closes⟩ := splitAtFirst_closing_iff.mp closed
    exact .later (splitAtFirst_eq_some_iff.mp opened) closes (ih cut')
  | case5 => cases cut

/-- The segments of a text are those that it is made of. -/
theorem segments_eq_ok_iff (nonempty : d.opening ≠ []) :
    d.segments cs = .ok (segments, tail) ↔ d.Decomposes d.ClosesFirst cs segments tail :=
  ⟨decomposes_of_segments nonempty, Decomposes.segments_eq nonempty⟩

/-- A text has no segments exactly when an opening delimiter is left open. -/
theorem segments_eq_error_iff (nonempty : d.opening ≠ []) :
    d.segments cs = .error unclosed ↔ d.LeavesOpen cs unclosed :=
  ⟨leavesOpen_of_segments, LeavesOpen.segments_eq nonempty⟩

/-! ## Closing delimiters that overlap themselves -/

/-- The text starts and ends with the same characters, without being them. -/
def OverlapsItself (cs : List Char) : Prop :=
  ∃ border, border ≠ [] ∧ border ≠ cs ∧ border <+: cs ∧ border <:+ cs

theorem ClosesFirst.outside (nonempty : d.closing ≠ []) (closed : d.ClosesFirst body behind) :
    d.ClosesOutside body behind := by
  rintro ⟨front, back, rfl⟩
  have early := closed.least front (back ++ d.closing ++ behind) (by simp)
  have positive := List.length_pos_iff.mpr nonempty
  simp only [List.length_append] at early
  omega

/-- A closing delimiter that does not overlap itself is the first one if it is not in the body. -/
theorem ClosesOutside.first (single : ¬OverlapsItself d.closing)
    (closed : d.ClosesOutside body behind) : d.ClosesFirst body behind := by
  refine ⟨rfl, fun before' behind' other => ?_⟩
  by_contra early
  rw [Nat.not_le] at early
  rw [List.append_assoc, List.append_assoc] at other
  -- An earlier one starts in the body, and what it has behind the body is the start of the other.
  obtain ⟨middle, before_eq, _⟩ | ⟨middle, body_eq, behind_eq⟩ := List.append_eq_append_iff.mp other
  · rw [before_eq, List.length_append] at early
    omega
  obtain ⟨inside, middle_eq, _⟩ | ⟨border, closing_eq, behind_eq⟩ :=
    List.append_eq_append_iff.mp behind_eq
  · exact closed ⟨before', inside, by rw [body_eq, middle_eq, List.append_assoc]⟩
  refine single ⟨border, ?_, ?_, ?_, ?_⟩
  · rintro rfl
    exact closed ⟨before', [], by rw [body_eq, closing_eq, List.append_nil, List.append_nil]⟩
  · intro same
    rw [same, List.self_eq_append_left] at closing_eq
    rw [body_eq, closing_eq, List.append_nil] at early
    exact Nat.lt_irrefl _ early
  · have shorter : border.length ≤ d.closing.length := by
      rw [closing_eq, List.length_append]
      omega
    exact List.prefix_of_prefix_length_le ⟨behind', behind_eq.symm⟩ (List.prefix_append _ _) shorter
  · exact ⟨middle, closing_eq.symm⟩

theorem Decomposes.mono (implies : ∀ body behind, closes body behind → closes' body behind)
    (decomposes : d.Decomposes closes cs segments tail) : d.Decomposes closes' cs segments tail := by
  induction decomposes with
  | tail absent => exact .tail absent
  | segment opened closed others ih => exact .segment opened (implies _ _ closed) ih

/-- The segments and the tail are the text, delimiters included. -/
theorem Decomposes.eq (decomposes : d.Decomposes closes cs segments tail) :
    cs = (segments.flatMap fun s => s.gap ++ s.source d) ++ tail := by
  induction decomposes with
  | tail absent => rfl
  | segment opened closed others ih =>
    rw [opened.whole, List.flatMap_cons, ih]
    simp [Segment.source]

theorem Decomposes.closes_of_mem (decomposes : d.Decomposes closes cs segments tail)
    {s : Segment} (inside : s ∈ segments) : ∃ behind, closes s.body behind := by
  induction decomposes with
  | tail absent => cases inside
  | segment opened closed others ih =>
    cases inside with
    | head => exact ⟨_, closed⟩
    | tail _ inside => exact ih inside

end Delimiters

end Workflow
