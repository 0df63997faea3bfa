import Workflow.Composition.Guard
import Workflow.Proofs.Lists

/-!
What becomes of a text in which a word is replaced: its other words stay as they are, and so does what
stands between words. The replacement is the word itself with more characters behind it.
-/

namespace Workflow.Composition

open Text (isWord)

/-- The characters do not start inside a word. -/
def StartsOutside (cs : List Char) : Prop :=
  ∀ c ∈ cs.head?, isWord c = false

@[simp] theorem startsOutside_nil : StartsOutside [] := by
  simp [StartsOutside]

@[simp] theorem startsOutside_cons {c : Char} {cs : List Char} :
    StartsOutside (c :: cs) ↔ isWord c = false := by
  simp [StartsOutside]

theorem StartsOutside.append {cs cs' : List Char} (outside : StartsOutside cs)
    (outside' : StartsOutside cs') : StartsOutside (cs ++ cs') := by
  cases cs with
  | nil => exact outside'
  | cons c cs => simpa using outside

theorem startsOutside_of_append {cs cs' : List Char} (outside : StartsOutside (cs ++ cs')) :
    StartsOutside cs := by
  cases cs with
  | nil => exact startsOutside_nil
  | cons c cs => simpa using outside

theorem startsOutside_iff {cs : List Char} :
    StartsOutside cs ↔ (cs.head?.map isWord).getD false = false := by
  cases cs <;> simp

/-- Induction over texts word by word. -/
theorem words_induction {motive : List Char → Prop} (nil : motive [])
    (other : ∀ c cs, isWord c = false → motive cs → motive (c :: cs))
    (word : ∀ w cs, w ≠ [] → (∀ c ∈ w, isWord c = true) → StartsOutside cs → motive cs →
      motive (w ++ cs)) (cs : List Char) : motive cs := by
  induction size : cs.length using Nat.strongRecOn generalizing cs with
  | ind size ih =>
    subst size
    match cs with
    | [] => exact nil
    | c :: cs =>
      by_cases inside : isWord c = true
      · have shorter : (cs.dropWhile isWord).length < (c :: cs).length :=
          Nat.lt_succ_of_le (List.dropWhile_suffix isWord).length_le
        have outside : StartsOutside (cs.dropWhile isWord) := stop_of_dropWhile
        have all : ∀ d ∈ c :: cs.takeWhile isWord, isWord d = true := by
          intro d among
          cases among with
          | head => exact inside
          | tail _ among => exact List.all_eq_true.mp List.all_takeWhile d among
        have whole := word (c :: cs.takeWhile isWord) (cs.dropWhile isWord) (List.cons_ne_nil _ _) all
          outside (ih _ shorter _ rfl)
        rwa [List.cons_append, List.takeWhile_append_dropWhile] at whole
      · exact other c cs (by simpa using inside) (ih cs.length (Nat.lt_succ_self _) cs rfl)

/-- A text has one first word. -/
theorem word_inj {w w' cs cs' : List Char} (word : ∀ c ∈ w, isWord c = true)
    (word' : ∀ c ∈ w', isWord c = true) (outside : StartsOutside cs) (outside' : StartsOutside cs')
    (same : w ++ cs = w' ++ cs') : w = w' := by
  rw [← (takeWhile_dropWhile_of_stop word outside).1, same,
    (takeWhile_dropWhile_of_stop word' outside').1]

/-- What a word is replaced by: the word with a suffix, both of word characters. -/
structure Renaming where
  name : List Char
  suffix : List Char
  name_ne_nil : name ≠ []
  isWord_of_mem_name : ∀ c ∈ name, isWord c = true
  isWord_of_mem_suffix : ∀ c ∈ suffix, isWord c = true
  underscore_mem_suffix : '_' ∈ suffix

namespace Renaming

variable (r : Renaming) {inside : Bool} {c : Char} {w cs cs' : List Char}

/-- The text with the word replaced. It may start inside a word. -/
def apply (inside : Bool) (cs : List Char) : List Char :=
  replaceWord r.name (r.name ++ r.suffix) (if inside then some '_' else none) cs

theorem isWord_of_head {c : Char} (first : r.name.head? = some c) : isWord c = true :=
  r.isWord_of_mem_name c (List.mem_of_head? first)

/-- The word is found where no word goes on before or behind it. -/
theorem startsWithWord_iff {before : Option Char} :
    startsWithWord r.name before cs = true ↔
      (before.map isWord).getD false = false ∧ ∃ rest, cs = r.name ++ rest ∧ StartsOutside rest := by
  obtain ⟨c, first⟩ := Option.ne_none_iff_exists'.mp (mt List.head?_eq_none_iff.mp r.name_ne_nil)
  obtain ⟨d, last⟩ := Option.ne_none_iff_exists'.mp (mt List.getLast?_eq_none_iff.mp r.name_ne_nil)
  have word : isWord d = true := r.isWord_of_mem_name d (List.mem_of_getLast? last)
  have boundary (rest : List Char) :
      (atBoundary before (r.name ++ rest).head? && atBoundary (r.name.getLast?.orElse fun _ => before)
        ((r.name ++ rest).drop r.name.length).head?) = true ↔
      (before.map isWord).getD false = false ∧ StartsOutside rest := by
    rw [List.drop_left, List.head?_append, first, last, startsOutside_iff]
    simp [atBoundary, r.isWord_of_head first, word]
  constructor
  · intro starts
    unfold startsWithWord at starts
    rw [Bool.and_assoc, Bool.and_eq_true, List.isPrefixOf_iff_prefix] at starts
    obtain ⟨⟨rest, rfl⟩, bounded⟩ := starts
    obtain ⟨outside, outside'⟩ := (boundary rest).mp bounded
    exact ⟨outside, rest, rfl, outside'⟩
  · rintro ⟨outside, rest, rfl, outside'⟩
    unfold startsWithWord
    rw [Bool.and_assoc, Bool.and_eq_true, List.isPrefixOf_iff_prefix]
    exact ⟨List.prefix_append _ _, (boundary rest).mpr ⟨outside, outside'⟩⟩

theorem startsWithWord_inside :
    startsWithWord r.name (if inside then some '_' else none) cs = true ↔
      inside = false ∧ ∃ rest, cs = r.name ++ rest ∧ StartsOutside rest := by
  rw [startsWithWord_iff]
  cases inside with
  | false => simp
  | true => simp [show isWord '_' = true by decide]

/-- What stands before a text matters only by being in a word or not. -/
theorem replaceWord_eq_apply (before : Option Char) (cs : List Char) :
    replaceWord r.name (r.name ++ r.suffix) before cs =
      r.apply ((before.map isWord).getD false) cs := by
  have same : ∀ cs, startsWithWord r.name before cs = startsWithWord r.name
      (if (before.map isWord).getD false = true then some '_' else none) cs := by
    intro cs
    rw [Bool.eq_iff_iff, startsWithWord_iff, startsWithWord_inside]
  unfold apply replaceWord
  cases cs <;> simp only [same]

@[simp] theorem apply_nil : r.apply inside [] = [] := by
  unfold apply replaceWord
  refine if_neg fun starts => ?_
  obtain ⟨_, rest, empty, _⟩ := r.startsWithWord_inside.mp starts
  exact r.name_ne_nil (List.append_eq_nil_iff.mp empty.symm).1

/-- A mention of the word. -/
theorem apply_name (outside : StartsOutside cs) :
    r.apply false (r.name ++ cs) = r.name ++ r.suffix ++ r.apply true cs := by
  have starts := r.startsWithWord_inside.mpr ⟨rfl, cs, rfl, outside⟩
  obtain ⟨c, w, name⟩ := List.exists_cons_of_ne_nil r.name_ne_nil
  have text : r.name ++ cs = c :: (w ++ cs) := by rw [name, List.cons_append]
  obtain ⟨d, last⟩ := Option.ne_none_iff_exists'.mp (mt List.getLast?_eq_none_iff.mp r.name_ne_nil)
  have word : isWord d = true := r.isWord_of_mem_name d (List.mem_of_getLast? last)
  have behind : (w ++ cs).drop (r.name.length - 1) = cs := by simp [name]
  rw [text] at starts ⊢
  rw [apply, replaceWord, if_pos starts, if_neg (by simp [name]), behind, replaceWord_eq_apply, last]
  simp [word]

/-- A character that does not start a mention stays. -/
theorem apply_cons (stays : inside = true ∨ ∀ rest, c :: cs = r.name ++ rest → ¬StartsOutside rest) :
    r.apply inside (c :: cs) = c :: r.apply (isWord c) cs := by
  conv => lhs; unfold apply replaceWord
  rw [if_neg, replaceWord_eq_apply]
  · rfl
  · intro starts
    obtain ⟨rfl, rest, same, outside⟩ := r.startsWithWord_inside.mp starts
    exact stays.elim nofun fun other => other rest same outside

/-- What stands between words stays. -/
theorem apply_other (other : isWord c = false) : r.apply inside (c :: cs) = c :: r.apply false cs := by
  rw [r.apply_cons, other]
  refine .inr fun rest same _ => ?_
  obtain ⟨d, w, name⟩ := List.exists_cons_of_ne_nil r.name_ne_nil
  rw [name] at same
  have word := r.isWord_of_mem_name d (by simp [name])
  rw [← (List.cons.inj same).1, other] at word
  cases word

theorem apply_others {cs' : List Char} (others : ∀ d ∈ c :: cs', isWord d = false) :
    r.apply inside (c :: (cs' ++ cs)) = c :: (cs' ++ r.apply false cs) := by
  induction cs' generalizing c inside with
  | nil => exact r.apply_other (others c (by simp))
  | cons d cs' ih =>
    rw [List.forall_mem_cons] at others
    rw [List.cons_append, r.apply_other others.1, ih others.2]
    rfl

/-- The rest of a word stays. -/
theorem apply_inside (word : ∀ c ∈ w, isWord c = true) :
    r.apply true (w ++ cs) = w ++ r.apply true cs := by
  induction w with
  | nil => rfl
  | cons c w ih =>
    rw [List.forall_mem_cons] at word
    rw [List.cons_append, r.apply_cons (.inl rfl), word.1, ih word.2, List.cons_append]

/-- The word that stands for a word. -/
def word (w : List Char) : List Char :=
  if w = r.name then r.name ++ r.suffix else w

/-- A word at the start of a text is replaced by itself or, if it is the word, with the suffix. -/
theorem apply_word (nonempty : w ≠ []) (word : ∀ c ∈ w, isWord c = true) (outside : StartsOutside cs) :
    r.apply false (w ++ cs) = r.word w ++ r.apply true cs := by
  unfold Renaming.word
  by_cases mention : w = r.name
  · rw [if_pos mention, mention, r.apply_name outside]
  · rw [if_neg mention]
    obtain ⟨c, w, rfl⟩ := List.exists_cons_of_ne_nil nonempty
    have stays : ∀ rest, c :: (w ++ cs) = r.name ++ rest → ¬StartsOutside rest :=
      fun rest same outside' => mention (word_inj word r.isWord_of_mem_name outside outside' same)
    rw [List.forall_mem_cons] at word
    rw [List.cons_append, r.apply_cons (.inr stays), word.1, r.apply_inside word.2, List.cons_append]

theorem isWord_of_mem_word (word : ∀ c ∈ w, isWord c = true) : ∀ c ∈ r.word w, isWord c = true := by
  unfold Renaming.word
  split
  · intro c among
    exact (List.mem_append.mp among).elim (r.isWord_of_mem_name c) (r.isWord_of_mem_suffix c)
  · exact word

/-- Between words it does not matter what stands before. -/
theorem apply_outside (outside : StartsOutside cs) : r.apply inside cs = r.apply false cs := by
  cases cs with
  | nil => rw [apply_nil, apply_nil]
  | cons c cs =>
    have other := startsOutside_cons.mp outside
    rw [r.apply_other other, r.apply_other other]

/-- Texts can be cut at the end of a word. -/
theorem apply_append (outside : StartsOutside cs') :
    r.apply inside (cs ++ cs') = r.apply inside cs ++ r.apply false cs' := by
  induction cs using words_induction generalizing inside with
  | nil => simpa using r.apply_outside outside
  | other c cs other ih =>
    rw [List.cons_append, r.apply_other other, r.apply_other other, ih, List.cons_append]
  | word w cs nonempty word ended ih =>
    have ended' := ended.append outside
    rw [List.append_assoc]
    cases inside with
    | false =>
      rw [r.apply_word nonempty word ended', r.apply_word nonempty word ended, ih, List.append_assoc]
    | true => rw [r.apply_inside word, r.apply_inside word, ih, List.append_assoc]

theorem head?_word (nonempty : w ≠ []) : (r.word w ++ cs).head? = w.head? := by
  obtain ⟨c, first⟩ := Option.ne_none_iff_exists'.mp (mt List.head?_eq_none_iff.mp nonempty)
  unfold Renaming.word
  split
  next same => rw [← same, List.append_assoc, List.head?_append, first, Option.some_or]
  next => rw [List.head?_append, first, Option.some_or]

/-- A text starts with the same character. -/
theorem head?_apply (inside : Bool) (cs : List Char) : (r.apply inside cs).head? = cs.head? := by
  induction cs using words_induction with
  | nil => rw [apply_nil]
  | other c cs other _ => rw [r.apply_other other]; rfl
  | word w cs nonempty word outside _ =>
    obtain ⟨c, first⟩ := Option.ne_none_iff_exists'.mp (mt List.head?_eq_none_iff.mp nonempty)
    cases inside with
    | true => rw [r.apply_inside word, List.head?_append, List.head?_append, first]; rfl
    | false =>
      rw [r.apply_word nonempty word outside, r.head?_word nonempty, List.head?_append, first]
      rfl

/-- A text in which no underscore stands afterwards has no mention of the word. -/
theorem apply_eq_self (free : '_' ∉ r.apply inside cs) : r.apply inside cs = cs := by
  induction cs using words_induction generalizing inside with
  | nil => exact r.apply_nil
  | other c cs other ih =>
    rw [r.apply_other other] at free ⊢
    rw [ih fun among => free (List.mem_cons_of_mem c among)]
  | word w cs nonempty word outside ih =>
    have rest {w' : List Char} (whole : r.apply inside (w ++ cs) = w' ++ r.apply true cs) :
        '_' ∉ w' ∧ r.apply true cs = cs := by
      rw [whole, List.mem_append, not_or] at free
      exact ⟨free.1, ih free.2⟩
    cases inside with
    | true =>
      have whole : r.apply true (w ++ cs) = w ++ r.apply true cs := r.apply_inside word
      rw [whole, (rest whole).2]
    | false =>
      have whole := r.apply_word nonempty word outside
      obtain ⟨free, same⟩ := rest whole
      rw [whole, same]
      unfold Renaming.word at free ⊢
      split at free
      next => exact absurd (List.mem_append_right _ r.underscore_mem_suffix) free
      next other => rw [if_neg other]

end Renaming

end Workflow.Composition
