import Mathlib
import Workflow.Proofs.Guard.Guards

/-!
Guards of an instance are the guards of its task with the words exchanged that are the name of the task.
The words of a text are its longest runs of word characters. They are told apart here without regard to
what is looked for.
-/

namespace Workflow

namespace Text

variable {c : Char} {w cs : List Char}

/-- The words of a text, and the characters that stand between words one by one. -/
def pieces (cs : List Char) : List (List Char) :=
  cs.splitBy fun c d => isWord c && isWord d

@[simp] theorem flatten_pieces (cs : List Char) : (pieces cs).flatten = cs :=
  List.flatten_splitBy _ cs

/-- The text holds these characters as a word: no word goes on before or behind them. -/
def HasWord (w cs : List Char) : Prop :=
  ∃ before behind, cs = before ++ w ++ behind ∧ (∀ c ∈ before.getLast?, isWord c = false) ∧
    ∀ c ∈ behind.head?, isWord c = false

/-- A text can be cut into pieces in two parts where no word goes on. -/
theorem pieces_append {before behind : List Char}
    (apart : (∀ c ∈ before.getLast?, isWord c = false) ∨ ∀ c ∈ behind.head?, isWord c = false) :
    pieces (before ++ behind) = pieces before ++ pieces behind := by
  refine List.splitBy_append fun c last d first => ?_
  rw [Bool.and_eq_false_iff]
  exact apart.imp (fun ended => ended c last) fun begun => begun d first

theorem pieces_word (nonempty : w ≠ []) (word : ∀ c ∈ w, isWord c = true) : pieces w = [w] := by
  refine List.splitBy_of_isChain nonempty (List.Pairwise.isChain ?_)
  refine List.pairwise_of_forall_mem_list fun c among d among' => ?_
  rw [word c among, word d among']
  rfl

theorem pieces_cons_other (other : isWord c = false) : pieces (c :: cs) = [c] :: pieces cs := by
  have apart : ∀ d ∈ [c].getLast?, isWord d = false := by
    rintro d ⟨⟩
    exact other
  have split : pieces ([c] ++ cs) = pieces [c] ++ pieces cs := pieces_append (.inl apart)
  exact split

theorem pieces_word_append (nonempty : w ≠ []) (word : ∀ c ∈ w, isWord c = true)
    (outside : ∀ c ∈ cs.head?, isWord c = false) : pieces (w ++ cs) = w :: pieces cs := by
  rw [pieces_append (.inr outside), pieces_word nonempty word]
  rfl

end Text

namespace Composition

open Text (isWord pieces HasWord pieces_cons_other pieces_word_append)

/-- The words that a text has are those among its pieces. -/
theorem mem_pieces_iff {w : List Char} (nonempty : w ≠ []) (word : ∀ c ∈ w, isWord c = true)
    (cs : List Char) : w ∈ pieces cs ↔ HasWord w cs := by
  constructor
  · intro among
    induction cs using words_induction with
    | nil => cases among
    | other c cs other ih =>
      rw [pieces_cons_other other] at among
      cases among with
      | head =>
        rw [word c (List.mem_singleton_self c)] at other
        cases other
      | tail _ among =>
        obtain ⟨before, behind, rfl, ended, outside⟩ := ih among
        refine ⟨c :: before, behind, rfl, ?_, outside⟩
        cases before with
        | nil =>
          rintro d ⟨⟩
          exact other
        | cons d before => rwa [List.getLast?_cons_cons]
    | word w' cs nonempty' word' outside' ih =>
      rw [pieces_word_append nonempty' word' outside'] at among
      cases among with
      | head => exact ⟨[], cs, rfl, nofun, outside'⟩
      | tail _ among =>
        obtain ⟨before, behind, rfl, ended, outside⟩ := ih among
        refine ⟨w' ++ before, behind, by simp, ?_, outside⟩
        -- The word that is found does not come right behind another word.
        have apart : before ≠ [] := by
          rintro rfl
          obtain ⟨c, w, rfl⟩ := List.exists_cons_of_ne_nil nonempty
          have clash := startsOutside_cons.mp outside'
          rw [word c List.mem_cons_self] at clash
          cases clash
        rwa [List.getLast?_append_of_ne_nil _ apart]
  · rintro ⟨before, behind, rfl, ended, outside⟩
    rw [List.append_assoc, Text.pieces_append (.inl ended), pieces_word_append nonempty word outside]
    exact List.mem_append_right _ List.mem_cons_self

namespace Renaming

variable (r : Renaming)

theorem word_of_ne {w : List Char} (other : w ≠ r.name) : r.word w = w :=
  if_neg other

theorem word_ne_name (w : List Char) : r.word w ≠ r.name := by
  unfold word
  split
  next =>
    intro same
    have none_ : r.suffix = [] := List.append_right_eq_self.mp same
    have underscore := r.underscore_mem_suffix
    rw [none_] at underscore
    cases underscore
  next other => exact other

/-- The pieces of a text with the word replaced are its pieces, each with the word replaced. -/
theorem pieces_apply (cs : List Char) : pieces (r.apply false cs) = (pieces cs).map r.word := by
  induction cs using words_induction with
  | nil => rw [apply_nil]; rfl
  | other c cs other ih =>
    have kept : r.word [c] = [c] := by
      refine r.word_of_ne fun same => ?_
      have word := r.isWord_of_mem_name c (by rw [← same]; exact List.mem_singleton_self c)
      rw [other] at word
      cases word
    rw [r.apply_other other, pieces_cons_other other, pieces_cons_other other, List.map_cons, kept, ih]
  | word w cs nonempty word outside ih =>
    have outside' : StartsOutside (r.apply false cs) := by
      rw [StartsOutside, r.head?_apply]
      exact outside
    rw [r.apply_word nonempty word outside, r.apply_outside outside,
      pieces_word_append (word_ne_nil nonempty) (r.isWord_of_mem_word word) outside',
      pieces_word_append nonempty word outside, List.map_cons, ih]

/-- To replace the word in a text is to replace it in each piece. -/
theorem apply_eq_flatten (cs : List Char) :
    r.apply false cs = ((pieces cs).map r.word).flatten := by
  rw [← r.pieces_apply, Text.flatten_pieces]

/-- The word is in no text in which it has been replaced. -/
theorem not_hasWord_text (s : String) : ¬HasWord r.name (r.text s).toList := by
  rw [← mem_pieces_iff r.name_ne_nil r.isWord_of_mem_name, text, String.toList_ofList, r.pieces_apply]
  intro among
  obtain ⟨w, _, same⟩ := List.mem_map.mp among
  exact r.word_ne_name w same

/-- To replace the word once more changes nothing. -/
theorem text_text (s : String) : r.text (r.text s) = r.text s := by
  have same : ∀ w, r.word (r.word w) = r.word w := fun w => r.word_of_ne (r.word_ne_name w)
  have again : r.apply false (r.apply false s.toList) = r.apply false s.toList := by
    rw [r.apply_eq_flatten, r.pieces_apply, List.map_map, r.apply_eq_flatten]
    exact congrArg List.flatten (List.map_congr_left fun w _ => same w)
  rw [text, text, String.toList_ofList, again]

end Renaming

/-- The guards of a task, for one of its instances: the text is that of the guard with the task's name
exchanged for the id of the instance wherever it is a word, and all else in its place. So the name is no
word of it any more, and to exchange it again changes nothing. -/
theorem renamedGuards_exchangeWords (criteria : List String) (task : String) (number : Nat)
    (nonempty : task ≠ "") (word : ∀ c ∈ task.toList, isWord c = true) :
    let id := task ++ "__" ++ toString number
    let renamed := renameInGuards criteria task id
    (renamed = criteria.map fun guard => String.ofList
      ((pieces guard.toList).map fun w => if w = task.toList then id.toList else w).flatten) ∧
    (∀ guard ∈ renamed, ¬HasWord task.toList guard.toList) ∧
    renameInGuards renamed task id = renamed := by
  intro id renamed
  have isName : Inspection.Shape.isTaskName task = true := by
    simpa [Inspection.Shape.isTaskName, nonempty] using word
  let r := Renaming.ofTask task number isName
  have every (guards : List String) : renameInGuards guards task id = guards.map r.text :=
    Renaming.renameInGuards_eq number isName guards
  have same : renamed = criteria.map r.text := every criteria
  have exchanged : id.toList = r.name ++ r.suffix := by
    simp [id, r, Renaming.ofTask, String.toList_append]
  refine ⟨?_, ?_, ?_⟩
  · rw [exchanged, same]
    exact List.map_congr_left fun guard _ => congrArg String.ofList (r.apply_eq_flatten guard.toList)
  · rw [same]
    intro guard among
    obtain ⟨guard, _, rfl⟩ := List.mem_map.mp among
    exact r.not_hasWord_text guard
  · rw [every, same, List.map_map]
    exact List.map_congr_left fun guard _ => r.text_text guard

/-- Mentions next to each other, at both ends, and in longer words. -/
theorem task4_exchangeWords :
    let guards := ["task4 in [task4,task40]", "task4 = task4__2 or old_task4 = 'task4'"]
    let renamed := ["task4__2 in [task4__2,task40]", "task4__2 = task4__2 or old_task4 = 'task4__2'"]
    renameInGuards guards "task4" "task4__2" = renamed ∧
      (∀ guard ∈ renamed, ¬HasWord "task4".toList guard.toList) ∧
      renameInGuards renamed "task4" "task4__2" = renamed := by
  intro guards renamed
  have id : "task4" ++ "__" ++ toString 2 = "task4__2" := by decide
  have word : "task4".toList.all isWord = true := by decide
  have text : renameInGuards guards "task4" "task4__2" = renamed := by cbv
  obtain ⟨_, unmentioned, again⟩ := renamedGuards_exchangeWords guards "task4" 2 (by decide)
    (List.all_eq_true.mp word)
  rw [id, text] at unmentioned again
  exact ⟨text, unmentioned, again⟩

end Composition

end Workflow
