import Mathlib
import Workflow.Proofs.Dialect.Agreement
import Workflow.Proofs.Dialect.Interpolation

/-!
What the validation of a text in one dialect says of its evaluation, and how much it reports: one problem
for each malformed expression, or one for a delimiter that is left open.
-/

namespace Workflow.Delimited

variable {d : Delimited} {text : String} {segments : List Segment} {tail : List Char}

def isMalformed (s : Segment) : Bool :=
  !(Expression.parse s.body).isOk

theorem problem?_isSome (d : Delimited) (s : Segment) : (d.problem? s).isSome = isMalformed s := by
  unfold problem? isMalformed
  cases Expression.parse s.body <;> rfl

theorem length_filterMap_problem? (d : Delimited) (segments : List Segment) :
    (segments.filterMap d.problem?).length = segments.countP isMalformed := by
  rw [List.length_filterMap_eq_countP]
  exact List.countP_congr fun s _ => by rw [d.problem?_isSome]

/-- The problems of a text are as many as its malformed expressions, or there is one where a delimiter is
left open. -/
theorem length_validate (opening : d.opening ≠ "") :
    (∃ segments tail, d.delimiters.Decomposes d.delimiters.ClosesFirst text.toList segments tail ∧
      (d.validate text).length = segments.countP isMalformed) ∨
    ∃ unclosed, d.delimiters.LeavesOpen text.toList unclosed ∧ (d.validate text).length = 1 := by
  have opening := delimiters_opening_ne_nil opening
  unfold validate
  cases cut : d.segments text with
  | error unclosed => exact .inr ⟨unclosed, (Delimiters.segments_eq_error_iff opening).mp cut, rfl⟩
  | ok found =>
    refine .inl ⟨found.1, found.2, (Delimiters.segments_eq_ok_iff opening).mp cut, ?_⟩
    exact length_filterMap_problem? d found.1

/-- A text without problems is called malformed over no context, and one with problems has no value over
any. The problems are as many as the malformed expressions of the text, or there is one, where a
delimiter is left open. -/
theorem validate_predicts (d : Delimited) (text : String) (opening : d.opening ≠ "") :
    (d.validate text = [] → ∀ data f reason, d.evaluate text data = .error f →
      f.cause ≠ .malformed reason) ∧
    (d.validate text ≠ [] → ∀ data, ∃ f, d.evaluate text data = .error f) ∧
    ((∃ segments tail, d.delimiters.Decomposes d.delimiters.ClosesFirst text.toList segments tail ∧
      (d.validate text).length = segments.countP isMalformed) ∨
    ∃ unclosed, d.delimiters.LeavesOpen text.toList unclosed ∧ (d.validate text).length = 1) :=
  ⟨fun silent _ _ _ failed => evaluate_not_malformed silent failed, evaluate_of_validate,
    length_validate opening⟩

/-- Two malformed expressions beside a well-formed one, and a text without problems. -/
theorem twoMalformed_predicts :
    ((percent.validate "<% ( %>, <% a %> and <% 1 + %>").length = 2 ∧
      ∀ data, ∃ f, percent.evaluate "<% ( %>, <% a %> and <% 1 + %>" data = .error f) ∧
    percent.validate "<% ctx(a) %> <% b %>" = [] ∧
      ∀ data f reason, percent.evaluate "<% ctx(a) %> <% b %>" data = .error f →
        f.cause ≠ .malformed reason := by
  let found : List Segment :=
    [⟨[], " ( ".toList⟩, ⟨", ".toList, " a ".toList⟩, ⟨" and ".toList, " 1 + ".toList⟩]
  have cut : percent.segments "<% ( %>, <% a %> and <% 1 + %>" = .ok (found, []) := by cbv
  have malformed : found.countP isMalformed = 2 := by cbv
  have silent : percent.validate "<% ctx(a) %> <% b %>" = [] := by cbv
  obtain ⟨_, fails, count⟩ := validate_predicts percent "<% ( %>, <% a %> and <% 1 + %>" (by decide)
  obtain ⟨quiet, _, _⟩ := validate_predicts percent "<% ctx(a) %> <% b %>" (by decide)
  have two : (percent.validate "<% ( %>, <% a %> and <% 1 + %>").length = 2 := by
    obtain ⟨segments', tail, decomposes, same⟩ | ⟨unclosed, leaves, _⟩ := count
    · have cut' := decomposes.segments_eq (by decide)
      rw [Delimited.segments, cut'] at cut
      cases cut
      rw [same, malformed]
    · have cut' := leaves.segments_eq (by decide)
      rw [Delimited.segments, cut'] at cut
      cases cut
  have reported : percent.validate "<% ( %>, <% a %> and <% 1 + %>" ≠ [] := by
    intro none_
    rw [none_] at two
    cases two
  exact ⟨⟨two, fails reported⟩, silent, quiet silent⟩

end Workflow.Delimited
