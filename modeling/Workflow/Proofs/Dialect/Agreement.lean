import Workflow.Dialect.Registry
import Workflow.Proofs.Dialect.Dependence

/-!
What validation and evaluation tell of a text. Within one dialect they agree. A registry evaluates in
the dialect that finds an expression, and a dialect with a delimiter left open finds none.
-/

namespace Workflow

namespace Delimited

variable {d : Delimited} {text : String} {data : Value} {f : Failure} {segments : List Segment}
  {tail : List Char}

/-- A delimiter in the text is never closed. -/
def LeavesOpen (d : Delimited) (text : String) : Prop :=
  ∃ unclosed, d.segments text = .error unclosed

theorem LeavesOpen.validate_ne_nil (leaves : d.LeavesOpen text) : d.validate text ≠ [] := by
  obtain ⟨unclosed, cut⟩ := leaves
  unfold validate
  rw [cut]
  exact List.cons_ne_nil _ _

/-- A text that leaves no delimiter open is cut into segments. -/
theorem segments_of_not_leavesOpen (closed : ¬d.LeavesOpen text) :
    ∃ segments tail, d.segments text = .ok (segments, tail) := by
  cases cut : d.segments text with
  | error unclosed => exact absurd ⟨unclosed, cut⟩ closed
  | ok found => exact ⟨found.1, found.2, rfl⟩

/-! ## Malformed segments -/

/-- A segment has no problem just if its body is an expression. -/
theorem problem?_eq_none_iff {s : Segment} :
    d.problem? s = none ↔ ∃ e, Expression.parse s.body = .ok e := by
  unfold problem?
  cases Expression.parse s.body <;> simp

/-- A malformed segment has no value over any context. -/
theorem evaluateSegment_of_problem {s : Segment} {problem : Diagnostic}
    (malformed : d.problem? s = some problem) (data : Value) :
    ∃ f, d.evaluateSegment data s = .error f := by
  unfold problem? at malformed
  unfold evaluateSegment
  split at malformed
  next => cases malformed
  next e parsed =>
    rw [parsed]
    exact ⟨_, rfl⟩

/-- A segment that is well formed is never called malformed. -/
theorem evaluateSegment_not_malformed {s : Segment} {reason : String}
    (wellFormed : d.problem? s = none) (failed : d.evaluateSegment data s = .error f) :
    f.cause ≠ .malformed reason := by
  obtain ⟨e, parsed⟩ := problem?_eq_none_iff.mp wellFormed
  unfold evaluateSegment at failed
  simp only [parsed] at failed
  cases value : e.evaluate data with
  | ok value =>
    rw [value] at failed
    cases failed
  | error fault =>
    rw [value] at failed
    cases failed
    cases fault <;> nofun

/-- A text with a segment that has no value has none. -/
theorem interpolate_of_segment {s : Segment} (tail : List Char) (inside : s ∈ segments)
    (failed : d.evaluateSegment data s = .error f) :
    ∃ f', d.interpolate data tail segments = .error f' := by
  induction segments with
  | nil => cases inside
  | cons first segments ih =>
    unfold interpolate
    cases value : d.evaluateSegment data first with
    | error f' => exact ⟨f', rfl⟩
    | ok value =>
      have later : s ∈ segments := by
        refine (List.mem_cons.mp inside).resolve_left fun same => ?_
        rw [same, value] at failed
        cases failed
      obtain ⟨f', failed'⟩ := ih later
      exact ⟨f', by simp only [failed']; rfl⟩

/-- If one segment has no value, the text has none. -/
theorem evaluate_of_segment {s : Segment} (cut : d.segments text = .ok (segments, tail))
    (inside : s ∈ segments) (failed : d.evaluateSegment data s = .error f) :
    ∃ f', d.evaluate text data = .error f' := by
  obtain ⟨f', interpolated⟩ := interpolate_of_segment tail inside failed
  unfold evaluate
  rw [cut]
  match segments, inside with
  | [only], inside =>
    cases List.mem_singleton.mp inside
    dsimp only
    split
    · exact ⟨f, failed⟩
    · exact ⟨f', map_eq_error_iff.mpr interpolated⟩
  | first :: second :: segments, _ => exact ⟨f', map_eq_error_iff.mpr interpolated⟩

/-! ## One dialect -/

/-- A text that a dialect complains about has no value in it. -/
theorem evaluate_of_validate (reported : d.validate text ≠ []) (data : Value) :
    ∃ f, d.evaluate text data = .error f := by
  cases cut : d.segments text with
  | error unclosed =>
    unfold evaluate
    rw [cut]
    exact ⟨_, rfl⟩
  | ok found =>
    unfold validate at reported
    rw [cut] at reported
    obtain ⟨problem, found'⟩ := List.exists_mem_of_ne_nil _ reported
    obtain ⟨s, inside, malformed⟩ := List.mem_filterMap.mp found'
    obtain ⟨f, failed⟩ := evaluateSegment_of_problem malformed data
    exact evaluate_of_segment cut inside failed

/-- A text that a dialect does not complain about is never called malformed by it. -/
theorem evaluate_not_malformed {reason : String} (silent : d.validate text = [])
    (failed : d.evaluate text data = .error f) : f.cause ≠ .malformed reason := by
  have closed : ¬d.LeavesOpen text := fun leaves => leaves.validate_ne_nil silent
  obtain ⟨segments, tail, cut⟩ := segments_of_not_leavesOpen closed
  obtain ⟨s, inside, failed⟩ := evaluate_eq_error cut failed
  unfold validate at silent
  rw [cut] at silent
  exact evaluateSegment_not_malformed (List.filterMap_eq_nil_iff.mp silent s inside) failed

/-- A dialect that complains about a text without a delimiter left open finds an expression in it. -/
theorem hasExpressions_of_validate (closed : ¬d.LeavesOpen text) (reported : d.validate text ≠ []) :
    d.hasExpressions text = true := by
  obtain ⟨segments, tail, cut⟩ := segments_of_not_leavesOpen closed
  unfold validate at reported
  unfold hasExpressions
  rw [cut] at reported ⊢
  cases segments with
  | nil => exact absurd rfl reported
  | cons => rfl

end Delimited

namespace Registry

variable {r : Registry} {text : String} {data : Value} {f : Failure}

/-- All dialects are given by their delimiters. -/
def IsDelimited (r : Registry) : Prop :=
  ∀ d ∈ r.dialects, ∃ e : Delimited, d = e.dialect

/-- One of the dialects has a delimiter that is never closed in the text. -/
def LeavesOpen (r : Registry) (text : String) : Prop :=
  ∃ e : Delimited, e.dialect ∈ r.dialects ∧ e.LeavesOpen text

theorem validate_ne_nil_iff :
    r.validate text ≠ [] ↔
      (∃ d ∈ r.dialects, d.validate text ≠ []) ∨ 1 < (r.matching text).length := by
  unfold validate
  rw [ne_eq, List.append_eq_nil_iff, not_and_or, List.flatMap_eq_nil_iff]
  by_cases mixed : 1 < (r.matching text).length <;> simp [mixed]

/-- A text mixes dialects, has its value in one of them, or is its own value. -/
theorem evaluate_cases (r : Registry) (text : String) :
    (r.matching text = [] ∧ ∀ data, r.evaluate text data = .ok (.string text)) ∨
      (∃ d, r.matching text = [d] ∧ ∀ data, r.evaluate text data = d.evaluate text data) ∨
      (1 < (r.matching text).length ∧ ∀ data, ∃ f, r.evaluate text data = .error f) := by
  unfold evaluate
  match r.matching text with
  | [] => exact .inl ⟨rfl, fun data => rfl⟩
  | [d] => exact .inr (.inl ⟨d, rfl, fun data => rfl⟩)
  | _ :: _ :: _ => exact .inr (.inr ⟨by simp, fun data => ⟨_, rfl⟩⟩)

/-- A text has no value over any context exactly when it mixes dialects, or is written in one in which
it has none. -/
theorem evaluate_fails_iff :
    (∀ data, ∃ f, r.evaluate text data = .error f) ↔
      1 < (r.matching text).length ∨
        ∃ d, r.matching text = [d] ∧ ∀ data, ∃ f, d.evaluate text data = .error f := by
  obtain ⟨none, value⟩ | ⟨d, one, value⟩ | ⟨many, fails⟩ := r.evaluate_cases text
  · simp [none, value]
  · simp [one, value]
  · simp [many, fails]

/-- Where no delimiter is left open, a text that a dialect complains about is written in that one. -/
theorem evaluate_of_validate (delimited : r.IsDelimited) (closed : ¬r.LeavesOpen text)
    (reported : r.validate text ≠ []) (data : Value) : ∃ f, r.evaluate text data = .error f := by
  obtain ⟨d, inside, complains⟩ | many := validate_ne_nil_iff.mp reported
  · obtain ⟨e, rfl⟩ := delimited d inside
    have found : e.hasExpressions text = true :=
      Delimited.hasExpressions_of_validate (fun leaves => closed ⟨e, inside, leaves⟩) complains
    have among : e.dialect ∈ r.matching text := List.mem_filter.mpr ⟨inside, found⟩
    -- The dialect that complains is one of those that are asked, so if one is asked, it is that one.
    obtain ⟨none, _⟩ | ⟨d, one, value⟩ | ⟨_, fails⟩ := r.evaluate_cases text
    · rw [none] at among
      cases among
    · rw [one] at among
      cases List.mem_singleton.mp among
      rw [value]
      exact Delimited.evaluate_of_validate complains data
    · exact fails data
  · exact evaluate_fails_iff.mpr (.inl many) data

/-- A text that no dialect complains about is never called malformed. -/
theorem evaluate_not_malformed {reason : String} (delimited : r.IsDelimited)
    (silent : r.validate text = []) (failed : r.evaluate text data = .error f) :
    f.cause ≠ .malformed reason := by
  have alone : ¬((∃ d ∈ r.dialects, d.validate text ≠ []) ∨ 1 < (r.matching text).length) :=
    fun some => validate_ne_nil_iff.mpr some silent
  obtain ⟨none, value⟩ | ⟨d, one, value⟩ | ⟨many, _⟩ := r.evaluate_cases text
  · rw [value] at failed
    cases failed
  · have inside : d ∈ r.dialects :=
      List.mem_of_mem_filter (show d ∈ r.matching text by rw [one]; exact List.mem_singleton_self d)
    rw [value] at failed
    obtain ⟨e, rfl⟩ := delimited d inside
    have quiet : e.validate text = [] := by
      by_contra complains
      exact alone (.inl ⟨e.dialect, inside, complains⟩)
    exact Delimited.evaluate_not_malformed quiet failed
  · exact absurd (.inr many) alone

/-- Validation and evaluation agree on a text unless a delimiter is left open in it; then the text
must mix dialects, or be written in one in which it has no value. A text that is found well formed is
never called malformed. -/
theorem validate_agrees (r : Registry) (delimited : r.IsDelimited) (text : String) :
    ((r.validate text ≠ [] → ∀ data, ∃ f, r.evaluate text data = .error f) ↔
      (r.LeavesOpen text → 1 < (r.matching text).length ∨
        ∃ d, r.matching text = [d] ∧ ∀ data, ∃ f, d.evaluate text data = .error f)) ∧
    (r.validate text = [] → ∀ data f reason, r.evaluate text data = .error f →
      f.cause ≠ .malformed reason) := by
  refine ⟨⟨fun agrees leaves => ?_, fun fails reported => ?_⟩,
    fun silent data f reason => evaluate_not_malformed delimited silent⟩
  · obtain ⟨e, inside, leaves⟩ := leaves
    have reported : r.validate text ≠ [] :=
      validate_ne_nil_iff.mpr (.inl ⟨e.dialect, inside, leaves.validate_ne_nil⟩)
    exact evaluate_fails_iff.mp (agrees reported)
  · by_cases leaves : r.LeavesOpen text
    · exact evaluate_fails_iff.mpr (fails leaves)
    · exact fun data => evaluate_of_validate delimited leaves reported data

/-- The registry of the dialects `<% … %>` and `[[ … ]]`. -/
def percentAndSquare : Registry :=
  ofList [Delimited.percent.dialect, Delimited.dialect ⟨"square", "[[", "]]"⟩]

/-- A text in both dialects has no value, and one with a well-formed expression is never called
malformed. -/
theorem percentAndSquare_agrees :
    (∀ data, ∃ f, percentAndSquare.evaluate "<% a %> [[ b ]]" data = .error f) ∧
    (∀ data f reason, percentAndSquare.evaluate "<% ctx(a) %>" data = .error f →
      f.cause ≠ .malformed reason) := by
  have delimited : percentAndSquare.IsDelimited := by
    intro d inside
    obtain rfl | inside := List.mem_cons.mp inside
    · exact ⟨Delimited.percent, rfl⟩
    · exact ⟨⟨"square", "[[", "]]"⟩, List.mem_singleton.mp inside⟩
  have mixed : 1 < (percentAndSquare.matching "<% a %> [[ b ]]").length := by
    have two : (percentAndSquare.matching "<% a %> [[ b ]]").length = 2 := by
      cbv
    omega
  have reported : percentAndSquare.validate "<% a %> [[ b ]]" ≠ [] :=
    validate_ne_nil_iff.mpr (.inr mixed)
  have silent : percentAndSquare.validate "<% ctx(a) %>" = [] := by
    cbv
  obtain ⟨agrees, _⟩ := validate_agrees percentAndSquare delimited "<% a %> [[ b ]]"
  obtain ⟨_, quiet⟩ := validate_agrees percentAndSquare delimited "<% ctx(a) %>"
  exact ⟨agrees.mpr (fun _ => .inl mixed) reported, quiet silent⟩

def percentOnly : Registry :=
  ofList [Delimited.percent.dialect]

/-- A delimiter that is left open is reported, but the text is its own value. -/
theorem openDelimiter_disagrees :
    percentOnly.validate "hello <% name" =
      [{ kind := "percent"
         expression := some "<% name"
         message := "Expression is missing the closing delimiter \"%>\"." }] ∧
    ∀ data, percentOnly.evaluate "hello <% name" data = .ok (.string "hello <% name") := by
  have silent : percentOnly.matching "hello <% name" = [] := by
    cbv
  refine ⟨by cbv, fun data => ?_⟩
  rw [evaluate, silent]

end Registry

end Workflow
