import Mathlib
import Workflow.Dialect.Delimited
import Workflow.Proofs.Expression.Dependence

/-!
The value of a text depends on the variables that are extracted from it, and on no others.
-/

namespace Workflow.Delimited

open Expression (CallsNamed ReadsMembers)

variable {d : Delimited} {text : String} {data data' : Value} {f : Failure} {name : String}

/-- The expressions of a text. Malformed ones are not among them, and there are none where a delimiter is
left open. -/
def expressions (d : Delimited) (text : String) : List Expression :=
  match d.segments text with
  | .error _ => []
  | .ok (segments, _) => segments.filterMap fun s => (Expression.parse s.body).toOption

theorem mem_expressions {segments : List Segment} {tail : List Char} {s : Segment} {e : Expression}
    (cut : d.segments text = .ok (segments, tail)) (inside : s ∈ segments)
    (parsed : Expression.parse s.body = .ok e) : e ∈ d.expressions text := by
  unfold expressions
  rw [cut]
  exact List.mem_filterMap.mpr ⟨s, inside, by rw [parsed]; rfl⟩

theorem mem_variableRefs {segments : List Segment} {tail : List Char} {s : Segment} {e : Expression}
    (cut : d.segments text = .ok (segments, tail)) (inside : s ∈ segments)
    (parsed : Expression.parse s.body = .ok e) (mentioned : name ∈ e.variableNames) :
    ⟨d.name, d.source s, name⟩ ∈ d.variableRefs text := by
  unfold variableRefs
  rw [cut]
  refine List.mem_flatMap.mpr ⟨s, inside, ?_⟩
  unfold segmentVariables
  rw [parsed]
  exact List.mem_map_of_mem mentioned

/-- Interpolation fails only where an expression does. -/
theorem interpolate_eq_error {tail : List Char} {segments : List Segment}
    (failed : d.interpolate data tail segments = .error f) :
    ∃ s ∈ segments, d.evaluateSegment data s = .error f := by
  induction segments with
  | nil => simp [interpolate] at failed
  | cons s segments ih =>
    unfold interpolate at failed
    split at failed
    next f' failed' =>
      cases failed
      exact ⟨s, List.mem_cons_self, failed'⟩
    next =>
      obtain ⟨other, inside, failed⟩ := ih (map_eq_error_iff.mp failed)
      exact ⟨other, List.mem_cons_of_mem s inside, failed⟩

theorem interpolate_congr {tail : List Char} {segments : List Segment}
    (each : ∀ s ∈ segments, d.evaluateSegment data s = d.evaluateSegment data' s) :
    d.interpolate data tail segments = d.interpolate data' tail segments := by
  induction segments with
  | nil => rfl
  | cons s segments ih =>
    rw [List.forall_mem_cons] at each
    unfold interpolate
    rw [each.1, ih each.2]

/-- A text whose delimiters are closed fails only where an expression does. -/
theorem evaluate_eq_error {segments : List Segment} {tail : List Char}
    (cut : d.segments text = .ok (segments, tail)) (failed : d.evaluate text data = .error f) :
    ∃ s ∈ segments, d.evaluateSegment data s = .error f := by
  unfold evaluate at failed
  rw [cut] at failed
  match segments with
  | [] => cases failed
  | [s] =>
    simp only at failed
    split at failed
    · exact ⟨s, List.mem_singleton_self s, failed⟩
    · exact interpolate_eq_error (map_eq_error_iff.mp failed)
  | s :: s' :: segments => exact interpolate_eq_error (map_eq_error_iff.mp failed)

/-- A text has the same value over two contexts if its segments have. -/
theorem evaluate_congr
    (each : ∀ segments tail, d.segments text = .ok (segments, tail) →
      ∀ s ∈ segments, d.evaluateSegment data s = d.evaluateSegment data' s) :
    d.evaluate text data = d.evaluate text data' := by
  unfold evaluate
  match cut : d.segments text with
  | .error _ => rfl
  | .ok ([], _) => rfl
  | .ok ([s], tail) =>
    have same := each [s] tail cut
    simp only [interpolate_congr same, same s (List.mem_singleton_self s)]
  | .ok (s :: s' :: segments, tail) =>
    simp only [interpolate_congr (each _ tail cut)]

/-- A segment misses a variable where its expression does. -/
theorem evaluateSegment_undefined {s : Segment} (failed : d.evaluateSegment data s = .error f)
    (cause : f.cause = .undefinedVariable name) :
    ∃ e, Expression.parse s.body = .ok e ∧ e.evaluate data = .error (.undefined name) ∧
      f.expression = d.source s := by
  unfold evaluateSegment at failed
  split at failed
  next =>
    cases failed
    cases cause
  next e parsed =>
    refine ⟨e, parsed, ?_⟩
    cases value : e.evaluate data with
    | ok value =>
      rw [value] at failed
      cases failed
    | error fault =>
      rw [value] at failed
      cases failed
      cases fault with
      | undefined name' =>
        cases cause
        exact ⟨rfl, rfl⟩
      | mismatch => cases cause
      | unknownFunction => cases cause

/-- Where every call of `ctx` with one argument names its variable, a variable that evaluation misses is
extracted from the text. Where the context as a whole moreover only stands for the members that are read,
contexts that agree on the extracted variables give the text the same value, or the same failure. -/
theorem variableRefs_sound (d : Delimited) (text : String)
    (named : ∀ e ∈ d.expressions text, e.CallsNamed) :
    (∀ data f name, d.evaluate text data = .error f → f.cause = .undefinedVariable name →
      ⟨d.name, f.expression, name⟩ ∈ d.variableRefs text) ∧
    ((∀ e ∈ d.expressions text, e.ReadsMembers) → ∀ data data' : Value,
      (∀ v ∈ d.variableRefs text, data.member? v.name = data'.member? v.name) →
        d.evaluate text data = d.evaluate text data') := by
  constructor
  · intro data f name failed cause
    cases cut : d.segments text with
    | error unclosed =>
      unfold evaluate at failed
      rw [cut] at failed
      cases failed
      cases cause
    | ok found =>
      obtain ⟨segments, tail⟩ := found
      obtain ⟨s, inside, failed⟩ := evaluate_eq_error cut failed
      obtain ⟨e, parsed, missed, source⟩ := evaluateSegment_undefined failed cause
      have mentioned := Expression.mem_variableNames_of_undefined
        (named e (mem_expressions cut inside parsed)) missed
      rw [source]
      exact mem_variableRefs cut inside parsed mentioned
  · intro members data data' agree
    apply evaluate_congr
    intro segments tail cut s inside
    unfold evaluateSegment
    split
    next => rfl
    next e parsed =>
      have within := mem_expressions cut inside parsed
      have same : e.evaluate data = e.evaluate data' := by
        apply Expression.evaluate_congr (named e within) (members e within)
        intro name mentioned
        exact agree _ (mem_variableRefs cut inside parsed mentioned)
      rw [same]

def readsTwo : String :=
  "<% ctx(a) %> of <% ctx().b %>"

theorem expressions_readsTwo : percent.expressions readsTwo =
    [.call "ctx" [.var "a"], .attr (.call "ctx" []) "b"] := by
  cbv

/-- Without `b` the text has no value, and what it misses is extracted; with both, its value does not
depend on what else there is. -/
theorem readsTwo_sound :
    (∀ e ∈ percent.expressions readsTwo, e.CallsNamed ∧ e.ReadsMembers) ∧
    percent.evaluate readsTwo (.object [("a", .string "1")]) =
      .error ⟨"<% ctx().b %>", .undefinedVariable "b"⟩ ∧
    ⟨"percent", "<% ctx().b %>", "b"⟩ ∈ percent.variableRefs readsTwo ∧
    percent.evaluate readsTwo (.object [("a", .string "1"), ("b", .string "2")]) =
      percent.evaluate readsTwo (.object [("a", .string "1"), ("b", .string "2"), ("c", .null)]) := by
  have confined : ∀ e ∈ percent.expressions readsTwo, e.CallsNamed ∧ e.ReadsMembers := by
    rw [expressions_readsTwo]
    simp [CallsNamed, ReadsMembers, Expression.children, Expression.isContext]
  obtain ⟨missed, depends⟩ := variableRefs_sound percent readsTwo fun e inside => (confined e inside).1
  have failed : percent.evaluate readsTwo (.object [("a", .string "1")]) =
      .error ⟨"<% ctx().b %>", .undefinedVariable "b"⟩ := by cbv
  have extracted : percent.variableRefs readsTwo =
      [⟨"percent", "<% ctx(a) %>", "a"⟩, ⟨"percent", "<% ctx().b %>", "b"⟩] := by cbv
  refine ⟨confined, failed, missed _ _ _ failed rfl, ?_⟩
  apply depends fun e inside => (confined e inside).2
  rw [extracted]
  simp [Value.member?, List.lookup]

end Workflow.Delimited
