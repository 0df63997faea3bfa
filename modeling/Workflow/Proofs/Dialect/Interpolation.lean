import Mathlib
import Workflow.Dialect.Delimited
import Workflow.Proofs.Dialect.Cuts
import Workflow.Proofs.Results

/-!
The value of a text with expressions: each expression gives way to the text of its value, where it
stands. This is also what comes of it when each expression is searched for anew, in what is left of the
text behind the one before.
-/

namespace Workflow

open Text (splitAtFirst FirstAt splitAtFirst_eq_some_iff)

/-- An expression stands first where its opening delimiter does. -/
theorem Delimiters.splitAtFirst_source {d : Delimiters} {cs behind : List Char} {s : Segment}
    (opened : FirstAt d.opening cs s.gap (s.body ++ d.closing ++ behind)) :
    splitAtFirst (s.source d) cs = some (s.gap, behind) := by
  rw [Segment.source, List.append_assoc]
  exact splitAtFirst_eq_some_iff.mpr opened.extend

namespace Delimited

variable {d : Delimited} {data : Value} {text : String} {cs tail : List Char} {segments : List Segment}

/-- The gaps of a text with the texts of the values between them. -/
def filledIn (segments : List Segment) (tail : List Char) (values : List Value) : List Char :=
  (List.zipWith (fun s value => s.gap ++ value.text.toList) segments values).flatten ++ tail

theorem interpolate_cons {s : Segment} :
    d.interpolate data tail (s :: segments) = (d.evaluateSegment data s).bind fun value =>
      (d.interpolate data tail segments).map fun rest => s.gap ++ value.text.toList ++ rest := by
  rw [interpolate]
  cases d.evaluateSegment data s <;> rfl

/-- All values first, then the text: no value depends on another. -/
theorem interpolate_eq_mapM :
    d.interpolate data tail segments =
      (segments.mapM (d.evaluateSegment data)).map (filledIn segments tail) := by
  induction segments with
  | nil => rfl
  | cons s segments ih =>
    rw [interpolate_cons, List.mapM_cons, ih]
    cases d.evaluateSegment data s with
    | error f => rfl
    | ok value =>
      cases segments.mapM (d.evaluateSegment data) with
      | error f => rfl
      | ok values => simp [Except.map, bind, Except.bind, pure, Except.pure, filledIn]

/-- Fills in the values of expressions, each of which is looked for in what is left of the text. -/
def fillInFound (d : Delimited) (data : Value) : List Segment → List Char → Except Failure (List Char)
  | [], cs => .ok cs
  | s :: segments, cs =>
    match splitAtFirst (s.source d.delimiters) cs with
    | none => d.fillInFound data segments cs
    | some (gap, behind) =>
      match d.evaluateSegment data s with
      | .error f => .error f
      | .ok value =>
        (d.fillInFound data segments behind).map fun rest => gap ++ value.text.toList ++ rest

theorem fillInFound_cons {s : Segment} {gap behind : List Char}
    (found : splitAtFirst (s.source d.delimiters) cs = some (gap, behind)) :
    d.fillInFound data (s :: segments) cs = (d.evaluateSegment data s).bind fun value =>
      (d.fillInFound data segments behind).map fun rest => gap ++ value.text.toList ++ rest := by
  rw [fillInFound, found]
  cases d.evaluateSegment data s <;> rfl

/-- The expressions of a text are found again where they are. -/
theorem fillInFound_eq {closes : List Char → List Char → Prop}
    (decomposes : d.delimiters.Decomposes closes cs segments tail) :
    d.fillInFound data segments cs = d.interpolate data tail segments := by
  induction decomposes with
  | tail absent => rfl
  | segment opened closed others ih =>
    rw [fillInFound_cons (Delimiters.splitAtFirst_source opened), interpolate_cons, ih]

/-- A text that is not one expression alone has its values filled in. -/
theorem evaluate_eq_map (cut : d.segments text = .ok (segments, tail))
    (whole : segments = [] → tail = text.toList)
    (mixed : ∀ s, segments = [s] → s.source d.delimiters ≠ Text.trim text.toList) :
    d.evaluate text data =
      (d.interpolate data tail segments).map fun cs => .string (String.ofList cs) := by
  unfold evaluate
  rw [cut]
  match segments with
  | [] =>
    rw [interpolate, whole rfl]
    simp [Except.map]
  | [s] => exact if_neg (mixed s rfl)
  | _ :: _ :: _ => rfl

/-- A text that is one expression alone, but for blanks around it, has the value of the expression. -/
theorem evaluate_alone {s : Segment} {e : Expression} {value : Value}
    (cut : d.segments text = .ok ([s], tail)) (alone : s.source d.delimiters = Text.trim text.toList)
    (parsed : Expression.parse s.body = .ok e) (evaluated : e.evaluate data = .ok value) :
    d.evaluate text data = .ok value := by
  unfold evaluate
  simp only [cut, alone, if_true]
  unfold evaluateSegment
  rw [parsed]
  exact congrArg (Except.mapError (Failure.ofFault (d.source s))) evaluated

theorem delimiters_opening_ne_nil (opening : d.opening ≠ "") : d.delimiters.opening ≠ [] :=
  fun empty => opening (String.toList_eq_nil_iff.mp empty)

theorem delimiters_closing_ne_nil (closing : d.closing ≠ "") : d.delimiters.closing ≠ [] :=
  fun empty => closing (String.toList_eq_nil_iff.mp empty)

/-- What a text with expressions is cut into and what its value is. It has segments exactly when it can
be decomposed at its delimiters, which it can in one way only, and these are its segments; and it has
none exactly when an opening delimiter is left open. No body holds the closing delimiter, and if that
does not overlap itself, this alone tells where the expressions end. A text that is not one expression
alone, but for white space, has its gaps and the texts of the values as its value, or the failure of the
first expression that has none. -/
theorem expressions_in_place (d : Delimited) (text : String) (opening : d.opening ≠ "")
    (closing : d.closing ≠ "") :
    (∀ segments tail, d.segments text = .ok (segments, tail) ↔
      d.delimiters.Decomposes d.delimiters.ClosesFirst text.toList segments tail) ∧
    (∀ unclosed, d.segments text = .error unclosed ↔ d.delimiters.LeavesOpen text.toList unclosed) ∧
    ∀ segments tail, d.segments text = .ok (segments, tail) →
      (text.toList = (segments.flatMap fun s => s.gap ++ s.source d.delimiters) ++ tail) ∧
      (∀ s ∈ segments, ¬d.delimiters.closing <:+: s.body) ∧
      (¬Delimiters.OverlapsItself d.delimiters.closing → ∀ segments' tail',
        d.delimiters.Decomposes d.delimiters.ClosesOutside text.toList segments' tail' →
          segments' = segments ∧ tail' = tail) ∧
      ∀ data,
        let filled := (segments.mapM (d.evaluateSegment data)).map (filledIn segments tail)
        d.fillInFound data segments text.toList = filled ∧
        ((∀ s, segments = [s] → s.source d.delimiters ≠ Text.trim text.toList) →
          d.evaluate text data = filled.map fun cs => .string (String.ofList cs)) := by
  have opening := delimiters_opening_ne_nil opening
  have closing := delimiters_closing_ne_nil closing
  refine ⟨fun segments tail => Delimiters.segments_eq_ok_iff opening,
    fun unclosed => Delimiters.segments_eq_error_iff opening, fun segments tail cut => ?_⟩
  have decomposes := (Delimiters.segments_eq_ok_iff opening).mp cut
  refine ⟨decomposes.eq, fun s inside => ?_, fun single segments' tail' decomposes' => ?_,
    fun data => ⟨?_, fun mixed => ?_⟩⟩
  · obtain ⟨behind, closed⟩ := decomposes.closes_of_mem inside
    exact closed.outside closing
  · have first := decomposes'.mono fun _ _ closed => closed.first single
    have cut' := first.segments_eq opening
    rw [Delimited.segments, cut'] at cut
    cases cut
    exact ⟨rfl, rfl⟩
  · rw [fillInFound_eq decomposes, interpolate_eq_mapM]
  · rw [evaluate_eq_map cut ?_ mixed, interpolate_eq_mapM]
    rintro rfl
    cases decomposes
    rfl

/-- The same expression twice, between gaps that hold its characters. -/
theorem twice_in_place :
    let segments := [⟨"n ".toList, " n ".toList⟩, ⟨" n % n ".toList, " n ".toList⟩]
    percent.segments "n <% n %> n % n <% n %> n" = .ok (segments, " n".toList) ∧
      percent.delimiters.Decomposes percent.delimiters.ClosesFirst
        "n <% n %> n % n <% n %> n".toList segments " n".toList ∧
      percent.evaluate "n <% n %> n % n <% n %> n" (.object [("n", .bool true)]) =
        .ok (.string "n true n % n true n") := by
  intro segments
  have cut : percent.segments "n <% n %> n % n <% n %> n" = .ok (segments, " n".toList) := by cbv
  obtain ⟨decomposed, _, value⟩ :=
    expressions_in_place percent "n <% n %> n % n <% n %> n" (by decide) (by decide)
  obtain ⟨_, _, _, evaluated⟩ := value segments _ cut
  refine ⟨cut, (decomposed _ _).mp cut, ?_⟩
  have mixed : ∀ s, segments = [s] →
      s.source percent.delimiters ≠ Text.trim "n <% n %> n % n <% n %> n".toList := by
    intro s single
    cases congrArg List.length single
  rw [(evaluated _).2 mixed]
  cbv

/-- A dialect with a closing delimiter that overlaps itself. -/
def angle : Delimited := ⟨"angle", "<<", "))"⟩

/-- Where the closing delimiter overlaps itself, there can be two ways to end an expression so that its
body does not hold it. Segments end at the first one, and here the expression has no value. -/
theorem overlapping_decomposes_twice :
    angle.delimiters.Decomposes angle.delimiters.ClosesOutside "a<<(1)))".toList
      [⟨['a'], ['(', '1']⟩] [')'] ∧
    angle.delimiters.Decomposes angle.delimiters.ClosesOutside "a<<(1)))".toList
      [⟨['a'], ['(', '1', ')']⟩] [] ∧
    angle.segments "a<<(1)))" = .ok ([⟨['a'], ['(', '1']⟩], [')']) ∧
    (∀ data, angle.evaluateSegment data ⟨['a'], ['(', '1', ')']⟩ =
      .ok (.number (.whole ⟨1, by decide⟩))) ∧
    ∀ data, angle.evaluate "a<<(1)))" data =
      .error (.ofMalformed "<<(1))" (.expectedToken .closeParen none)) := by
  have opened (body rest : List Char)
      (behind : body ++ angle.delimiters.closing ++ rest = ['(', '1', ')', ')', ')']) :
      FirstAt angle.delimiters.opening "a<<(1)))".toList ['a']
        (body ++ angle.delimiters.closing ++ rest) := by
    rw [behind]
    exact splitAtFirst_eq_some_iff.mp (by decide)
  have cut : angle.segments "a<<(1)))" = .ok ([⟨['a'], ['(', '1']⟩], [')']) := by cbv
  have read : Expression.parse ['(', '1', ')'] =
      .ok (.literal (.number (.whole ⟨1, by decide⟩))) := by cbv
  have malformed : Expression.parse ['(', '1'] = .error (.expectedToken .closeParen none) := by cbv
  have source : angle.source ⟨['a'], ['(', '1']⟩ = "<<(1))" := by decide
  have outside : ¬angle.delimiters.closing <:+: ['(', '1'] := by decide
  have outside' : ¬angle.delimiters.closing <:+: ['(', '1', ')'] := by decide
  have absent : ¬angle.delimiters.opening <:+: [')'] := by decide
  have absent' : ¬angle.delimiters.opening <:+: [] := by decide
  have first : angle.delimiters.Decomposes angle.delimiters.ClosesOutside "a<<(1)))".toList
      [⟨['a'], ['(', '1']⟩] [')'] :=
    .segment (opened ['(', '1'] [')'] (by decide)) outside (.tail absent)
  have second : angle.delimiters.Decomposes angle.delimiters.ClosesOutside "a<<(1)))".toList
      [⟨['a'], ['(', '1', ')']⟩] [] :=
    .segment (opened ['(', '1', ')'] [] (by decide)) outside' (.tail absent')
  refine ⟨first, second, cut, fun data => ?_, fun data => ?_⟩
  · rw [evaluateSegment, read]
    rfl
  · have other : Segment.source angle.delimiters ⟨['a'], ['(', '1']⟩ ≠
        Text.trim "a<<(1)))".toList := by
      decide
    have mixed : ∀ s, [(⟨['a'], ['(', '1']⟩ : Segment)] = [s] →
        s.source angle.delimiters ≠ Text.trim "a<<(1)))".toList :=
      fun s single => (List.cons.inj single).1 ▸ other
    rw [evaluate_eq_map cut (fun none_ => by cases none_) mixed, interpolate, evaluateSegment, malformed,
      source]
    rfl

end Delimited

end Workflow
