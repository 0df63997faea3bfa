import Workflow.Inspection.Shape
import Workflow.Proofs.Dialect.Agreement
import Workflow.Proofs.Expression.Renaming
import Workflow.Proofs.Guard.Segments
import Workflow.Proofs.Guard.Tokens

/-!
Guards that mention a task, for an instance of it. A guard stays well formed, and it reads the same
variables unless it mentions the task where the context is read.
-/

namespace Workflow

def Expression.Calls (function : String) (e : Expression) : Prop :=
  ∃ arguments, Expression.Part (.call function arguments) e

namespace Delimited

variable {d : Delimited} {text : String}

/-- The expressions of a text as they are written: strings hold what stands between their quotes. -/
def writtenExpressions (d : Delimited) (text : String) : List Expression :=
  match d.segments text with
  | .error _ => []
  | .ok (segments, _) => segments.filterMap fun s => (Expression.parseWritten s.body).toOption

def variableNames (d : Delimited) (text : String) : List String :=
  (d.variableRefs text).map VariableRef.name

/-- A text is well formed just if it is cut into segments and the body of each is an expression. -/
theorem validate_eq_nil_iff :
    d.validate text = [] ↔ ∃ segments tail, d.segments text = .ok (segments, tail) ∧
      ∀ s ∈ segments, ∃ e, Expression.parse s.body = .ok e := by
  unfold validate
  match d.segments text with
  | .error unclosed => simp
  | .ok (segments, tail) => simp [problem?_eq_none_iff]

def bodyNames (body : List Char) : List String :=
  match Expression.parse body with
  | .error _ => []
  | .ok e => e.variableNames

theorem validate_ne_nil_of_segment {segments : List Segment} {tail : List Char} {s : Segment}
    (cut : d.segments text = .ok (segments, tail)) (inside : s ∈ segments)
    (malformed : (Expression.parse s.body).isOk = false) : d.validate text ≠ [] := by
  intro silent
  obtain ⟨segments', tail', cut', each⟩ := validate_eq_nil_iff.mp silent
  rw [cut] at cut'
  cases cut'
  obtain ⟨e, read⟩ := each s inside
  rw [read] at malformed
  cases malformed

theorem variableNames_eq {segments : List Segment} {tail : List Char}
    (cut : d.segments text = .ok (segments, tail)) :
    d.variableNames text = (segments.map Segment.body).flatMap bodyNames := by
  unfold variableNames variableRefs
  rw [cut]
  simp only [List.map_flatMap, List.flatMap_map]
  refine List.flatMap_congr fun s _ => ?_
  unfold segmentVariables bodyNames
  cases Expression.parse s.body with
  | error e => rfl
  | ok e => simp [Function.comp_def]

end Delimited

namespace Composition

open Delimited (percent)
open Expression (readsContext)
open Text (isWord)

namespace Renaming

variable {r : Renaming} {guard : String} {cs : List Char}

/-- If a value is written as the word, it becomes a name. -/
theorem keepsPhrases_token : Expression.KeepsPhrases (Expression.Token.unescaped ∘ r.token) where
  name s := ⟨r.text s, rfl⟩
  value t v stands := by
    have keyword (s : String) (value? : (Expression.Token.ofWord s).value? = some v)
        (plain : (Expression.Token.ofWord s).unescaped = Expression.Token.ofWord s) :
        (∃ v', (Expression.Token.ofWord (r.text s)).unescaped.value? = some v') ∨
          ∃ s', (Expression.Token.ofWord (r.text s)).unescaped = .name s' := by
      obtain name | same := ofWord_text (r := r) s
      · exact .inr ⟨r.text s, by rw [name]; rfl⟩
      · exact .inl ⟨v, by rwa [same, plain]⟩
    cases t with
    | kwTrue => exact keyword "true" stands rfl
    | kwFalse => exact keyword "false" stands rfl
    | kwNull => exact keyword "null" stands rfl
    | whole | float => exact .inl ⟨v, stands⟩
    | string s => exact .inl ⟨_, rfl⟩
    | _ => cases stands
  other t text value := by
    cases t with
    | name | string => cases text
    | kwTrue | kwFalse | kwNull => cases value
    | _ => rfl

/-- An expression with the word replaced is an expression. -/
theorem exists_parse_apply (named : r.OfName) {e : Expression} (read : Expression.parse cs = .ok e) :
    ∃ e', Expression.parse (r.apply false cs) = .ok e' := by
  obtain ⟨ts, k, n, w, written, fits, d, _, _⟩ := Expression.written_of_parse read
  have written' := written_apply named written d.operandsApart (r.apply false cs).length
  obtain ⟨e', d'⟩ := d.exists_map keepsPhrases_token
  refine ⟨e', Expression.parse_eq_ok_iff.mpr ⟨_, ?_, Expression.ofTokens_eq_ok_iff.mpr ⟨k, n, fits, d'⟩⟩⟩
  rw [Expression.tokenize, Expression.tokensFrom_eq_map, written', Except.map, List.map_map]

/-- If the word is no value, its place in the expression is that of a name or in a string. -/
theorem parse_apply (named : r.OfName) (noValue : String.ofList r.name ∉ ["true", "false", "null"])
    {e : Expression} (read : Expression.parse cs = .ok e) :
    ∃ w, Expression.parseWritten cs = .ok w ∧ w.mapTexts id Expression.unescapedText = e ∧
      Expression.parse (r.apply false cs) =
        .ok (w.mapTexts r.text (Expression.unescapedText ∘ r.text)) := by
  obtain ⟨ts, k, n, w, written, fits, d, read, same⟩ := Expression.written_of_parse read
  have written' := written_apply named written d.operandsApart (r.apply false cs).length
  rw [token_eq_mapTexts noValue] at written'
  exact ⟨w, read, same, Expression.parse_of_written written' fits d⟩

/-- A text stays as it is just if its characters do. -/
theorem text_eq_iff {s : String} : r.text s = s ↔ r.apply false s.toList = s.toList := by
  unfold Renaming.text
  constructor
  · intro same
    rw [← String.toList_ofList (l := r.apply false s.toList), same]
  · intro same
    rw [same, String.ofList_toList]

/-- A function that reads the context is one afterwards only if it was one before. -/
theorem keepsFunctions {e : Expression}
    (uncalled : readsContext (String.ofList r.name) = true → ¬e.Calls (String.ofList r.name)) :
    e.KeepsFunctions r.text := by
  intro part within function arguments called reads
  subst called
  -- What the name is replaced by has an underscore in it, and no such function has.
  obtain before | after := reads
  · obtain ⟨nonempty, word, _⟩ := plain_of_readsContext before
    have other : function.toList ≠ r.name := by
      intro same
      rw [← same, String.ofList_toList] at uncalled
      exact uncalled before ⟨arguments, within⟩
    have kept := r.apply_word nonempty word startsOutside_nil
    exact text_eq_iff.mpr (by simpa [Renaming.word, other] using kept)
  · obtain ⟨_, _, free⟩ := plain_of_readsContext after
    rw [Renaming.text, String.toList_ofList] at free
    exact text_eq_iff.mpr (r.apply_eq_self free)

/-- A well-formed guard, cut into segments, before and after. -/
theorem segments_text (valid : percent.validate guard = []) :
    ∃ segments tail segments' tail', percent.segments guard = .ok (segments, tail) ∧
      (∀ s ∈ segments, ∃ e, Expression.parse s.body = .ok e) ∧
      percent.segments (r.text guard) = .ok (segments', tail') ∧
      segments'.map Segment.body = segments.map fun s => r.apply false s.body := by
  obtain ⟨segments, tail, cut, each⟩ := Delimited.validate_eq_nil_iff.mp valid
  obtain ⟨segments', tail', cut', bodies⟩ := r.percentSegments_apply cut
  refine ⟨segments, tail, segments', tail', cut, each, ?_, bodies⟩
  rw [Delimited.segments, Renaming.text, String.toList_ofList]
  exact cut'

/-- A well-formed guard stays one. -/
theorem validate_text (named : r.OfName) (valid : percent.validate guard = []) :
    percent.validate (r.text guard) = [] := by
  obtain ⟨segments, tail, segments', tail', cut, each, cut', bodies⟩ := segments_text (r := r) valid
  refine Delimited.validate_eq_nil_iff.mpr ⟨segments', tail', cut', fun s' inside' => ?_⟩
  have among : s'.body ∈ segments.map fun s => r.apply false s.body := by
    rw [← bodies]
    exact List.mem_map_of_mem inside'
  obtain ⟨s, inside, same⟩ := List.mem_map.mp among
  obtain ⟨e, read⟩ := each s inside
  obtain ⟨e', read'⟩ := exists_parse_apply named read
  exact ⟨e', same ▸ read'⟩

/-- A guard mentions the same variables if all of them stay as they are written, and the functions that
read the context. -/
theorem variableNames_text (named : r.OfName)
    (noValue : String.ofList r.name ∉ ["true", "false", "null"]) (valid : percent.validate guard = [])
    (kept : ∀ w ∈ percent.writtenExpressions guard,
      (readsContext (String.ofList r.name) = true → ¬w.Calls (String.ofList r.name)) ∧
        ∀ x ∈ w.variableNames, r.text x = x) :
    percent.variableNames (r.text guard) = percent.variableNames guard := by
  obtain ⟨segments, tail, segments', tail', cut, each, cut', bodies⟩ := segments_text (r := r) valid
  rw [Delimited.variableNames_eq cut, Delimited.variableNames_eq cut', bodies, List.flatMap_map,
    List.flatMap_map]
  refine List.flatMap_congr fun s inside => ?_
  obtain ⟨e, read⟩ := each s inside
  obtain ⟨w, written, rfl, read'⟩ := parse_apply named noValue read
  have among : w ∈ percent.writtenExpressions guard := by
    unfold Delimited.writtenExpressions
    rw [cut]
    exact List.mem_filterMap.mpr ⟨s, inside, by rw [written]; rfl⟩
  obtain ⟨uncalled, fixed⟩ := kept w among
  have same := Expression.sameNames w (keepsFunctions uncalled)
    (fun x mentioned => ⟨fixed x mentioned, congrArg Expression.unescapedText (fixed x mentioned)⟩)
  simp only [Delimited.bodyNames, read, read', Expression.variableNames_eq]
  exact congrArg List.eraseDups same

/-- The renaming of a task to one of its instances. -/
def ofTask (task : String) (number : Nat) (isName : Inspection.Shape.isTaskName task = true) :
    Renaming where
  name := task.toList
  suffix := '_' :: '_' :: Nat.toDigits 10 number
  name_ne_nil := by
    intro empty
    simp [Inspection.Shape.isTaskName, String.toList_eq_nil_iff.mp empty] at isName
  isWord_of_mem_name := by
    simp only [Inspection.Shape.isTaskName, Bool.and_eq_true, List.all_eq_true] at isName
    exact isName.2
  isWord_of_mem_suffix := by
    have underscore : isWord '_' = true := by decide
    simp only [List.mem_cons, forall_eq_or_imp, underscore, true_and]
    exact fun c among => isWord_of_isDigit (Nat.isDigit_of_mem_toDigits (by decide) (by decide) among)
  underscore_mem_suffix := List.mem_cons_self

section Task

variable {task : String} (number : Nat) (isName : Inspection.Shape.isTaskName task = true)

theorem ofTask_ofName (noNot : task ≠ "not")
    (noOperator : String.ofList (task.toList.dropWhile Char.isDigit) ∉ ["", "and", "or", "in"]) :
    (ofTask task number isName).OfName where
  noNot := by rwa [ofTask, String.ofList_toList]
  noOperator := noOperator
  isWordPart_of_mem_suffix := by
    have underscore : Expression.isWordPart '_' = true := by decide
    simp only [ofTask, List.mem_cons, forall_eq_or_imp, underscore, true_and]
    exact fun c among =>
      Expression.isWordPart_of_isDigit (Nat.isDigit_of_mem_toDigits (by decide) (by decide) among)

/-- The guards of a task for one of its instances. -/
theorem renameInGuards_eq (criteria : List String) :
    renameInGuards criteria task (task ++ "__" ++ toString number) =
      criteria.map (ofTask task number isName).text := by
  have renamed : task ≠ task ++ "__" ++ toString number := by
    intro same
    have lengths := congrArg String.length same
    rw [String.length_append, String.length_append, show "__".length = 2 from rfl] at lengths
    omega
  have id : (task ++ "__" ++ toString number).toList =
      (ofTask task number isName).name ++ (ofTask task number isName).suffix := by
    simp [ofTask, String.toList_append]
  rw [renameInGuards, if_neg renamed, id]
  rfl

end Task

end Renaming

/-- What the guards of a task are for one of its instances. Well-formed guards stay well formed, unless
the name of the task is an operator, digits, or digits with an operator behind them. They mention the
same variables, if the name is no value, no variable is changed in the way it is written, and no
function that reads the context is called by the name. -/
theorem renamedGuards_keep (task : String) (number : Nat) (criteria : List String)
    (isName : Inspection.Shape.isTaskName task = true) (noNot : task ≠ "not")
    (noOperator : String.ofList (task.toList.dropWhile Char.isDigit) ∉ ["", "and", "or", "in"])
    (valid : ∀ guard ∈ criteria, percent.validate guard = []) :
    let id := task ++ "__" ++ toString number
    (∀ guard ∈ renameInGuards criteria task id, percent.validate guard = []) ∧
      (task ∉ ["true", "false", "null"] →
        (∀ guard ∈ criteria, ∀ w ∈ percent.writtenExpressions guard,
          (readsContext task = true → ¬w.Calls task) ∧
            ∀ x ∈ w.variableNames, renameInGuards [x] task id = [x]) →
        (renameInGuards criteria task id).map percent.variableNames =
          criteria.map percent.variableNames) := by
  intro id
  have named := Renaming.ofTask_ofName number isName noNot noOperator
  rw [Renaming.renameInGuards_eq number isName]
  refine ⟨fun guard among => ?_, fun noValue kept => ?_⟩
  · obtain ⟨guard, inside, rfl⟩ := List.mem_map.mp among
    exact Renaming.validate_text named (valid guard inside)
  · have noValue' : String.ofList (Renaming.ofTask task number isName).name ∉
        ["true", "false", "null"] := by
      rwa [Renaming.ofTask, String.ofList_toList]
    rw [List.map_map]
    refine List.map_congr_left fun guard inside => ?_
    refine Renaming.variableNames_text named noValue' (valid guard inside) fun w among => ?_
    obtain ⟨uncalled, fixed⟩ := kept guard inside w among
    refine ⟨by rwa [Renaming.ofTask, String.ofList_toList], fun x mentioned => ?_⟩
    have same := fixed x mentioned
    rw [Renaming.renameInGuards_eq number isName] at same
    exact (List.cons.inj same).1

/-- A guard that mentions its task, and a variable whose name starts like it. -/
def statusGuard : String :=
  "<% task_status(task4) = 'ok' and ctx(task40) %>"

theorem statusGuard_keeps :
    let renamed := "<% task_status(task4__2) = 'ok' and ctx(task40) %>"
    renameInGuards [statusGuard] "task4" "task4__2" = [renamed] ∧
      percent.validate renamed = [] ∧
      percent.variableNames renamed = percent.variableNames statusGuard := by
  intro renamed
  let e : Expression :=
    .binary .and
      (.binary .equal (.call "task_status" [.var "task4"]) (.literal (.string "ok")))
      (.call "ctx" [.var "task40"])
  have id : "task4" ++ "__" ++ toString 2 = "task4__2" := by decide
  have text : renameInGuards [statusGuard] "task4" "task4__2" = [renamed] := by cbv
  have valid : percent.validate statusGuard = [] := by cbv
  have written : percent.writtenExpressions statusGuard = [e] := by cbv
  have names : e.variableNames = ["task40"] := by cbv
  have isName : Inspection.Shape.isTaskName "task4" = true := by decide
  have noOperator :
      String.ofList ("task4".toList.dropWhile Char.isDigit) ∉ ["", "and", "or", "in"] := by
    decide
  obtain ⟨wellFormed, keeps⟩ :=
    renamedGuards_keep "task4" 2 [statusGuard] isName (by decide) noOperator (by simpa using valid)
  rw [id, text] at wellFormed keeps
  refine ⟨text, wellFormed renamed (by simp), ?_⟩
  suffices kept : ∀ x ∈ e.variableNames, renameInGuards [x] "task4" "task4__2" = [x] by
    have uncalled : readsContext "task4" = true → ¬e.Calls "task4" :=
      fun reads => absurd reads (by decide)
    have same := keeps (by decide)
      (by simpa only [List.mem_singleton, forall_eq, written] using ⟨uncalled, kept⟩)
    simpa using same
  rw [names]
  rintro x inside
  rw [List.mem_singleton.mp inside]
  cbv

/-- Tasks whose instances change a guard. The names of the first three stand in the guard for an
operator, for a number, and for a number with an operator behind it, and the guard is malformed
afterwards. The names of the others stand there for a value, for a variable and for a function that
reads the context, and the guard mentions another variable or none. -/
theorem renamedGuards_differ :
    (Inspection.Shape.isTaskName "not" = true ∧ percent.validate "<% not ctx(a) %>" = [] ∧
      renameInGuards ["<% not ctx(a) %>"] "not" "not__1" = ["<% not__1 ctx(a) %>"] ∧
      percent.validate "<% not__1 ctx(a) %>" ≠ []) ∧
    (Inspection.Shape.isTaskName "5" = true ∧ percent.validate "<% ctx(a) = 5 %>" = [] ∧
      renameInGuards ["<% ctx(a) = 5 %>"] "5" "5__1" = ["<% ctx(a) = 5__1 %>"] ∧
      percent.validate "<% ctx(a) = 5__1 %>" ≠ []) ∧
    (Inspection.Shape.isTaskName "5and" = true ∧ percent.validate "<% 5and ctx(a) %>" = [] ∧
      renameInGuards ["<% 5and ctx(a) %>"] "5and" "5and__1" = ["<% 5and__1 ctx(a) %>"] ∧
      percent.validate "<% 5and__1 ctx(a) %>" ≠ []) ∧
    (Inspection.Shape.isTaskName "true" = true ∧ percent.validate "<% ctx(a) = true %>" = [] ∧
      renameInGuards ["<% ctx(a) = true %>"] "true" "true__1" = ["<% ctx(a) = true__1 %>"] ∧
      percent.variableNames "<% ctx(a) = true %>" = ["a"] ∧
      percent.variableNames "<% ctx(a) = true__1 %>" = ["a", "true__1"]) ∧
    (Inspection.Shape.isTaskName "x" = true ∧ percent.validate "<% ctx(x) %>" = [] ∧
      renameInGuards ["<% ctx(x) %>"] "x" "x__1" = ["<% ctx(x__1) %>"] ∧
      percent.variableNames "<% ctx(x) %>" = ["x"] ∧
      percent.variableNames "<% ctx(x__1) %>" = ["x__1"]) ∧
    Inspection.Shape.isTaskName "len" = true ∧ percent.validate "<% len(x) = len(y) %>" = [] ∧
      renameInGuards ["<% len(x) = len(y) %>"] "len" "len__1" = ["<% len__1(x) = len__1(y) %>"] ∧
      percent.variableNames "<% len(x) = len(y) %>" = ["x", "y"] ∧
      percent.variableNames "<% len__1(x) = len__1(y) %>" = [] := by
  have operator : percent.segments "<% not__1 ctx(a) %>" =
      .ok ([⟨[], " not__1 ctx(a) ".toList⟩], []) := by cbv
  have number : percent.segments "<% ctx(a) = 5__1 %>" =
      .ok ([⟨[], " ctx(a) = 5__1 ".toList⟩], []) := by cbv
  have both : percent.segments "<% 5and__1 ctx(a) %>" =
      .ok ([⟨[], " 5and__1 ctx(a) ".toList⟩], []) := by cbv
  refine ⟨⟨by decide, by cbv, by cbv, ?_⟩, ⟨by decide, by cbv, by cbv, ?_⟩,
    ⟨by decide, by cbv, by cbv, ?_⟩, ⟨by decide, by cbv, by cbv, by cbv, by cbv⟩,
    ⟨by decide, by cbv, by cbv, by cbv, by cbv⟩, by decide, by cbv, by cbv, by cbv, by cbv⟩
  · exact Delimited.validate_ne_nil_of_segment operator (List.mem_singleton_self _) (by cbv)
  · exact Delimited.validate_ne_nil_of_segment number (List.mem_singleton_self _) (by cbv)
  · exact Delimited.validate_ne_nil_of_segment both (List.mem_singleton_self _) (by cbv)

end Composition

end Workflow
