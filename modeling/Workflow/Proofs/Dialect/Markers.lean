import Mathlib
import Workflow.Dialect.Brace
import Workflow.Proofs.Dialect.Cuts
import Workflow.Proofs.Template.Faults
import Workflow.Proofs.Template.Grammar

/-!
The markers of a print that drop the white space next to them. In a template they change nothing
about the expression between them. A text that is one print is not read as a template but without
its first and last two characters, and there the signs of the markers are read as part of the
expression.
-/

namespace Workflow.Brace

open Template
open Text (occursIn_iff isInfix_cons_iff isInfix_concat_iff)

variable {e text : String} {x : Expr} {data : Value} {front behind : Bool} {body body' cs : List Char}
  {n m : Int} {ts : List Token} {template : List Statement}

/-! ## Prints -/

/-- The sign that drops white space, or nothing. -/
def control (drops : Bool) : List Char :=
  if drops then ['-'] else []

/-- What stands between the braces of a print. -/
def between (front behind : Bool) (cs : List Char) : List Char :=
  control front ++ ' ' :: (cs ++ ' ' :: control behind)

/-- The print of an expression, with markers that drop the white space in front of it or behind it. -/
def print (front behind : Bool) (e : String) : String :=
  String.ofList ('\x7b' :: '\x7b' :: (between front behind e.toList ++ ['\x7d', '\x7d']))

/-- A marker stands inside of the text, so a print of the text is not taken for a single one. -/
def HoldsMarker (cs : List Char) : Prop :=
  ['\x7b', '\x7b'] <:+: cs ∨ ['\x7d', '\x7d'] <:+: cs ∨ ['\x7b', '%'] <:+: cs

theorem isInfix_between_iff {pattern : List Char} (nonempty : pattern ≠ []) (noSpace : ' ' ∉ pattern)
    (noMinus : '-' ∉ pattern) : pattern <:+: between front behind cs ↔ pattern <:+: cs := by
  have spaced : pattern <:+: ' ' :: (cs ++ [' ']) ↔ pattern <:+: cs := by
    rw [isInfix_cons_iff nonempty noSpace, isInfix_concat_iff nonempty noSpace]
  have behind_ : pattern <:+: ' ' :: (cs ++ ' ' :: control behind) ↔ pattern <:+: cs := by
    cases behind with
    | false => exact spaced
    | true =>
      have whole : ' ' :: (cs ++ ' ' :: control true) = ' ' :: (cs ++ [' ']) ++ ['-'] := by
        simp [control]
      rw [whole, isInfix_concat_iff nonempty noMinus, spaced]
  cases front with
  | false => exact behind_
  | true => exact (isInfix_cons_iff nonempty noMinus).trans behind_

/-- White space and control signs make no marker. -/
theorem holdsMarker_between : HoldsMarker (between front behind cs) ↔ HoldsMarker cs := by
  unfold HoldsMarker
  rw [isInfix_between_iff (by decide) (by decide) (by decide),
    isInfix_between_iff (by decide) (by decide) (by decide),
    isInfix_between_iff (by decide) (by decide) (by decide)]

theorem trim_print : Text.trim (print front behind e).toList = (print front behind e).toList := by
  have opening : Text.isBlank '\x7b' = false := by decide
  have closing : Text.isBlank '\x7d' = false := by decide
  simp [print, Text.trim, Text.trimStart, Text.trimEnd, opening, closing]

theorem hasExpressions_print : hasExpressions (print front behind e) = true := by
  unfold hasExpressions print
  rw [String.toList_ofList, Bool.or_eq_true]
  exact .inl (occursIn_iff.mpr (List.IsPrefix.isInfix ⟨_, rfl⟩))

theorem singleBody?_of_braces
    (braces : Text.trim text.toList = '\x7b' :: '\x7b' :: (body ++ ['\x7d', '\x7d'])) :
    singleBody? text =
      if Text.occursIn ['\x7b', '\x7b'] body || Text.occursIn ['\x7d', '\x7d'] body ||
        Text.occursIn ['\x7b', '%'] body then none else some (Text.trim body) := by
  unfold singleBody?
  rw [braces]
  simp

theorem singleBody?_print_of_marker (marker : HoldsMarker e.toList) :
    singleBody? (print front behind e) = none := by
  rw [singleBody?_of_braces (trim_print.trans String.toList_ofList), if_pos]
  simpa [occursIn_iff, HoldsMarker, or_assoc] using holdsMarker_between.mpr marker

/-- The body of a single print is what stands between the braces, control signs included. -/
theorem singleBody?_print (single : ¬HoldsMarker e.toList) :
    singleBody? (print front behind e) = some (Text.trim (between front behind e.toList)) := by
  rw [singleBody?_of_braces (trim_print.trans String.toList_ofList), if_neg]
  simpa [occursIn_iff, HoldsMarker, or_assoc] using holdsMarker_between.not.mpr single

/-! ## Prints as templates -/

theorem dropLineBreak_print :
    dropLineBreak (print front behind e).toList = (print front behind e).toList := by
  simp [print, dropLineBreak]

theorem apart_space (noQuote : '\'' ∉ cs) (noDouble : '"' ∉ cs) : Apart (' ' :: cs) where
  blank := by
    rintro _ ⟨⟩
    decide
  unquoted quote marks inside := by
    obtain rfl | rfl := List.mem_pair.mp marks
    · exact noQuote ((List.mem_cons.mp inside).resolve_left (by decide))
    · exact noDouble ((List.mem_cons.mp inside).resolve_left (by decide))

theorem apart_behind (behind : Bool) : Apart (' ' :: (control behind ++ ['\x7d', '\x7d'])) :=
  apart_space (by cases behind <;> decide) (by cases behind <;> decide)

theorem skipControl_between (front : Bool) (cs : List Char) :
    skipControl (control front ++ ' ' :: cs) = ' ' :: cs := by
  cases front <;> rfl

/-- White space in front of what scans is passed over. -/
theorem scans_space (scans : Scans n cs m ts) : Scans n (' ' :: cs) m ts :=
  .space (fun _ => rfl) rfl scans

/-- Control signs are no tokens, and what is scanned inside of a print is its tokens. -/
theorem tokenize_print (scans : Scans 0 e.toList n ts) (front behind : Bool) :
    ∃ fuel, 3 < fuel ∧ tokenize (print front behind e).toList = .openPrint ::
      (ts ++ tokens fuel (.inside false n) (' ' :: (control behind ++ ['\x7d', '\x7d']))) := by
  have enough : (' ' :: e.toList ++ ' ' :: (control behind ++ ['\x7d', '\x7d'])).length <
      (print front behind e).toList.length := by
    simp [print, between]
    omega
  obtain ⟨fuel, enough, same⟩ := (scans_space scans).tokens_append (apart_behind behind) enough
  refine ⟨fuel, ?_, ?_⟩
  · simp only [List.length_cons, List.length_append, List.length_nil] at enough
    omega
  · rw [tokenize, dropLineBreak_print, ← same]
    generalize (print front behind e).toList.length = length
    rw [print, String.toList_ofList, tokens]
    simp only [Bool.false_eq_true, if_false, between, List.append_assoc, List.cons_append,
      skipControl_between]

/-- With no bracket open the print ends. -/
theorem tokens_behind (fuel : Nat) (behind : Bool) :
    tokens (fuel + 4) (.inside false 0) (' ' :: (control behind ++ ['\x7d', '\x7d'])) =
      [.closePrint] := by
  rw [tokens_inside fun _ => rfl]
  have ends : readEnd false (control behind ++ ['\x7d', '\x7d']) = some (behind, []) := by
    cases behind <;> rfl
  refine (tokens_end ends (fuel + 2)).trans ?_
  cases behind <;> rfl

/-- Otherwise its braces are signs. -/
theorem tokens_behind_of_open (fuel : Nat) (opened : n ≠ 0) :
    tokens (fuel + 4) (.inside false n) [' ', '\x7d', '\x7d'] = [.sign "\x7d", .sign "\x7d"] := by
  have first : tokens (fuel + 3) (.inside false n) ['\x7d', '\x7d'] =
      .sign "\x7d" :: tokens (fuel + 2) (.inside false (n + bracketChange '\x7d')) ['\x7d'] :=
    tokens_inside (fun closed => absurd closed opened) _
  have second : tokens (fuel + 2) (.inside false (n + bracketChange '\x7d')) ['\x7d'] = [.sign "\x7d"] :=
    tokens_inside (fun _ => rfl) _
  rw [tokens_inside fun _ => rfl]
  exact first.trans (congrArg _ second)

theorem tokenize_print_of_closed (scans : Scans 0 e.toList 0 ts) (front behind : Bool) :
    tokenize (print front behind e).toList = .openPrint :: (ts ++ [.closePrint]) := by
  obtain ⟨fuel, enough, same⟩ := tokenize_print scans front behind
  obtain ⟨fuel, rfl⟩ := Nat.exists_eq_add_of_le' (show 4 ≤ fuel from enough)
  rw [same, tokens_behind]

/-- An expression whose print is a template closes the brackets that it opens. -/
theorem closed_of_parse (scans : Scans 0 e.toList n ts) (inner : ∀ t ∈ ts, t.isInner = true)
    (parsed : parse (print false false e).toList = .ok template) : n = 0 := by
  obtain ⟨fuel, enough, same⟩ := tokenize_print scans false false
  obtain ⟨fuel, rfl⟩ := Nat.exists_eq_add_of_le' (show 4 ≤ fuel from enough)
  by_contra opened
  obtain inside | inside := List.mem_append.mp (mem_closePrint_of_parse same parsed)
  · cases inner _ inside
  · have signs := tokens_behind_of_open fuel opened
    rw [show control false = [] from rfl, List.nil_append, signs] at inside
    simp at inside

theorem parse_congr (same : tokenize body = tokenize body') : parse body = parse body' := by
  unfold parse
  rw [same]

/-! ## Prints without their braces -/

/-- What a sign is read as where it belongs to the expression. -/
def signs (drops : Bool) : List Token :=
  if drops then [.sign "-"] else []

theorem scans_behind (n : Int) (behind : Bool) : Scans n (' ' :: control behind) n (signs behind) := by
  refine scans_space ?_
  cases behind with
  | false => exact .nil
  | true => exact .token (fun _ => rfl) rfl (by simpa [bracketChange] using Scans.nil)

/-- Between the braces the signs of the markers are tokens like any other. -/
theorem tokenize_between (scans : Scans 0 cs n ts) (front behind : Bool) :
    tokenizeExpression (Text.trim (between front behind cs)) = signs front ++ (ts ++ signs behind) := by
  have inside : Scans 0 (' ' :: (cs ++ ' ' :: control behind)) n (ts ++ signs behind) :=
    scans_space (scans.append (apart_space (by cases behind <;> decide) (by cases behind <;> decide))
      (scans_behind n behind))
  have whole : Scans 0 (between front behind cs) n (signs front ++ (ts ++ signs behind)) := by
    cases front with
    | false => exact inside
    | true => exact .token (fun _ => rfl) rfl inside
  exact whole.trim.tokenizeExpression

theorem parseExpr_congr (same : tokenizeExpression body = tokenizeExpression body') :
    parseExpr body = parseExpr body' := by
  unfold parseExpr
  rw [same]

/-! ## Outcomes -/

/-- The causes are of one kind, whatever they are about. -/
inductive SameKind : Cause → Cause → Prop
  | malformed (reason reason' : String) : SameKind (.malformed reason) (.malformed reason')
  | undefinedVariable (s s' : String) : SameKind (.undefinedVariable s) (.undefinedVariable s')
  | mismatch (reason reason' : String) : SameKind (.mismatch reason) (.mismatch reason')
  | unknownFunction (s s' : String) : SameKind (.unknownFunction s) (.unknownFunction s')

theorem SameKind.exists_reason {reason : String} {cause : Cause}
    (kind : SameKind (.malformed reason) cause) : ∃ reason', cause = .malformed reason' := by
  cases kind
  exact ⟨_, rfl⟩

/-- The same value, or failures of one kind. -/
inductive SameOutcome : Except Failure Value → Except Failure Value → Prop
  | ok (value : Value) : SameOutcome (.ok value) (.ok value)
  | error {f f' : Failure} (same : SameKind f.cause f'.cause) : SameOutcome (.error f) (.error f')

def IsMalformed (outcome : Except Failure Value) : Prop :=
  ∃ f reason, outcome = .error f ∧ f.cause = .malformed reason

theorem SameOutcome.isMalformed {outcome outcome' : Except Failure Value}
    (same : SameOutcome outcome outcome') (malformed : IsMalformed outcome) : IsMalformed outcome' := by
  obtain ⟨f, reason, rfl, cause⟩ := malformed
  cases same with
  | @error _ f' kind =>
    obtain ⟨reason', cause'⟩ := (cause ▸ kind).exists_reason
    exact ⟨f', reason', rfl, cause'⟩

/-- A fault is called by its kind, whatever the text. -/
theorem sameKind_failure (text text' : String) (fault : Fault) :
    SameKind (failure text data fault).cause (failure text' data fault).cause := by
  cases fault <;> constructor

theorem not_malformed_failure {fault : Fault} (other : fault ≠ .malformed) (text : String) :
    ¬IsMalformed (.error (failure text data fault)) := by
  rintro ⟨_, reason, ⟨⟩, cause⟩
  cases fault <;> first | exact other rfl | cases cause

/-- Single prints have the same outcome if their bodies are the same expression. -/
theorem evaluateSingle_congr (same : parseExpr body = parseExpr body') (text text' : String) :
    SameOutcome (evaluateSingle text body data) (evaluateSingle text' body' data) := by
  unfold evaluateSingle
  rw [same]
  split
  · exact .error (sameKind_failure _ _ _)
  · split
    · exact .error (.undefinedVariable _ _)
    · split
      · exact .ok _
      · exact .error (.mismatch _ _)

theorem isMalformed_evaluateSingle (malformed : parseExpr body = .error .malformed) :
    IsMalformed (evaluateSingle text body data) := by
  unfold evaluateSingle
  rw [malformed]
  exact ⟨_, _, rfl, rfl⟩

/-- What fails after the body has been read is not how it is written. -/
theorem not_malformed_evaluateSingle (parsed : parseExpr body = .ok x) :
    ¬IsMalformed (evaluateSingle text body data) := by
  have sane := sane_evaluate ⟨[[]], Datum.ofValue data⟩ x
  unfold evaluateSingle
  rw [parsed]
  split
  next fault failed => exact not_malformed_failure (fun same => sane (same ▸ failed)) text
  next =>
    split
    · rintro ⟨_, reason, ⟨⟩, cause⟩
      cases cause
    · split
      · rintro ⟨_, _, ⟨⟩, _⟩
      · exact not_malformed_failure (by decide) text

theorem sameOutcome_mapError (outcome : Except Fault Value) (text text' : String) :
    SameOutcome (outcome.mapError (failure text data)) (outcome.mapError (failure text' data)) := by
  cases outcome with
  | error fault => exact .error (sameKind_failure text text' fault)
  | ok value => exact .ok value

theorem not_malformed_mapError {outcome : Except Fault Value} (sane : Sane outcome) (text : String) :
    ¬IsMalformed (outcome.mapError (failure text data)) := by
  cases outcome with
  | error fault => exact not_malformed_failure (fun same => sane (congrArg _ same)) text
  | ok value => rintro ⟨_, _, ⟨⟩, _⟩

/-! ## The two ways of reading a print -/

/-- A print with a marker inside is rendered. -/
theorem evaluate_print_of_marker (marker : HoldsMarker e.toList) (front behind : Bool) (data : Value) :
    evaluate (print front behind e) data =
      (((parse (print front behind e).toList).bind (render · data)).map Value.string).mapError
        (failure (print front behind e) data) := by
  unfold evaluate
  rw [if_pos hasExpressions_print, singleBody?_print_of_marker marker]
  cases (parse (print front behind e).toList).bind (render · data) <;> rfl

/-- Without one, what stands between its braces is evaluated. -/
theorem evaluate_print (single : ¬HoldsMarker e.toList) (front behind : Bool) (data : Value) :
    evaluate (print front behind e) data =
      evaluateSingle (print front behind e) (Text.trim (between front behind e.toList)) data := by
  unfold evaluate
  rw [if_pos hasExpressions_print, singleBody?_print single]

theorem holdsMarker_minus : HoldsMarker ("- " ++ e).toList ↔ HoldsMarker e.toList := by
  unfold HoldsMarker
  rw [String.toList_append, show "- ".toList = ['-', ' '] from rfl, List.cons_append,
    List.cons_append, List.nil_append]
  simp only [ne_eq, reduceCtorEq, not_false_eq_true, isInfix_cons_iff, List.mem_cons, Char.reduceEq,
    List.not_mem_nil, or_self]

section Readings

variable (expression : parseExpr e.toList = .ok x)
  (parsed : parse (print false false e).toList = .ok template)

include expression parsed

theorem exists_scans : ∃ ts, Scans 0 e.toList 0 ts ∧ ∀ t ∈ ts, t.isInner = true := by
  have inner := isInner_of_parseExpr expression
  obtain ⟨n, scans⟩ := scans_of_inner (Nat.lt_succ_self _) inner
  obtain rfl := closed_of_parse scans inner parsed
  exact ⟨_, scans, inner⟩

/-- In a template the signs of the markers change nothing about the expression. -/
theorem parse_print (front behind : Bool) : parse (print front behind e).toList = .ok template := by
  obtain ⟨ts, scans, -⟩ := exists_scans expression parsed
  rw [← parsed]
  refine parse_congr ?_
  rw [tokenize_print_of_closed scans, tokenize_print_of_closed scans]

theorem validate_print (front behind : Bool) : validate (print front behind e) = [] := by
  unfold validate
  rw [if_pos hasExpressions_print, parse_print expression parsed]

/-- A print that is not taken for a single one is rendered, where control signs are no part of the
expression. -/
theorem sameOutcome_print_of_marker (marker : HoldsMarker e.toList) (front behind : Bool)
    (data : Value) :
    SameOutcome (evaluate (print front behind e) data) (evaluate (print false false e) data) := by
  rw [evaluate_print_of_marker marker, evaluate_print_of_marker marker, parse_print expression parsed,
    parse_print expression parsed]
  exact sameOutcome_mapError _ _ _

theorem not_malformed_print_of_marker (marker : HoldsMarker e.toList) (front behind : Bool)
    (data : Value) : ¬IsMalformed (evaluate (print front behind e) data) := by
  rw [evaluate_print_of_marker marker, parse_print expression parsed]
  exact not_malformed_mapError (sane_render template data).map _

theorem not_malformed_print (single : ¬HoldsMarker e.toList) (data : Value) :
    ¬IsMalformed (evaluate (print false false e) data) := by
  obtain ⟨ts, scans, -⟩ := exists_scans expression parsed
  have tokenized : tokenizeExpression (Text.trim (between false false e.toList)) =
      tokenizeExpression e.toList := by
    rw [tokenize_between scans, scans.tokenizeExpression]
    exact List.append_nil ts
  rw [evaluate_print single]
  exact not_malformed_evaluateSingle ((parseExpr_congr tokenized).trans expression)

/-- A sign in front of the closing braces ends the expression, which nothing can end in. -/
theorem isMalformed_print (single : ¬HoldsMarker e.toList) (front : Bool) (data : Value) :
    IsMalformed (evaluate (print front true e) data) := by
  obtain ⟨ts, scans, inner⟩ := exists_scans expression parsed
  have tokenized : tokenizeExpression (Text.trim (between front true e.toList)) =
      (signs front ++ ts) ++ [.sign "-"] := by
    rw [tokenize_between scans, List.append_assoc]
    rfl
  rw [evaluate_print single]
  refine isMalformed_evaluateSingle (parseExpr_of_minus tokenized fun t inside => ?_)
  obtain inside | inside := List.mem_append.mp inside
  · cases front with
    | false => cases inside
    | true =>
      rw [List.mem_singleton.mp inside]
      rfl
  · exact inner t inside

end Readings

/-- A sign behind the opening braces is read as the sign of the expression. -/
theorem sameOutcome_print_minus (single : ¬HoldsMarker e.toList) (data : Value) :
    SameOutcome (evaluate (print true false e) data) (evaluate (print false false ("- " ++ e)) data) := by
  rw [evaluate_print single, evaluate_print (holdsMarker_minus.not.mpr single)]
  refine evaluateSingle_congr (congrArg parseExpr ?_) _ _
  simp [between, control, Text.trim, Text.trimStart, show Text.isBlank ' ' = true from by decide]

/-- For an expression whose print is a template, the signs of the markers leave the outcome of the
print as it is just where a marker stands inside of the expression, and just there none of its
prints is called malformed. Validation accepts the prints of all expressions, but elsewhere a sign
in front of the closing braces makes a print malformed, and one behind the opening braces is read as
the sign of the expression. -/
theorem markers_keep_outcome_iff (expression : parseExpr e.toList = .ok x)
    (parsed : parse (print false false e).toList = .ok template) :
    ((∀ front behind data,
        SameOutcome (evaluate (print front behind e) data) (evaluate (print false false e) data)) ↔
        HoldsMarker e.toList) ∧
      ((∀ front behind data, ¬IsMalformed (evaluate (print front behind e) data)) ↔
        HoldsMarker e.toList) ∧
      (∀ front behind, validate (print front behind e) = []) ∧
      (¬HoldsMarker e.toList → ∀ data,
        ¬IsMalformed (evaluate (print false false e) data) ∧
          (∀ front, IsMalformed (evaluate (print front true e) data)) ∧
          SameOutcome (evaluate (print true false e) data)
            (evaluate (print false false ("- " ++ e)) data)) := by
  have plain := not_malformed_print expression parsed
  have broken := isMalformed_print expression parsed
  refine ⟨⟨fun same => ?_, sameOutcome_print_of_marker expression parsed⟩,
    ⟨fun never => ?_, not_malformed_print_of_marker expression parsed⟩, validate_print expression parsed,
    fun single data => ⟨plain single data, fun front => broken single front data,
      sameOutcome_print_minus single data⟩⟩
  · by_contra single
    exact plain single .null ((same true true .null).isMalformed (broken single true .null))
  · by_contra single
    exact never true true .null (broken single true .null)

/-- The signs of its markers leave the print of a string with braces in it as it is, but not that of a
name. -/
theorem bracesInString_keep_outcome :
    (∀ front behind data, SameOutcome (evaluate (print front behind "'\x7d\x7d'") data)
        (evaluate (print false false "'\x7d\x7d'") data)) ∧
      ∀ data, IsMalformed (evaluate (print false true "x") data) := by
  have string : parseExpr "'\x7d\x7d'".toList = .ok (.literal (.string "\x7d\x7d")) := by cbv
  have stringPrint : parse (print false false "'\x7d\x7d'").toList =
      .ok [.print (.literal (.string "\x7d\x7d"))] := by cbv
  have name : parseExpr "x".toList = .ok (.name "x") := by cbv
  have namePrint : parse (print false false "x").toList = .ok [.print (.name "x")] := by cbv
  obtain ⟨keeps, -⟩ := markers_keep_outcome_iff string stringPrint
  obtain ⟨-, -, -, otherwise⟩ := markers_keep_outcome_iff name namePrint
  have single : ¬HoldsMarker "x".toList := by
    unfold HoldsMarker
    decide
  exact ⟨keeps.mpr (.inr (.inl (by decide))), fun data => (otherwise single data).2.1 false⟩

def two : Value :=
  .object [("x", .ofWhole ⟨2, by decide⟩)]

/-- Validation accepts the prints of a name. With a sign behind the opening braces the number of
that name comes out as its negative, and with a sign in front of the closing braces the print is
malformed. -/
theorem name_loses_outcome :
    (validate "\x7b\x7b x \x7d\x7d" = [] ∧ validate "\x7b\x7b- x \x7d\x7d" = [] ∧
        validate "\x7b\x7b x -\x7d\x7d" = []) ∧
      evaluate "\x7b\x7b x \x7d\x7d" two = .ok (.ofWhole ⟨2, by decide⟩) ∧
      evaluate "\x7b\x7b- x \x7d\x7d" two = .ok (.ofWhole ⟨-2, by decide⟩) ∧
      ¬SameOutcome (evaluate "\x7b\x7b- x \x7d\x7d" two) (evaluate "\x7b\x7b x \x7d\x7d" two) ∧
      IsMalformed (evaluate "\x7b\x7b x -\x7d\x7d" two) := by
  have plain : evaluate "\x7b\x7b x \x7d\x7d" two = .ok (.ofWhole ⟨2, by decide⟩) := by cbv
  have negative : evaluate "\x7b\x7b- x \x7d\x7d" two = .ok (.ofWhole ⟨-2, by decide⟩) := by cbv
  have broken : evaluate "\x7b\x7b x -\x7d\x7d" two =
      .error ⟨"\x7b\x7b x -\x7d\x7d", .malformed "the template does not follow its grammar"⟩ := by cbv
  refine ⟨⟨by cbv, by cbv, by cbv⟩, plain, negative, ?_, ⟨_, _, broken, rfl⟩⟩
  rw [plain, negative]
  intro same
  cases same

end Workflow.Brace
