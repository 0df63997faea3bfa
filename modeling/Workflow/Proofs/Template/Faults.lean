import Workflow.Template.Rendering

/-!
What can go wrong with an expression that has been read. Whatever the data, its evaluation never
calls the text malformed.
-/

namespace Workflow.Template

variable {α β : Type} {x y : Except Fault α}

/-- What has been computed does not call the text malformed. -/
def Sane (x : Except Fault α) : Prop :=
  x ≠ .error .malformed

namespace Sane

theorem ok (a : α) : Sane (.ok a) := nofun

theorem undefined : Sane (.error .undefined : Except Fault α) := nofun

theorem mismatch : Sane (.error .mismatch : Except Fault α) := nofun

theorem unknown (what : String) : Sane (.error (.unknown what) : Except Fault α) := nofun

/-- What is computed in two steps is sane if both steps are. -/
theorem bind {next : α → Except Fault β} (first : Sane x) (behind : ∀ a, Sane (next a)) :
    Sane (x >>= next) := by
  cases x with
  | error fault => exact fun same => first (congrArg Except.error (Except.error.inj same))
  | ok a => exact behind a

theorem map {f : α → β} (first : Sane x) : Sane (x.map f) := by
  cases x with
  | error fault => exact fun same => first (congrArg Except.error (Except.error.inj same))
  | ok a => exact ok (f a)

theorem ite {p : Prop} [Decidable p] (yes : Sane x) (no : Sane y) : Sane (if p then x else y) := by
  split
  · exact yes
  · exact no

end Sane

/-! ## Operators -/

namespace Datum

variable {a b d : Datum}

theorem sane_wide (n : Int) : Sane (wide n) :=
  .ite (.ok _) .mismatch

theorem sane_numerically {onInts : Int → Int → Except Fault Datum} (sane : ∀ m n, Sane (onInts m n))
    (onFloats : Float → Float → Float) (a b : Datum) : Sane (numerically onInts onFloats a b) := by
  unfold numerically
  split
  · exact sane _ _
  · exact .ok _
  · exact .mismatch

theorem sane_repeated (n : Datum) (make : Nat → Datum) : Sane (repeated n make) := by
  unfold repeated
  split
  · exact .ok _
  · exact .mismatch

theorem sane_add (a b : Datum) : Sane (add a b) := by
  unfold add
  split
  · exact .ok _
  · exact .ok _
  · exact sane_numerically (fun _ _ => sane_wide _) _ _ _

theorem sane_multiply (a b : Datum) : Sane (multiply a b) := by
  unfold multiply
  split
  case h_5 => exact sane_numerically (fun _ _ => sane_wide _) _ _ _
  all_goals exact sane_repeated _ _

theorem sane_divide (a b : Datum) : Sane (divide a b) := by
  unfold divide
  split
  · exact .ok _
  · exact .mismatch

theorem sane_power (a b : Datum) : Sane (power a b) :=
  sane_numerically (fun _ _ => .ite .mismatch <| .ite (sane_wide _) <| .ite (sane_wide _) <|
    .mismatch) _ _ _

theorem sane_negative (d : Datum) : Sane d.negative := by
  unfold negative
  split
  · exact sane_wide _
  · exact .ok _
  · exact .mismatch

theorem sane_isIn (a b : Datum) : Sane (a.isIn b) := by
  unfold isIn
  split <;> first | exact .ok _ | exact .undefined | exact .mismatch

theorem sane_elements (d : Datum) : Sane d.elements := by
  unfold elements
  split <;> first | exact .ok _ | exact .undefined | exact .mismatch

theorem sane_truth (d : Datum) : Sane d.truth := by
  unfold truth
  split
  · exact .undefined
  · exact .ok _

end Datum

/-- Operators fail for what their operands are, never for how the template is written. -/
theorem sane_applyOperator (op : Operator) (a b : Datum) : Sane (applyOperator op a b) := by
  have whole (compute : Int → Int → Int) (m n : Int) :
      Sane (if n = 0 then .error .mismatch else Datum.wide (compute m n)) :=
    .ite .mismatch (Datum.sane_wide _)
  cases op with
  | equal | unequal | less | atMost | greater | atLeast => exact .ok _
  | isIn => exact Datum.sane_isIn a b
  | add => exact .ite .undefined (Datum.sane_add a b)
  | subtract => exact .ite .undefined (Datum.sane_numerically (fun _ _ => Datum.sane_wide _) _ a b)
  | concat => exact .ite .undefined (.ok _)
  | multiply => exact .ite .undefined (Datum.sane_multiply a b)
  | divide => exact .ite .undefined (Datum.sane_divide a b)
  | floorDivide => exact .ite .undefined (Datum.sane_numerically (whole (· / ·)) _ a b)
  | modulo => exact .ite .undefined (Datum.sane_numerically (whole (· % ·)) _ a b)
  | power => exact .ite .undefined (Datum.sane_power a b)

/-! ## Filters, tests and functions -/

namespace Datum

theorem sane_asText (d : Datum) : Sane d.asText := by
  unfold asText
  split
  · exact .undefined
  · exact .ok _

theorem sane_asOptionalText (d : Option Datum) : Sane (asOptionalText d) := by
  unfold asOptionalText
  split
  · exact .ok _
  · exact .ok _
  · exact (sane_asText _).map

theorem sane_first (d : Datum) : Sane d.first := by
  unfold first
  split <;> first | exact .ok _ | exact .undefined | exact .mismatch

theorem sane_last (d : Datum) : Sane d.last := by
  unfold last
  split <;> first | exact .ok _ | exact .undefined | exact .mismatch

theorem sane_join (separator : List Char) (d : Datum) : Sane (d.join separator) := by
  unfold join
  refine .ite (.ok _) ?_
  split
  · exact .ok _
  · exact .mismatch

theorem sane_defaulted (d : Datum) (arguments : List Datum) : Sane (d.defaulted arguments) := by
  unfold defaulted
  refine .ite .undefined ?_
  split <;> first | exact .ok _ | exact .undefined | exact .mismatch

end Datum

/-- No filter, known or unknown, calls the text malformed. -/
theorem sane_applyFilter (name : String) (d : Datum) (arguments : List Datum) :
    Sane (applyFilter name d arguments) := by
  have sized : Sane (d.size?.elim (.error .mismatch) fun n => .ok (Datum.int n)) := by
    cases d.size? with
    | none => exact .mismatch
    | some n => exact .ok _
  have text {make : List Char → Datum} : Sane (d.asText.map make) := (Datum.sane_asText d).map
  unfold applyFilter
  split
  iterate 5 exact text
  · refine (Datum.sane_asText d).bind fun cs => (Datum.sane_asOptionalText _).bind fun dropped => ?_
    cases dropped <;> exact .ok _
  iterate 2 exact sized
  · exact Datum.sane_first d
  · exact Datum.sane_last d
  · exact Datum.sane_join [] d
  · exact (Datum.sane_asOptionalText _).bind fun separator => Datum.sane_join _ d
  · exact (Datum.sane_asText _).bind fun cs => (Datum.sane_asText _).bind fun pattern =>
      (Datum.sane_asText _).bind fun replacement => .ok _
  iterate 2 exact Datum.sane_defaulted d _
  · exact .ite .mismatch (.unknown _)

/-- No test calls the text malformed. -/
theorem sane_applyTest (name : String) (d : Datum) (arguments : List Datum) :
    Sane (applyTest name d arguments) := by
  unfold applyTest
  split
  · exact .ok _
  · exact .ok _
  · split <;> exact .ok _
  · exact .ite .mismatch (.unknown _)

theorem sane_rangeOf (lower upper : Int) (step : Nat) : Sane (rangeOf lower upper step) :=
  .ite .mismatch (.ok _)

theorem sane_asIndex (d : Datum) : Sane (asIndex d) := by
  unfold asIndex
  refine .ite .undefined ?_
  split
  · exact .ite .mismatch (.ok _)
  · exact .mismatch

theorem sane_range (arguments : List Datum) : Sane (range arguments) := by
  unfold range
  split
  · exact (sane_asIndex _).bind fun upper => sane_rangeOf _ _ _
  · exact (sane_asIndex _).bind fun lower => (sane_asIndex _).bind fun upper => sane_rangeOf _ _ _
  · refine (sane_asIndex _).bind fun step => .ite .mismatch ?_
    exact (sane_asIndex _).bind fun lower => (sane_asIndex _).bind fun upper => sane_rangeOf _ _ _
  · exact .mismatch

/-! ## Expressions -/

theorem sane_found (base : Datum) (d : Option Datum) : Sane (found base d) := by
  unfold found
  split
  · exact .ok _
  · exact .ite .undefined (.ok _)

mutual

/-- Whatever the data, the value of an expression does not call the text malformed. -/
theorem sane_evaluate (scope : Scope) : (e : Expr) → Sane (evaluate scope e)
  | .literal d => .ok d
  | .name s => .ok _
  | .not operand => by
    unfold evaluate
    exact (sane_evaluate scope operand).bind fun d => (Datum.sane_truth d).bind fun _ => .ok _
  | .negate operand => by
    unfold evaluate
    exact (sane_evaluate scope operand).bind fun d => .ite .undefined (Datum.sane_negative d)
  | .and left right => by
    unfold evaluate
    exact (sane_evaluate scope left).bind fun a => (Datum.sane_truth a).bind fun _ =>
      .ite (sane_evaluate scope right) (.ok a)
  | .or left right => by
    unfold evaluate
    exact (sane_evaluate scope left).bind fun a => (Datum.sane_truth a).bind fun _ =>
      .ite (.ok a) (sane_evaluate scope right)
  | .binary op left right => by
    unfold evaluate
    exact (sane_evaluate scope left).bind fun a => (sane_evaluate scope right).bind fun b =>
      sane_applyOperator op a b
  | .choice test chosen (some other) => by
    unfold evaluate
    exact (sane_evaluate scope test).bind fun a => (Datum.sane_truth a).bind fun _ =>
      .ite (sane_evaluate scope chosen) (sane_evaluate scope other)
  | .choice test chosen none => by
    unfold evaluate
    exact (sane_evaluate scope test).bind fun a => (Datum.sane_truth a).bind fun _ =>
      .ite (sane_evaluate scope chosen) (.ok _)
  | .filter name target arguments => by
    unfold evaluate
    refine (sane_evaluate scope target).bind fun d =>
      (sane_evaluateArguments scope arguments).bind fun _ => ?_
    split <;> exact sane_applyFilter name d _
  | .test name target arguments => by
    unfold evaluate
    exact (sane_evaluate scope target).bind fun d =>
      (sane_evaluateArguments scope arguments).bind fun _ => (sane_applyTest name d _).bind fun _ => .ok _
  | .attr base name => by
    unfold evaluate
    exact (sane_evaluate scope base).bind fun d => sane_found d _
  | .item base key => by
    unfold evaluate
    exact (sane_evaluate scope base).bind fun d => (sane_evaluate scope key).bind fun _ => sane_found d _
  | .call callee arguments => by
    unfold evaluate
    split
    next s =>
      refine (sane_evaluateArguments scope arguments).bind fun _ => .ite ?_ (.ite .mismatch (.unknown s))
      split
      · exact sane_range _
      · exact .mismatch
    next =>
      exact (sane_evaluate scope callee).bind fun _ =>
        (sane_evaluateArguments scope arguments).bind fun _ => .mismatch
  | .list items => by
    unfold evaluate
    exact (sane_evaluateAll scope items).bind fun _ => .ok _
  | .map entries => by
    unfold evaluate
    exact (sane_evaluateEntries scope entries).bind fun _ => .ok _

theorem sane_evaluateAll (scope : Scope) : (es : List Expr) → Sane (evaluateAll scope es)
  | [] => .ok _
  | e :: es => by
    unfold evaluateAll
    exact (sane_evaluate scope e).bind fun _ => (sane_evaluateAll scope es).bind fun _ => .ok _

theorem sane_evaluateEntries (scope : Scope) : (es : List (Expr × Expr)) → Sane (evaluateEntries scope es)
  | [] => .ok _
  | (k, v) :: es => by
    unfold evaluateEntries
    exact (sane_evaluate scope k).bind fun _ => (sane_evaluate scope v).bind fun _ =>
      (sane_evaluateEntries scope es).bind fun _ => .ok _

theorem sane_evaluateArguments (scope : Scope) :
    (es : List (Option String × Expr)) → Sane (evaluateArguments scope es)
  | [] => .ok _
  | (name, e) :: es => by
    unfold evaluateArguments
    exact (sane_evaluate scope e).bind fun _ => (sane_evaluateArguments scope es).bind fun _ => .ok _

end

/-! ## Statements -/

mutual

theorem sane_bindTarget (scope : Scope) (d : Datum) : (target : Target) → Sane (bindTarget scope d target)
  | .name s => .ok _
  | .names targets => by
    unfold bindTarget
    split
    · exact sane_bindTargets scope _ targets
    · exact sane_bindTargets scope _ targets
    · exact .mismatch

theorem sane_bindTargets (scope : Scope) :
    (ds : List Datum) → (targets : List Target) → Sane (bindTargets scope ds targets)
  | [], [] => .ok _
  | [], _ :: _ => .mismatch
  | _ :: _, [] => .mismatch
  | d :: ds, target :: targets => by
    have first := sane_bindTarget scope d target
    unfold bindTargets
    cases bound : bindTarget scope d target with
    | error fault => exact fun same => first (bound.trans (congrArg Except.error (Except.error.inj same)))
    | ok scope => exact sane_bindTargets scope ds targets

end

theorem sane_selected (scope : Scope) (target : Target) (condition : Option Expr) (ds : List Datum) :
    Sane (selected scope target condition ds) := by
  induction ds with
  | nil => exact .ok _
  | cons d ds ih =>
    unfold selected
    split
    · exact .ok _
    · exact (sane_bindTarget _ d target).bind fun inner => (sane_evaluate inner _).bind fun test =>
        (Datum.sane_truth test).bind fun _ => ih.bind fun _ => .ok _

theorem sane_overItems {body : Scope → Datum → Datum → Except Fault (String × Scope)}
    (sane : ∀ scope d loop, Sane (body scope d loop)) (scope : Scope) (before behind : List Datum) :
    Sane (overItems body scope before behind) := by
  induction behind generalizing scope before with
  | nil => exact .ok _
  | cons d behind ih =>
    unfold overItems
    exact (sane scope d _).bind fun found => (ih found.2 _).bind fun _ => .ok _

mutual

/-- No statement that was read calls the text malformed when it runs. -/
theorem sane_run (scope : Scope) : (s : Statement) → Sane (run scope s)
  | .text s => .ok _
  | .print e => by
    unfold run
    refine (sane_evaluate scope e).bind fun d => ?_
    split
    · exact .undefined
    · exact .ok _
  | .branch test body otherwise => by
    unfold run
    exact (sane_evaluate scope test).bind fun d => (Datum.sane_truth d).bind fun _ =>
      .ite (sane_runAll scope body) (sane_runAll scope otherwise)
  | .loop target elements condition body otherwise => by
    unfold run
    refine (sane_evaluate scope elements).bind fun d => (Datum.sane_elements d).bind fun ds =>
      (sane_selected scope target condition ds).bind fun ds => .ite (sane_runAll scope otherwise) ?_
    refine (sane_overItems (fun scope d loop => ?_) _ _ _).bind fun _ => .ok _
    exact (sane_bindTarget _ d target).bind fun scope => sane_runAll scope body
  | .assign target value => by
    unfold run
    exact (sane_evaluate scope value).bind fun d => (sane_bindTarget scope d target).bind fun _ => .ok _
  | .capture name body => by
    unfold run
    exact (sane_runAll scope body).bind fun _ => .ok _

theorem sane_runAll (scope : Scope) : (statements : List Statement) → Sane (runAll scope statements)
  | [] => .ok _
  | s :: rest => by
    unfold runAll
    exact (sane_run scope s).bind fun found => (sane_runAll found.2 rest).bind fun _ => .ok _

end

/-- Whatever the data, the text of a template does not call it malformed. -/
theorem sane_render (template : List Statement) (context : Value) : Sane (render template context) :=
  (sane_runAll _ template).map

end Workflow.Template
