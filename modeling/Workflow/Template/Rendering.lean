import Workflow.Template.Basic
import Workflow.Template.Filters

/-!
The value of expressions and the text of templates. Names are looked up in the frames of the loops
around them, the innermost first, then in the context, then among the functions of the language.
-/

namespace Workflow.Template

/-- The names that a loop, or the template outside of loops, has bound. -/
abbrev Frame := List (String × Datum)

/-- The frames from the innermost on, and the context. -/
structure Scope where
  frames : List Frame
  context : Datum

namespace Scope

def find? (scope : Scope) (name : String) : Option Datum :=
  match scope.frames.findSome? fun frame => frame.lookup name with
  | some d => some d
  | none =>
    match scope.context.attribute? name with
    | some d => some d
    | none => if name = "range" then some (.object "range" []) else none

/-- Binds a name in the innermost frame. -/
def bind (scope : Scope) (name : String) (d : Datum) : Scope :=
  match scope.frames with
  | [] => { scope with frames := [[(name, d)]] }
  | frame :: frames => { scope with frames := ((name, d) :: frame) :: frames }

def enter (scope : Scope) : Scope :=
  { scope with frames := [] :: scope.frames }

def leave (scope : Scope) : Scope :=
  { scope with frames := scope.frames.tail }

end Scope

/-- Is the name a function of the language that nothing else hides? -/
def isRange (scope : Scope) (name : String) : Bool :=
  match scope.find? name with
  | some (.object "range" []) => true
  | _ => false

/-- The result of an operator. Only comparisons take what is undefined. -/
def applyOperator (op : Operator) (a b : Datum) : Except Fault Datum :=
  match op with
  | .equal => .ok (.bool (a.same b))
  | .unequal => .ok (.bool (!a.same b))
  | .less => .ok (.bool (a.order b == .lt))
  | .atMost => .ok (.bool (a.order b != .gt))
  | .greater => .ok (.bool (a.order b == .gt))
  | .atLeast => .ok (.bool (a.order b != .lt))
  | .isIn => a.isIn b
  | op =>
    if a.isUndefined || b.isUndefined then .error .undefined
    else
      match op with
      | .add => a.add b
      | .subtract => a.subtract b
      | .concat => .ok (.string (a.text ++ b.text))
      | .multiply => a.multiply b
      | .divide => a.divide b
      | .floorDivide => a.floorDivide b
      | .modulo => a.modulo b
      | _ => a.power b

/-- What is found, or else something undefined; looking into what is undefined is an error. -/
def found (base : Datum) : Option Datum → Except Fault Datum
  | some d => .ok d
  | none => if base.isUndefined then .error .undefined else .ok (.undefined false)

/-- The arguments of a filter or test; those that are named do not fit any. -/
def positional (arguments : List (Option String × Datum)) : Option (List Datum) :=
  if arguments.all fun a => a.1.isNone then some (arguments.map Prod.snd) else none

mutual
def evaluate (scope : Scope) : Expr → Except Fault Datum
  | .literal d => .ok d
  | .name s => .ok (Datum.orUndefined (scope.find? s))
  | .not operand => do .ok (.bool (!(← (← evaluate scope operand).truth)))
  | .negate operand => do
    let d ← evaluate scope operand
    if d.isUndefined then .error .undefined else d.negative
  | .and left right => do
    let a ← evaluate scope left
    if ← a.truth then evaluate scope right else .ok a
  | .or left right => do
    let a ← evaluate scope left
    if ← a.truth then .ok a else evaluate scope right
  | .binary op left right => do
    let a ← evaluate scope left
    let b ← evaluate scope right
    applyOperator op a b
  | .choice test chosen otherwise => do
    if ← (← evaluate scope test).truth then evaluate scope chosen
    else
      match otherwise with
      | some e => evaluate scope e
      | none => .ok (.undefined true)
  | .filter name target arguments => do
    let d ← evaluate scope target
    let arguments ← evaluateArguments scope arguments
    match positional arguments with
    | some arguments => applyFilter name d arguments
    | none => applyFilter name d (arguments.map Prod.snd ++ List.replicate 8 .none)
  | .test name target arguments => do
    let d ← evaluate scope target
    let arguments ← evaluateArguments scope arguments
    .ok (.bool (← applyTest name d (arguments.map Prod.snd)))
  | .attr base name => do
    let base ← evaluate scope base
    found base (base.attribute? name)
  | .item base key => do
    let base ← evaluate scope base
    let key ← evaluate scope key
    found base (base.item? key)
  | .call callee arguments =>
    match callee with
    | .name s => do
      let arguments ← evaluateArguments scope arguments
      if isRange scope s then
        match positional arguments with
        | some arguments => range arguments
        | none => .error .mismatch
      else if (scope.find? s).isSome || s = "loop" || s = "super" then .error .mismatch
      else .error (.unknown s)
    | callee => do
      let _ ← evaluate scope callee
      let _ ← evaluateArguments scope arguments
      .error .mismatch
  | .list items => do .ok (.list (← evaluateAll scope items))
  | .map entries => do .ok (Datum.ofEntries (← evaluateEntries scope entries))

def evaluateAll (scope : Scope) : List Expr → Except Fault (List Datum)
  | [] => .ok []
  | e :: es => do
    let d ← evaluate scope e
    let ds ← evaluateAll scope es
    .ok (d :: ds)

/-- The keys and values of the entries of a map. -/
def evaluateEntries (scope : Scope) : List (Expr × Expr) → Except Fault (List (Datum × Datum))
  | [] => .ok []
  | (k, v) :: es => do
    let key ← evaluate scope k
    let value ← evaluate scope v
    let others ← evaluateEntries scope es
    .ok ((key, value) :: others)

def evaluateArguments (scope : Scope) :
    List (Option String × Expr) → Except Fault (List (Option String × Datum))
  | [] => .ok []
  | (name, e) :: es => do
    let d ← evaluate scope e
    let ds ← evaluateArguments scope es
    .ok ((name, d) :: ds)
end

mutual
def bindTarget (scope : Scope) (d : Datum) : Target → Except Fault Scope
  | .name s => .ok (scope.bind s d)
  | .names targets =>
    match d with
    | .list items => bindTargets scope items targets
    | .map entries => bindTargets scope (entries.map Prod.fst) targets
    | _ => .error .mismatch

/-- Binds targets to items, of which there must be as many. -/
def bindTargets (scope : Scope) : List Datum → List Target → Except Fault Scope
  | [], [] => .ok scope
  | d :: ds, t :: ts =>
    match bindTarget scope d t with
    | .error e => .error e
    | .ok scope => bindTargets scope ds ts
  | _, _ => .error .mismatch
end

/-- The `loop` datum for the item with so many items before and behind it. -/
def loopDatum (before behind : List Datum) : Datum :=
  let index := before.length
  let length := index + 1 + behind.length
  .object ("<loop " ++ toString index ++ "/" ++ toString length ++ ">")
    [("index0", .int index), ("index", .int (index + 1)), ("length", .int length),
      ("revindex", .int (length - index)), ("revindex0", .int (length - index - 1)),
      ("first", .bool (index == 0)), ("last", .bool behind.isEmpty),
      ("depth", .int 1), ("depth0", .int 0),
      ("previtem", Datum.orUndefined before.head?), ("nextitem", Datum.orUndefined behind.head?)]

/-- Runs the body of a loop over the items that are left, with those behind it in reverse. -/
def overItems (body : Scope → Datum → Datum → Except Fault (String × Scope)) (scope : Scope)
    (before : List Datum) : List Datum → Except Fault (String × Scope)
  | [] => .ok ("", scope)
  | d :: behind => do
    let (text, scope) ← body scope d (loopDatum before behind)
    let (rest, scope) ← overItems body scope (d :: before) behind
    .ok (text ++ rest, scope)

/-- The items that meet the condition of a loop. -/
def selected (scope : Scope) (target : Target) (condition : Option Expr) :
    List Datum → Except Fault (List Datum)
  | [] => .ok []
  | d :: ds =>
    match condition with
    | none => .ok (d :: ds)
    | some e => do
      let inner ← bindTarget scope.enter d target
      let keep ← (← evaluate inner e).truth
      let others ← selected scope target condition ds
      .ok (if keep then d :: others else others)

mutual
/-- The text of a statement, and the names bound behind it. -/
def run (scope : Scope) : Statement → Except Fault (String × Scope)
  | .text s => .ok (s, scope)
  | .print e => do
    match ← evaluate scope e with
    | .undefined false => .error .undefined
    | d => .ok (d.text, scope)
  | .branch test body otherwise => do
    if ← (← evaluate scope test).truth then runAll scope body else runAll scope otherwise
  | .loop target elements condition body otherwise => do
    let items ← (← evaluate scope elements).elements
    let items ← selected scope target condition items
    if items.isEmpty then runAll scope otherwise
    else
      let once := fun (scope : Scope) (d loop : Datum) => do
        let scope ← bindTarget (scope.bind "loop" loop) d target
        runAll scope body
      let (text, inner) ← overItems once scope.enter [] items
      .ok (text, inner.leave)
  | .assign target value => do
    let d ← evaluate scope value
    .ok ("", ← bindTarget scope d target)
  | .capture name body => do
    let (text, inner) ← runAll scope body
    .ok ("", inner.bind name (.string text))

/-- The text of several statements, and the names bound behind them. -/
def runAll (scope : Scope) : List Statement → Except Fault (String × Scope)
  | [] => .ok ("", scope)
  | s :: rest => do
    let (text, scope) ← run scope s
    let (others, scope) ← runAll scope rest
    .ok (text ++ others, scope)
end

def render (template : List Statement) (context : Value) : Except Fault String :=
  (runAll ⟨[[]], Datum.ofValue context⟩ template).map Prod.fst

end Workflow.Template
