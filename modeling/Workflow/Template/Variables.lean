import Workflow.Template.Basic

/-!
The names that a template reads from its context: all that it mentions and has not bound at that
place. Loops bind their targets and `loop`; what a branch or a loop binds ends with it.
-/

namespace Workflow.Template

def Target.bound : Target → List String
  | .name s => [s]
  | .names targets => targets.flatMap Target.bound

mutual
def Expr.mentioned : Expr → List String
  | .literal _ => []
  | .name s => [s]
  | .not operand => mentioned operand
  | .negate operand => mentioned operand
  | .and left right => mentioned left ++ mentioned right
  | .or left right => mentioned left ++ mentioned right
  | .binary _ left right => mentioned left ++ mentioned right
  | .choice condition chosen otherwise =>
    mentioned condition ++ mentioned chosen ++
      match otherwise with
      | some e => mentioned e
      | none => []
  | .filter _ target arguments => mentioned target ++ mentionedByArguments arguments
  | .test _ target arguments => mentioned target ++ mentionedByArguments arguments
  | .attr base _ => mentioned base
  | .item base key => mentioned base ++ mentioned key
  | .call callee arguments => mentioned callee ++ mentionedByArguments arguments
  | .list items => mentionedByAll items
  | .map entries => mentionedByEntries entries

def Expr.mentionedByAll : List Expr → List String
  | [] => []
  | e :: es => mentioned e ++ mentionedByAll es

def Expr.mentionedByArguments : List (Option String × Expr) → List String
  | [] => []
  | (_, e) :: es => mentioned e ++ mentionedByArguments es

def Expr.mentionedByEntries : List (Expr × Expr) → List String
  | [] => []
  | (k, v) :: es => mentioned k ++ mentioned v ++ mentionedByEntries es
end

/-- The names that an expression reads where some are bound. -/
def Expr.free (bound : List String) (e : Expr) : List String :=
  e.mentioned.filter fun s => !bound.contains s

mutual
/-- The names that a statement reads where some are bound, and those bound behind it. -/
def Statement.free (bound : List String) : Statement → List String × List String
  | .text _ => ([], bound)
  | .print e => (e.free bound, bound)
  | .branch test body otherwise =>
    (test.free bound ++ (freeInAll bound body).1 ++ (freeInAll bound otherwise).1, bound)
  | .loop target elements condition body otherwise =>
    let inLoop := "loop" :: bound
    let inBody := target.bound ++ inLoop
    (elements.free inLoop ++
        (match condition with
          | some e => e.free inBody
          | none => []) ++
        (freeInAll inBody body).1 ++ (freeInAll bound otherwise).1, bound)
  | .assign target value =>
    let bound := target.bound ++ bound
    (value.free bound, bound)
  | .capture name body => ((freeInAll (name :: bound) body).1, name :: bound)

/-- The names that statements read, and those bound behind them. -/
def Statement.freeInAll (bound : List String) : List Statement → List String × List String
  | [] => ([], bound)
  | s :: rest =>
    let (names, bound) := free bound s
    let (others, bound) := freeInAll bound rest
    (names ++ others, bound)
end

/-- Puts a name in its place; a name that is there stays alone. -/
def insertName (name : String) : List String → List String
  | [] => [name]
  | s :: rest =>
    if name < s then name :: s :: rest
    else if name = s then s :: rest
    else s :: insertName name rest

/-- The names that a template reads from its context, sorted. -/
def variableNames (template : List Statement) : List String :=
  (Statement.freeInAll ["self"] template).1.foldl (fun sorted s => insertName s sorted) []

end Workflow.Template
