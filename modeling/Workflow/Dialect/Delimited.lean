import Workflow.Dialect.Basic
import Workflow.Dialect.Segment
import Workflow.Expression.Evaluation
import Workflow.Expression.Grammar
import Workflow.Expression.Variables

/-!
Dialects that write expressions of the library's own language between two delimiters. A text that
is one expression from end to end has the value of the expression; in every other text each
expression is replaced by the text of its value.
-/

namespace Workflow

structure Delimited where
  name : String
  opening : String
  closing : String
  deriving DecidableEq, Repr

namespace Delimited

/-- The dialect that writes `<% … %>`. -/
def percent : Delimited := ⟨"percent", "<%", "%>"⟩

def delimiters (d : Delimited) : Delimiters :=
  ⟨d.opening.toList, d.closing.toList⟩

def segments (d : Delimited) (text : String) : Except (List Char) (List Segment × List Char) :=
  d.delimiters.segments text.toList

/-- The text of a segment, delimiters included. -/
def source (d : Delimited) (s : Segment) : String :=
  String.ofList (s.source d.delimiters)

/-- Does the text hold an expression, and no delimiter that is left open? -/
def hasExpressions (d : Delimited) (text : String) : Bool :=
  match d.segments text with
  | .ok (segments, _) => !segments.isEmpty
  | .error _ => false

def problem? (d : Delimited) (s : Segment) : Option Diagnostic :=
  match Expression.parse s.body with
  | .ok _ => none
  | .error e =>
    some
      { kind := d.name
        expression := some (d.source s)
        message := (Failure.ofMalformed (d.source s) e).message }

/-- Every malformed expression of the text, or the delimiter that is left open. -/
def validate (d : Delimited) (text : String) : List Diagnostic :=
  match d.segments text with
  | .ok (segments, _) => segments.filterMap d.problem?
  | .error unclosed =>
    [{ kind := d.name
       expression := some (String.ofList unclosed)
       message := "Expression is missing the closing delimiter \"" ++ d.closing ++ "\"." }]

def evaluateSegment (d : Delimited) (data : Value) (s : Segment) : Except Failure Value :=
  match Expression.parse s.body with
  | .error e => .error (.ofMalformed (d.source s) e)
  | .ok e => (e.evaluate data).mapError (.ofFault (d.source s))

/-- The gaps and the texts of the values, in order. -/
def interpolate (d : Delimited) (data : Value) (tail : List Char) :
    List Segment → Except Failure (List Char)
  | [] => .ok tail
  | s :: segments =>
    match d.evaluateSegment data s with
    | .error e => .error e
    | .ok value =>
      (d.interpolate data tail segments).map fun rest => s.gap ++ value.text.toList ++ rest

def evaluate (d : Delimited) (text : String) (data : Value) : Except Failure Value :=
  match d.segments text with
  | .error unclosed =>
    .error ⟨String.ofList unclosed,
      .malformed ("missing closing delimiter \"" ++ d.closing ++ "\"")⟩
  | .ok ([], _) => .ok (.string text)
  | .ok ([s], tail) =>
    if s.source d.delimiters = Text.trim text.toList then d.evaluateSegment data s
    else (d.interpolate data tail [s]).map fun cs => .string (String.ofList cs)
  | .ok (segments, tail) =>
    (d.interpolate data tail segments).map fun cs => .string (String.ofList cs)

/-- The variables of a segment; a malformed expression has none. -/
def segmentVariables (d : Delimited) (s : Segment) : List VariableRef :=
  match Expression.parse s.body with
  | .error _ => []
  | .ok e => e.variableNames.map fun name => ⟨d.name, d.source s, name⟩

def variableRefs (d : Delimited) (text : String) : List VariableRef :=
  match d.segments text with
  | .error _ => []
  | .ok (segments, _) => segments.flatMap d.segmentVariables

def dialect (d : Delimited) : Dialect :=
  { name := d.name
    hasExpressions := d.hasExpressions
    validate := d.validate
    evaluate := d.evaluate
    variableRefs := d.variableRefs }

end Delimited

end Workflow
