import Workflow.Dialect.Basic
import Workflow.Template.Grammar
import Workflow.Template.Rendering
import Workflow.Template.Variables

/-!
The dialect of templates. A text that is one print from end to end has the value of its expression;
every other text is rendered.
-/

namespace Workflow.Brace

open Template

def name : String := "brace"

/-- Does the text hold a marker of a print or of a block? -/
def hasExpressions (text : String) : Bool :=
  Text.occursIn ['\x7b', '\x7b'] text.toList || Text.occursIn ['\x7b', '%'] text.toList

/-- The body of a text that is one print. -/
def singleBody? (text : String) : Option (List Char) :=
  match Text.trim text.toList with
  | '\x7b' :: '\x7b' :: rest =>
    match rest.reverse with
    | '\x7d' :: '\x7d' :: reversed =>
      let body := reversed.reverse
      if Text.occursIn ['\x7b', '\x7b'] body || Text.occursIn ['\x7d', '\x7d'] body ||
          Text.occursIn ['\x7b', '%'] body then none
      else some (Text.trim body)
    | _ => none
  | _ => none

/-- The names that the text reads from its context; one that is no template reads none. -/
def undeclared (text : String) : List String :=
  match parse text.toList with
  | .ok template => Template.variableNames template
  | .error _ => []

/-- The failure of a text that uses something undefined: the first name it reads that the context
does not have is to blame, or else the fallback. -/
def undefinedFailure (text : String) (data : Value) (fallback : String) : Failure :=
  let missing := (undeclared text).find? fun name => (data.member? name).isNone
  ⟨text, .undefinedVariable (missing.getD fallback)⟩

/-- The failure that a fault of a text stands for. -/
def failure (text : String) (data : Value) : Fault → Failure
  | .malformed => ⟨text, .malformed "the template does not follow its grammar"⟩
  | .badEscape => ⟨text, .mismatch "a string holds a bad escape"⟩
  | .undefined => undefinedFailure text data ""
  | .unknown what => ⟨text, .unknownFunction what⟩
  | .mismatch => ⟨text, .mismatch "an operation does not fit its operands"⟩

/-- The problem of a text that is no template. -/
def validate (text : String) : List Diagnostic :=
  if hasExpressions text then
    match parse text.toList with
    | .ok _ => []
    | .error e =>
      [{ kind := name
         expression := some text
         message := (failure text .null e).message }]
  else []

/-- The value of a text that is one print. -/
def evaluateSingle (text : String) (body : List Char) (data : Value) : Except Failure Value :=
  match (parseExpr body).bind (Template.evaluate ⟨[[]], Datum.ofValue data⟩) with
  | .error e => .error (failure text data e)
  | .ok d =>
    if d.isUndefined then .error (undefinedFailure text data (String.ofList body))
    else
      match d.toValue? with
      | some value => .ok value
      | none => .error (failure text data .mismatch)

def evaluate (text : String) (data : Value) : Except Failure Value :=
  if hasExpressions text then
    match singleBody? text with
    | some body => evaluateSingle text body data
    | none =>
      match (parse text.toList).bind fun template => render template data with
      | .ok s => .ok (.string s)
      | .error e => .error (failure text data e)
  else .ok (.string text)

def variableRefs (text : String) : List VariableRef :=
  if hasExpressions text then (undeclared text).map fun s => ⟨name, text, s⟩ else []

def dialect : Dialect :=
  { name := name
    hasExpressions := hasExpressions
    validate := validate
    evaluate := evaluate
    variableRefs := variableRefs }

end Workflow.Brace
