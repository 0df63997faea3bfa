import Workflow.Definition.Decode
import Workflow.Yaml.Document

/-!
Loading definitions from texts and from the bytes of files.
-/

namespace Workflow

/-- Why no definition could be loaded. -/
inductive LoadFailure where
  /-- There is no file, or its bytes are no text. -/
  | unreadable
  /-- The text is no YAML document, or the document states no definition. -/
  | malformed
  | noTasks
  deriving DecidableEq, Repr

def LoadFailure.message : LoadFailure → String
  | .unreadable => "I/O error"
  | .malformed => "YAML parsing error"
  | .noTasks => "Invalid workflow schema: workflow defines no tasks"

namespace Definition

/-- The definition in a text; it has at least one task. -/
def load (text : String) : Except LoadFailure Definition :=
  match (Yaml.Tree.ofString? text).bind ofTree? with
  | none => .error .malformed
  | some d => if d.tasks.isEmpty then .error .noTasks else .ok d

/-- The definition in the bytes of a file, if there is one. -/
def loadBytes (file : Option ByteArray) : Except LoadFailure Definition :=
  match file.bind String.fromUTF8? with
  | none => .error .unreadable
  | some text => load text

end Definition

end Workflow
