import Workflow.Yaml.Scalar

/-!
The tokens of YAML texts. Where blocks begin and end is a token too, although no character stands
for it: blocks are told by their indentation.
-/

namespace Workflow.Yaml

inductive Token where
  /-- The version that a document says it is written in. -/
  | version (major minor : Nat)
  /-- A short form of tags and what it stands for. -/
  | handle (name expansion : String)
  | documentStart
  | documentEnd
  | sequenceStart
  | mappingStart
  | blockEnd
  | openBracket
  | closeBracket
  | openBrace
  | closeBrace
  | blockEntry
  | flowEntry
  | key
  | value
  | alias (name : String)
  | anchor (name : String)
  | tag (handle rest : String)
  | scalar (text : String) (style : Style)
  deriving DecidableEq, Repr

end Workflow.Yaml
