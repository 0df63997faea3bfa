import Workflow.Text.Word

/-!
Guards of nodes that stand for one instance of a task: where a guard mentions the task as a whole
word, the mention becomes the id of the node.
-/

namespace Workflow.Composition

/-- Is there the start or the end of a word between these two characters? At the ends of a text
there is no character. -/
def atBoundary (before behind : Option Char) : Bool :=
  (before.map Text.isWord).getD false != (behind.map Text.isWord).getD false

/-- Does the text start with the name as a whole word? -/
def startsWithWord (name : List Char) (before : Option Char) (cs : List Char) : Bool :=
  name.isPrefixOf cs && atBoundary before cs.head? &&
    atBoundary (name.getLast?.orElse fun _ => before) (cs.drop name.length).head?

/-- Replaces the whole words that are the name, from left to right. -/
def replaceWord (name id : List Char) (before : Option Char) : List Char → List Char
  | [] => if startsWithWord name before [] then id else []
  | c :: cs =>
    if startsWithWord name before (c :: cs) then
      if name.isEmpty then id ++ c :: replaceWord name id (some c) cs
      else id ++ replaceWord name id name.getLast? (cs.drop (name.length - 1))
    else c :: replaceWord name id (some c) cs
termination_by cs => cs.length
decreasing_by all_goals simp only [List.length_cons, List.length_drop]; omega

/-- The guards of a task, for the node with this id. -/
def renameInGuards (criteria : List String) (task id : String) : List String :=
  if task = id then criteria
  else criteria.map fun guard =>
    String.ofList (replaceWord task.toList id.toList none guard.toList)

end Workflow.Composition
