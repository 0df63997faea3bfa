import Workflow.Definition.Basic
import Workflow.Yaml.Tree

/-!
Writing definitions as documents. What is empty or missing is left out, except the declarations of a
workflow, the destinations of a clause and the count of a retry.
-/

namespace Workflow.Definition

open Yaml

/-- A field that is written only if it has a value. -/
def optionalField {α : Type} (name : String) (write : α → Tree) :
    Option α → List (String × Tree)
  | some a => [(name, write a)]
  | none => []

/-- A field that is written only if its list has items. -/
def listField {α : Type} (name : String) (write : α → Tree) :
    List α → List (String × Tree)
  | [] => []
  | items => [(name, .list false (items.map write))]

/-- The tree of a parameter: its name, or a map from its name to its value. -/
def Parameter.toTree (p : Parameter) : Tree :=
  match p.value with
  | none => .ofString p.name
  | some value => .ofMembers [(p.name, .ofValue value)]

def joinTree : Join → Tree
  | .all => .ofString "all"
  | .count n => .scalar (.ofCount n)

def retryTree (r : Retry) : Tree :=
  .ofMembers <|
    optionalField "when" .ofString r.condition ++
    [("count", .scalar (.ofCount r.count))] ++
    optionalField "delay" (fun n => .scalar (.ofCount n)) r.delay

def ForEach.toTree (f : ForEach) : Tree :=
  .ofMembers <|
    [("items", .ofString f.items)] ++ optionalField "concurrency" .ofValue f.concurrency

def Clause.toTree (c : Clause) : Tree :=
  .ofMembers <|
    optionalField "when" .ofString c.condition ++
    listField "publish" Parameter.toTree c.publish ++
    [("do", .list false (c.destinations.map .ofString))]

/-- The fields for the values that are handed to the action of a task. -/
def inputField (input : Table Value) : List (String × Tree) :=
  if input.isEmpty then []
  else [("input", .ofMembers (input.entries.map fun (name, v) => (name, .ofValue v)))]

def Task.toTree (t : Task) : Tree :=
  .ofMembers <|
    optionalField "action" .ofString t.action ++
    inputField t.input ++
    optionalField "with" ForEach.toTree t.forEach ++
    optionalField "retry" retryTree t.retry ++
    optionalField "join" joinTree t.join ++
    listField "next" Clause.toTree t.next

def toTree (d : Definition) : Tree :=
  .ofMembers <|
    optionalField "version" .ofValue d.version ++
    optionalField "description" .ofString d.description ++
    [("input", .list false (d.input.map Parameter.toTree)),
     ("vars", .list false (d.vars.map Parameter.toTree)),
     ("output", .list false (d.output.map Parameter.toTree)),
     ("tasks", .ofMembers (d.tasks.entries.map fun (name, t) => (name, t.toTree)))]

def json (d : Definition) : String :=
  d.toTree.json

end Workflow.Definition
