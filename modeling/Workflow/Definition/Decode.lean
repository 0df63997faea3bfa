import Workflow.Definition.Basic
import Workflow.Text.Blank
import Workflow.Yaml.Record

/-!
Reading definitions from documents. Parameters are a list of names and of maps with one key, or one
map; destinations are a list, or a text with commas between them. In these places that allow several
shapes, a text is a string of the document and not just any scalar.
-/

namespace Workflow.Definition

open Yaml

def maxNesting : Nat := 128

/-- The parameter of a name or of a map with one key. -/
def parameter? (levels : Nat) : Tree → Option Parameter
  | .scalar s => s.string?.map fun name => { name := name }
  | .map tagged members =>
    if tagged || levels == 0 then none
    else
      match Tree.memberValues? Tree.string? (levels - 1) members with
      | none => none
      | some values =>
        match (Table.ofList values).entries with
        | [(name, value)] => some ⟨name, some value⟩
        | _ => none
  | _ => none

def parameters? (levels : Nat) : Tree → Option (List Parameter)
  | .list tagged items =>
    if tagged || levels == 0 then none else Tree.each? (parameter? (levels - 1)) items
  | .map tagged members =>
    if tagged || levels == 0 then none
    else
      (Tree.memberValues? Tree.string? (levels - 1) members).map fun values =>
        (Table.ofList values).entries.map fun (name, value) => ⟨name, some value⟩
  | _ => none

def splitAtCommas : List Char → List (List Char)
  | [] => [[]]
  | ',' :: cs => [] :: splitAtCommas cs
  | c :: cs =>
    match splitAtCommas cs with
    | [] => [[c]]
    | part :: parts => (c :: part) :: parts

/-- The names between the commas of a text, without the white space around them. -/
def namesOf (text : String) : List String :=
  ((splitAtCommas text.toList).map Text.trim).filterMap fun name =>
    if name.isEmpty then none else some (String.ofList name)

/-- The destinations of a text with commas or of a list. -/
def destinations? : Tree → Option (List String)
  | .scalar s => s.string?.map namesOf
  | .list tagged items => if tagged then none else Tree.each? Tree.string? items
  | _ => none

/-- What a join waits for: all branches, or so many. -/
def join? : Tree → Option Join
  | .scalar s =>
    match s.value with
    | some (.string text) => if text == "all" then some .all else none
    | some (.number (.whole n)) =>
      if 0 ≤ n.val ∧ n.val < UInt32.size then some (.count (UInt32.ofNat n.val.toNat)) else none
    | _ => none
  | _ => none

def retry? (t : Tree) : Option Retry := do
  let fields ← t.record? ["when", "count", "delay"]
  let condition ← Tree.optionalField? Tree.text? fields "when"
  let count ← Tree.field? Tree.word? 0 fields "count"
  let delay ← Tree.optionalField? Tree.word? fields "delay"
  return ⟨condition, count, delay⟩

def forEach? (levels : Nat) (t : Tree) : Option ForEach := do
  let fields ← t.record? ["items", "concurrency"]
  let items ← (fields.lookup "items").bind Tree.text?
  let concurrency ← Tree.optionalField? (Tree.value? Tree.text? (levels - 1)) fields "concurrency"
  return ⟨items, concurrency⟩

def clause? (levels : Nat) (t : Tree) : Option Clause := do
  let fields ← t.record? ["when", "publish", "do"]
  let condition ← Tree.optionalField? Tree.text? fields "when"
  let publish ← Tree.optionalField? (parameters? (levels - 1)) fields "publish"
  let destinations ← Tree.optionalField? destinations? fields "do"
  return ⟨condition, publish.getD [], destinations.getD []⟩

def input? (levels : Nat) (t : Tree) : Option (Table Value) := do
  let members ← t.members?
  let values ← Tree.eachMember? (Tree.value? Tree.text? (levels - 1)) members
  return Table.ofList values

def task? (levels : Nat) (t : Tree) : Option Task := do
  let fields ← t.record? ["action", "input", "with", "retry", "join", "next"]
  let inner := levels - 1
  let action ← Tree.optionalField? Tree.text? fields "action"
  let input ← Tree.field? (input? inner) .empty fields "input"
  let forEach ← Tree.optionalField? (forEach? inner) fields "with"
  let retry ← Tree.optionalField? retry? fields "retry"
  let join ← Tree.optionalField? join? fields "join"
  let next ← Tree.field?
    (fun t => t.items?.bind (Tree.each? (clause? (inner - 1)))) [] fields "next"
  return ⟨action, input, forEach, retry, join, next⟩

def tasks? (levels : Nat) (t : Tree) : Option (Table Task) := do
  let members ← t.members?
  let tasks ← Tree.eachMember? (task? (levels - 1)) members
  return Table.ofList tasks

/-- The definition that a document states whose collections nest at most so many levels deep. -/
def ofTreeWithin? (levels : Nat) (t : Tree) : Option Definition := do
  let fields ← t.record? ["version", "description", "input", "vars", "output", "tasks"]
  let inner := levels - 1
  let version ← Tree.optionalField? (Tree.value? Tree.text? inner) fields "version"
  let description ← Tree.optionalField? Tree.text? fields "description"
  let input ← Tree.optionalField? (parameters? inner) fields "input"
  let vars ← Tree.optionalField? (parameters? inner) fields "vars"
  let output ← Tree.optionalField? (parameters? inner) fields "output"
  let tasks ← Tree.field? (tasks? inner) .empty fields "tasks"
  return ⟨version, description, input.getD [], vars.getD [], output.getD [], tasks⟩

def ofTree? (t : Tree) : Option Definition :=
  ofTreeWithin? maxNesting t

end Workflow.Definition
