import Workflow.Graph.Document
import Workflow.Json.Reader
import Workflow.Json.Record

/-!
Graph documents as JSON.
-/

namespace Workflow

open Json

/-- The data of fields of which some may be missing. -/
def presentFields (fields : List (String × Option Value)) : Value :=
  .ofMembers (fields.filterMap fun (name, v) => v.map fun v => (name, v))

def Retry.value (r : Retry) : Value :=
  presentFields
    [("when", r.condition.map .string), ("count", some (.ofNat r.count.toNat)),
     ("delay", r.delay.map fun n => .ofNat n.toNat)]

def Retry.ofTree? (t : Tree) : Option Retry := do
  let fields ← t.record? ["when", "count", "delay"]
  let condition ← Tree.optionalField? Tree.string? fields "when"
  let count ← Tree.field? Tree.word? 0 fields "count"
  let delay ← Tree.optionalField? Tree.word? fields "delay"
  return ⟨condition, count, delay⟩

def Join.value : Join → Value
  | .all => .string "*"
  | .count n => .ofNat n.toNat

def Join.ofTree? (t : Tree) : Option Join :=
  match t with
  | .string (some "*") => some .all
  | t => t.word?.map .count

namespace Graph

def Split.value (s : Split) : Value :=
  .list [.string s.task, .ofNat s.instance_]

def Split.ofTree? : Tree → Option Split
  | .array [task, instance_] =>
    match task.string?, instance_.natBelow? UInt32.size with
    | some task, some n => some ⟨task, n⟩
    | _, _ => none
  | _ => none

/-- The list, unless it is empty. -/
def listField (items : List Value) : Option Value :=
  if items.isEmpty then none else some (.list items)

def NodeEntry.value (e : NodeEntry) : Value :=
  presentFields
    [("id", some (.string e.id)), ("name", e.name.map .string),
     ("barrier", e.barrier.map Join.value), ("splits", listField (e.splits.map Split.value)),
     ("retry", e.retry.map Retry.value)]

def NodeEntry.ofTree? (t : Tree) : Option NodeEntry := do
  let fields ← t.record? ["id", "name", "barrier", "splits", "retry"]
  let id ← Tree.required? Tree.string? fields "id"
  let name ← Tree.optionalField? Tree.string? fields "name"
  let barrier ← Tree.optionalField? Join.ofTree? fields "barrier"
  let splits ← Tree.field? (Tree.list? Split.ofTree?) [] fields "splits"
  let retry ← Tree.optionalField? Retry.ofTree? fields "retry"
  return ⟨id, name, barrier, splits, retry⟩

def EdgeEntry.value (e : EdgeEntry) : Value :=
  presentFields
    [("id", some (.string e.id)), ("key", some (.ofNat e.key)),
     ("criteria", listField (e.criteria.map .string)), ("ref", e.ordinal.map .ofNat)]

def EdgeEntry.ofTree? (t : Tree) : Option EdgeEntry := do
  let fields ← t.record? ["id", "key", "criteria", "ref"]
  let id ← Tree.required? Tree.string? fields "id"
  let key ← Tree.required? (Tree.natBelow? UInt32.size) fields "key"
  let criteria ← Tree.field? (Tree.list? Tree.string?) [] fields "criteria"
  let ordinal ← Tree.optionalField? (Tree.natBelow? UInt64.size) fields "ref"
  return ⟨id, key, criteria, ordinal⟩

/-- Reads the attributes of a graph, which lie one level below the document. -/
def attributes? : Tree → Option Value
  | .object members => Tree.value? (maxNesting - 1) (.object members)
  | _ => none

def Document.value (d : Document) : Value :=
  .ofMembers
    [("directed", .bool d.directed), ("multigraph", .bool d.multigraph), ("graph", d.attributes),
     ("nodes", .list (d.nodes.map NodeEntry.value)),
     ("adjacency", .list (d.adjacency.map fun es => .list (es.map EdgeEntry.value)))]

def Document.ofTree? (t : Tree) : Option Document := do
  let fields ← t.record? ["directed", "multigraph", "graph", "nodes", "adjacency"]
  let directed ← Tree.required? Tree.bool? fields "directed"
  let multigraph ← Tree.required? Tree.bool? fields "multigraph"
  let attributes ← Tree.field? attributes? (.object []) fields "graph"
  let nodes ← Tree.required? (Tree.list? NodeEntry.ofTree?) fields "nodes"
  let adjacency ← Tree.required? (Tree.list? (Tree.list? EdgeEntry.ofTree?)) fields "adjacency"
  return ⟨directed, multigraph, attributes, nodes, adjacency⟩

def Document.ofString? (text : String) : Option Document :=
  (Tree.ofString? text).bind Document.ofTree?

end Graph

end Workflow
