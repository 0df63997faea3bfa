import Workflow.Definition.Basic

/-!
The texts of a definition that may hold expressions, each with its place in the definition and in
the schema of definitions.
-/

namespace Workflow

/-- A text with its place. -/
structure Site where
  /-- The path to it in the definition. -/
  path : String
  /-- The path to its description in the schema. -/
  schema : String
  text : String
  deriving DecidableEq, Repr, Inhabited

/-- A name with the texts of its value. -/
structure Binding where
  name : String
  sites : List Site
  deriving DecidableEq, Repr, Inhabited

inductive Step where
  | index (i : Nat)
  | key (k : String)
  deriving DecidableEq, Repr

def Step.text : Step → String
  | .index i => "[" ++ toString i ++ "]"
  | .key k => "." ++ k

/-- A path into a value, written behind the path to the value. -/
def extendPath (base : String) (steps : List Step) : String :=
  steps.foldl (fun path s => path ++ s.text) base

namespace Value

/-- The items of a list and the members of an object, each with the step that leads to it. -/
def parts : Value → List (Step × Value)
  | .list items => items.zipIdx.map fun (v, i) => (.index i, v)
  | .object members => members.map fun (k, v) => (.key k, v)
  | _ => []

mutual
/-- How many values there are in a value, with itself. -/
def nodes : Value → Nat
  | .list items => 1 + itemNodes items
  | .object members => 1 + memberNodes members
  | _ => 1

def itemNodes : List Value → Nat
  | [] => 0
  | v :: vs => nodes v + itemNodes vs

def memberNodes : List (String × Value) → Nat
  | [] => 0
  | (_, v) :: ms => nodes v + memberNodes ms
end

/-- The texts on a stack of values with their paths, of which at most so many are looked at. The value on
top comes first; if it is no text, its parts take its place. -/
def stackSites (schema : String) : Nat → List (Value × String) → List Site
  | 0, _ => []
  | _ + 1, [] => []
  | fuel + 1, (.string text, path) :: stack => ⟨path, schema, text⟩ :: stackSites schema fuel stack
  | fuel + 1, (v, path) :: stack =>
    stackSites schema fuel (v.parts.map (fun part => (part.2, path ++ part.1.text)) ++ stack)

def sites (path schema : String) (v : Value) : List Site :=
  stackSites schema v.nodes [(v, path)]

end Value

/-- The bindings of parameters in a list at this path, of which the first has this index. -/
def bindingsFrom (path schema : String) (i : Nat) : List Definition.Parameter → List Binding
  | [] => []
  | p :: ps =>
    let sites :=
      match p.value with
      | some v => v.sites (extendPath path [.index i, .key p.name]) schema
      | none => []
    ⟨p.name, sites⟩ :: bindingsFrom path schema (i + 1) ps

def bindings (path schema : String) (ps : List Definition.Parameter) : List Binding :=
  bindingsFrom path schema 0 ps

end Workflow
