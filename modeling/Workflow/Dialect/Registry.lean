import Workflow.Dialect.Basic

/-!
The dialects that a workflow may use. A text may hold expressions of one dialect only.
-/

namespace Workflow

/-- Dialects in the order of their registration, with one dialect to a name. -/
structure Registry where
  dialects : List Dialect
  nodup : (dialects.map Dialect.name).Nodup

namespace Registry

def empty : Registry := ⟨[], List.nodup_nil⟩

/-- Adds a dialect at the end; the dialect that had its name gives way. -/
def register (r : Registry) (d : Dialect) : Registry :=
  { dialects := r.dialects.filter (fun e => e.name != d.name) ++ [d]
    nodup := by
      rw [List.map_append, List.nodup_append]
      refine ⟨r.nodup.sublist (List.filter_sublist.map _), by simp, ?_⟩
      intro a ha b hb
      obtain ⟨e, he, rfl⟩ := List.mem_map.1 ha
      simp only [List.map_cons, List.map_nil, List.mem_singleton] at hb
      subst hb
      simpa using (List.mem_filter.1 he).2 }

/-- The registry of these dialects, registered in order. -/
def ofList (dialects : List Dialect) : Registry :=
  dialects.foldl register empty

def get? (r : Registry) (name : String) : Option Dialect :=
  r.dialects.find? fun d => d.name == name

/-- The names in the order of registration. -/
def names (r : Registry) : List String :=
  r.dialects.map Dialect.name

def matching (r : Registry) (text : String) : List Dialect :=
  r.dialects.filter fun d => d.hasExpressions text

def hasExpressions (r : Registry) (text : String) : Bool :=
  r.dialects.any fun d => d.hasExpressions text

/-- The variables that the text mentions, dialect by dialect. -/
def variableRefs (r : Registry) (text : String) : List VariableRef :=
  r.dialects.flatMap fun d => d.variableRefs text

/-- The problem of a text that mixes dialects. -/
def mixing (text : String) (used : List Dialect) : Diagnostic :=
  { kind := "expressions"
    expression := some text
    message := "Expression mixes dialects (" ++ ", ".intercalate (used.map Dialect.name) ++
      "); use only one per value." }

/-- What each dialect finds wrong with the text, and last that it mixes dialects. -/
def validate (r : Registry) (text : String) : List Diagnostic :=
  let used := r.matching text
  r.dialects.flatMap (fun d => d.validate text) ++
    (if 1 < used.length then [mixing text used] else [])

/-- The value of a text in the dialect that it is written in. A text without expressions is the
string itself. -/
def evaluate (r : Registry) (text : String) (data : Value) : Except Failure Value :=
  match r.matching text with
  | [] => .ok (.string text)
  | [d] => d.evaluate text data
  | _ => .error ⟨text, .malformed "expression mixes dialects"⟩

end Registry

end Workflow
