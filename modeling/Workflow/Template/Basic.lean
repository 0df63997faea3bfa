import Workflow.Template.Datum

/-!
Templates: texts with values to print and with statements in them; and what can go wrong with one.
-/

namespace Workflow.Template

/-- Why a text is no template, or why a template has no result. -/
inductive Fault where
  /-- The text does not follow the grammar. -/
  | malformed
  /-- A string holds a backslash that escapes nothing. -/
  | badEscape
  /-- Something undefined was used. -/
  | undefined
  /-- There is no such function, filter or test. -/
  | unknown (what : String)
  /-- An operation does not fit its operands. -/
  | mismatch
  deriving DecidableEq, Repr

/-- The operators between two operands that are both always looked at. -/
inductive Operator where
  | equal
  | unequal
  | less
  | atMost
  | greater
  | atLeast
  | isIn
  | add
  | subtract
  | concat
  | multiply
  | divide
  | floorDivide
  | modulo
  | power
  deriving DecidableEq, Repr

inductive Expr where
  | literal (d : Datum)
  | name (s : String)
  | not (operand : Expr)
  | negate (operand : Expr)
  | and (left right : Expr)
  | or (left right : Expr)
  | binary (op : Operator) (left right : Expr)
  /-- A choice; without an alternative it may come to nothing. -/
  | choice (test chosen : Expr) (otherwise : Option Expr)
  | filter (name : String) (target : Expr) (arguments : List (Option String × Expr))
  | test (name : String) (target : Expr) (arguments : List (Option String × Expr))
  | attr (base : Expr) (name : String)
  | item (base key : Expr)
  | call (callee : Expr) (arguments : List (Option String × Expr))
  | list (items : List Expr)
  | map (entries : List (Expr × Expr))
  deriving Inhabited

/-- What a loop or an assignment binds: one name, or several to the items of a list. -/
inductive Target where
  | name (s : String)
  | names (targets : List Target)
  deriving Inhabited

inductive Statement where
  | text (s : String)
  | print (e : Expr)
  | branch (test : Expr) (body otherwise : List Statement)
  | loop (target : Target) (elements : Expr) (condition : Option Expr)
      (body otherwise : List Statement)
  | assign (target : Target) (value : Expr)
  | capture (name : String) (body : List Statement)
  deriving Inhabited

end Workflow.Template
