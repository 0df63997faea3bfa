import Workflow.Value.Basic

/-!
Expressions: the small language in which workflows read their context.
-/

namespace Workflow

namespace Expression

inductive UnaryOp where
  | not
  | negate
  deriving DecidableEq, Repr

inductive BinaryOp where
  | and
  | or
  | equal
  | unequal
  | less
  | atMost
  | greater
  | atLeast
  | member
  | add
  | subtract
  | multiply
  | divide
  deriving DecidableEq, Repr

end Expression

inductive Expression where
  | literal (value : Value)
  | list (items : List Expression)
  /-- A variable of the context. -/
  | var (name : String)
  /-- The whole context, written `$`. -/
  | root
  | attr (base : Expression) (name : String)
  | index (base position : Expression)
  | call (function : String) (arguments : List Expression)
  | unary (op : Expression.UnaryOp) (operand : Expression)
  | binary (op : Expression.BinaryOp) (left right : Expression)
  deriving Inhabited

/-- Does the expression stand for the whole context, as `$` and `ctx()` do? -/
def Expression.isContext : Expression → Bool
  | root => true
  | call "ctx" [] => true
  | _ => false

end Workflow
