import Workflow.Expression.Basic

/-!
The variables of the context that an expression mentions. A name that stands alone as the argument
of a function other than `ctx`, `len` and `str` names something else, such as a task.
-/

namespace Workflow

namespace Expression

/-- Does the function read its arguments from the context? -/
def readsContext (function : String) : Bool :=
  function = "ctx" || function = "len" || function = "str"

/-- Adds a name at the end, unless it is there. -/
def note (name : String) (names : List String) : List String :=
  if names.contains name then names else names ++ [name]

/-- The variable that the arguments of `ctx` name outright. -/
def namedArgument? : List Expression → Option String
  | [var name] => some name
  | [literal (.string name)] => some name
  | _ => none

/-- The variable that an expression names outright. -/
def named? : Expression → Option String
  | var name => some name
  | attr base name => if base.isContext then some name else none
  | call function arguments => if function = "ctx" then namedArgument? arguments else none
  | _ => none

def isVar : Expression → Bool
  | var _ => true
  | _ => false

/-- The expressions right below one that are searched for its variables, from left to right. -/
def searched : Expression → List Expression
  | literal _ | var _ | root => []
  | list items => items
  | attr base _ => [base]
  | index base position => [base, position]
  | call function arguments =>
    if readsContext function then arguments else arguments.filter fun argument => !argument.isVar
  | unary _ operand => [operand]
  | binary _ left right => [left, right]

mutual
def nodes : Expression → Nat
  | literal _ | var _ | root => 1
  | list items => 1 + stackNodes items
  | attr base _ => 1 + nodes base
  | index base position => 1 + nodes base + nodes position
  | call _ arguments => 1 + stackNodes arguments
  | unary _ operand => 1 + nodes operand
  | binary _ left right => 1 + nodes left + nodes right

def stackNodes : List Expression → Nat
  | [] => 0
  | e :: stack => nodes e + stackNodes stack
end

theorem stackNodes_append (items stack : List Expression) :
    stackNodes (items ++ stack) = stackNodes items + stackNodes stack := by
  induction items with
  | nil => simp [stackNodes]
  | cons item items ih => simp only [List.cons_append, stackNodes, ih, Nat.add_assoc]

theorem stackNodes_filter_le (p : Expression → Bool) (items : List Expression) :
    stackNodes (items.filter p) ≤ stackNodes items := by
  induction items with
  | nil => exact Nat.le_refl _
  | cons item items ih =>
    rw [List.filter_cons]
    split <;> simp only [stackNodes] <;> omega

theorem stackNodes_searched_lt (e : Expression) : stackNodes e.searched < e.nodes := by
  cases e with
  | call function arguments =>
    have fewer := stackNodes_filter_le (fun argument => !argument.isVar) arguments
    rw [searched, nodes]
    split <;> omega
  | _ =>
    simp only [searched, stackNodes, nodes]
    omega

/-- Adds the variables of the expressions on a stack to the names. The one on top comes first; if it
names no variable outright, what is searched below it takes its place. -/
def collect (names : List String) : List Expression → List String
  | [] => names
  | e :: stack =>
    match e.named? with
    | some name => collect (note name names) stack
    | none => collect names (e.searched ++ stack)
termination_by stack => stackNodes stack
decreasing_by
  · have := stackNodes_searched_lt e
    rw [stackNodes]
    omega
  · have := stackNodes_searched_lt e
    rw [stackNodes, stackNodes_append]
    omega

/-- The variables of an expression in the order in which they first occur. -/
def variableNames (e : Expression) : List String :=
  collect [] [e]

end Expression

end Workflow
