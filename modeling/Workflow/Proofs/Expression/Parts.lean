import Workflow.Expression.Basic

/-!
The parts of expressions, and induction over them.
-/

namespace Workflow.Expression

/-- Induction over expressions: what holds of an expression as soon as it holds of those right below it
holds of all. -/
@[elab_as_elim, induction_eliminator]
theorem induction {motive : Expression → Prop}
    (literal : ∀ value, motive (literal value))
    (list : ∀ items, (∀ item ∈ items, motive item) → motive (list items))
    (var : ∀ name, motive (var name))
    (root : motive root)
    (attr : ∀ base name, motive base → motive (attr base name))
    (index : ∀ base position, motive base → motive position → motive (index base position))
    (call : ∀ function arguments, (∀ argument ∈ arguments, motive argument) →
      motive (call function arguments))
    (unary : ∀ op operand, motive operand → motive (unary op operand))
    (binary : ∀ op left right, motive left → motive right → motive (binary op left right)) :
    ∀ e, motive e
  | .literal value => literal value
  | .list items => list items fun item _ =>
    induction literal list var root attr index call unary binary item
  | .var name => var name
  | .root => root
  | .attr base name => attr base name (induction literal list var root attr index call unary binary base)
  | .index base position =>
    index base position (induction literal list var root attr index call unary binary base)
      (induction literal list var root attr index call unary binary position)
  | .call function arguments => call function arguments fun argument _ =>
    induction literal list var root attr index call unary binary argument
  | .unary op operand =>
    unary op operand (induction literal list var root attr index call unary binary operand)
  | .binary op left right =>
    binary op left right (induction literal list var root attr index call unary binary left)
      (induction literal list var root attr index call unary binary right)

/-- The expressions right below an expression, from left to right. -/
def children : Expression → List Expression
  | literal _ | var _ | root => []
  | list items => items
  | attr base _ => [base]
  | index base position => [base, position]
  | call _ arguments => arguments
  | unary _ operand => [operand]
  | binary _ left right => [left, right]

/-- A part of an expression: the expression itself, or a part of one right below it. -/
inductive Part : Expression → Expression → Prop where
  | self (e : Expression) : Part e e
  | inner {part child e : Expression} (inside : child ∈ e.children) (deeper : Part part child) :
    Part part e

/-- All parts of the expression have the property. -/
def Everywhere (p : Expression → Prop) (e : Expression) : Prop :=
  ∀ part, Part part e → p part

/-- A property holds everywhere in an expression just if it holds of it and everywhere below. -/
theorem everywhere_iff {p : Expression → Prop} {e : Expression} :
    e.Everywhere p ↔ p e ∧ ∀ child ∈ e.children, child.Everywhere p := by
  constructor
  · intro all
    exact ⟨all e (.self e), fun child inside part deeper => all part (.inner inside deeper)⟩
  · intro ⟨here, deeper⟩ part within
    cases within with
    | self => exact here
    | inner inside within => exact deeper _ inside part within

@[simp] theorem everywhere_var {p : Expression → Prop} {name : String} :
    (var name).Everywhere p ↔ p (var name) := by
  rw [everywhere_iff]
  simp [children]

@[simp] theorem everywhere_attr {p : Expression → Prop} {base : Expression} {name : String} :
    (attr base name).Everywhere p ↔ p (attr base name) ∧ base.Everywhere p := by
  rw [everywhere_iff]
  simp [children]

@[simp] theorem everywhere_unary {p : Expression → Prop} {op : UnaryOp} {operand : Expression} :
    (unary op operand).Everywhere p ↔ p (unary op operand) ∧ operand.Everywhere p := by
  rw [everywhere_iff]
  simp [children]

@[simp] theorem everywhere_binary {p : Expression → Prop} {op : BinaryOp} {left right : Expression} :
    (binary op left right).Everywhere p ↔
      p (binary op left right) ∧ left.Everywhere p ∧ right.Everywhere p := by
  rw [everywhere_iff]
  simp [children]

@[simp] theorem everywhere_call {p : Expression → Prop} {function : String}
    {arguments : List Expression} :
    (call function arguments).Everywhere p ↔
      p (call function arguments) ∧ ∀ argument ∈ arguments, argument.Everywhere p :=
  everywhere_iff

theorem Everywhere.here {p : Expression → Prop} {e : Expression} (all : e.Everywhere p) : p e :=
  (everywhere_iff.mp all).1

theorem Everywhere.child {p : Expression → Prop} {e child : Expression} (all : e.Everywhere p)
    (inside : child ∈ e.children) : child.Everywhere p :=
  (everywhere_iff.mp all).2 child inside

end Workflow.Expression
