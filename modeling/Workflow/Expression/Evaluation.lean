import Workflow.Expression.Operators

/-!
The value of an expression over a context. `and` and `or` look at their right operand only if the
left one leaves the answer open.
-/

namespace Workflow

namespace Expression

def lookup (data : Value) (name : String) : Except Fault Value :=
  match data.member? name with
  | some value => .ok value
  | none => .error (.undefined name)

/-- A result with its mismatch as the fault. -/
def orFault {α : Type} (result : Except Mismatch α) : Except Fault α :=
  result.mapError .mismatch

/-- The member of an object; one that is not there is null. -/
def attributeOf (name : String) : Value → Except Fault Value
  | .object members => .ok ((members.lookup name).getD .null)
  | value => .error (.mismatch (.attributeOf name value.kind))

mutual
def evaluate (data : Value) : Expression → Except Fault Value
  | literal value => .ok value
  | list items => (evaluateAll data items).map .list
  | var name => lookup data name
  | root => .ok data
  | attr base name =>
    if base.isContext then lookup data name
    else
      match evaluate data base with
      | .error e => .error e
      | .ok value => attributeOf name value
  | index base position =>
    match evaluate data base with
    | .error e => .error e
    | .ok base =>
      match evaluate data position with
      | .error e => .error e
      | .ok position => orFault (elementAt base position)
  | call function arguments => evaluateCall data function arguments
  | unary .not operand => (evaluate data operand).map fun value => .bool (!value.truthy)
  | unary .negate operand =>
    match evaluate data operand with
    | .error e => .error e
    | .ok (.number n) => .ok (negative n)
    | .ok value => .error (.mismatch (.negationOf value.kind))
  | binary op left right =>
    match evaluate data left with
    | .error e => .error e
    | .ok left =>
      if op = .and ∧ left.truthy = false then .ok (.bool false)
      else if op = .or ∧ left.truthy then .ok (.bool true)
      else
        match evaluate data right with
        | .error e => .error e
        | .ok right => orFault (applyBinary op left right)

/-- The values of expressions, up to the first that has none. -/
def evaluateAll (data : Value) : List Expression → Except Fault (List Value)
  | [] => .ok []
  | item :: items =>
    match evaluate data item with
    | .error e => .error e
    | .ok value => (evaluateAll data items).map (value :: ·)

/-- The value of a call. A variable as the argument of `ctx` names itself. -/
def evaluateCall (data : Value) (function : String) : List Expression → Except Fault Value
  | [] =>
    if function = "ctx" then .ok data
    else if function = "len" ∨ function = "str" then .error (.mismatch (.argumentCount function))
    else .error (.unknownFunction function)
  | [argument] =>
    if function = "ctx" then
      match argument with
      | var name => lookup data name
      | _ =>
        match evaluate data argument with
        | .error e => .error e
        | .ok (.string name) => lookup data name
        | .ok value => .error (.mismatch (.contextName value.kind))
    else if function = "len" then
      match evaluate data argument with
      | .error e => .error e
      | .ok value => orFault (length value)
    else if function = "str" then (evaluate data argument).map fun value => .string value.text
    else .error (.unknownFunction function)
  | _ :: _ :: _ =>
    if function = "ctx" ∨ function = "len" ∨ function = "str" then
      .error (.mismatch (.argumentCount function))
    else .error (.unknownFunction function)
end

end Expression

end Workflow
