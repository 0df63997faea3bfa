import Workflow.Json.Tree

/-!
Reading JSON trees of a known shape. A record is an object, or the list of its fields in order.
-/

namespace Workflow.Json

def textMembers? : List (Option String × Tree) → Option (List (String × Tree))
  | [] => some []
  | (key, value) :: members =>
    match key, textMembers? members with
    | some k, some ms => some ((k, value) :: ms)
    | _, _ => none

namespace Tree

/-- The members of a record. In an object a field of the record occurs at most once, and what else
there is does not matter; in a list the last fields may be missing. -/
def record? (fields : List String) : Tree → Option (List (String × Tree))
  | object members =>
    match textMembers? members with
    | none => none
    | some members =>
      if fields.all fun f => (members.filter fun m => m.1 == f).length ≤ 1 then some members
      else none
  | array items => if items.length ≤ fields.length then some (fields.zip items) else none
  | _ => none

def string? : Tree → Option String
  | string s => s
  | _ => none

def bool? : Tree → Option Bool
  | bool b => some b
  | _ => none

def natBelow? (bound : Nat) : Tree → Option Nat
  | number n =>
    match n.number? with
    | some (.whole w) => if 0 ≤ w.val ∧ w.val < bound then some w.val.toNat else none
    | _ => none
  | _ => none

/-- A count of 32 bits. -/
def word? (t : Tree) : Option UInt32 :=
  (natBelow? UInt32.size t).map UInt32.ofNat

def each? {α : Type} (read : Tree → Option α) : List Tree → Option (List α)
  | [] => some []
  | t :: ts =>
    match read t, each? read ts with
    | some a, some as => some (a :: as)
    | _, _ => none

def list? {α : Type} (read : Tree → Option α) : Tree → Option (List α)
  | array items => each? read items
  | _ => none

def required? {α : Type} (read : Tree → Option α) (members : List (String × Tree))
    (field : String) : Option α :=
  (members.lookup field).bind read

def field? {α : Type} (read : Tree → Option α) (default : α) (members : List (String × Tree))
    (field : String) : Option α :=
  match members.lookup field with
  | none => some default
  | some t => read t

/-- Reads a field that may be missing or null. -/
def optionalField? {α : Type} (read : Tree → Option α) (members : List (String × Tree))
    (field : String) : Option (Option α) :=
  match members.lookup field with
  | none => some none
  | some null => some none
  | some t => (read t).map some

end Tree

end Workflow.Json
