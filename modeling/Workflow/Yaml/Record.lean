import Workflow.Yaml.Tree

/-!
Reading trees of a known shape: records of named fields, optional places, and counts.
-/

namespace Workflow.Yaml

def textMembers? : List (Tree × Tree) → Option (List (String × Tree))
  | [] => some []
  | (key, value) :: members =>
    match key.text?, textMembers? members with
    | some k, some ms => some ((k, value) :: ms)
    | _, _ => none

namespace Tree

/-- The members of a map with texts for keys. Where nothing is written, there are none. -/
def members? : Tree → Option (List (String × Tree))
  | map _ members => textMembers? members
  | scalar s => if s.blank then some [] else none
  | _ => none

/-- The items of a list. Where nothing is written, there are none. -/
def items? : Tree → Option (List Tree)
  | list _ items => some items
  | scalar s => if s.blank then some [] else none
  | _ => none

/-- The members of a record. A field of the record occurs at most once; what else there is does not
matter. -/
def record? (fields : List String) (t : Tree) : Option (List (String × Tree)) :=
  match t.members? with
  | none => none
  | some members =>
    if fields.all fun f => (members.filter fun m => m.1 == f).length ≤ 1 then some members else none

def optional? {α : Type} (read : Tree → Option α) : Tree → Option (Option α)
  | scalar s =>
    match s.presence with
    | .absent => some none
    | .present => (read (scalar s)).map some
    | .wrong => none
  | t => (read t).map some

/-- Reads a field that may be missing or stay empty. -/
def optionalField? {α : Type} (read : Tree → Option α) (members : List (String × Tree))
    (field : String) : Option (Option α) :=
  match members.lookup field with
  | none => some none
  | some t => optional? read t

def field? {α : Type} (read : Tree → Option α) (default : α) (members : List (String × Tree))
    (field : String) : Option α :=
  match members.lookup field with
  | none => some default
  | some t => read t

def word? (t : Tree) : Option UInt32 :=
  match t.count? with
  | some n => if n < UInt32.size then some (UInt32.ofNat n) else none
  | none => none

def each? {α : Type} (read : Tree → Option α) : List Tree → Option (List α)
  | [] => some []
  | t :: ts =>
    match read t, each? read ts with
    | some a, some as => some (a :: as)
    | _, _ => none

def eachMember? {α : Type} (read : Tree → Option α) :
    List (String × Tree) → Option (List (String × α))
  | [] => some []
  | (name, t) :: ts =>
    match read t, eachMember? read ts with
    | some a, some as => some ((name, a) :: as)
    | _, _ => none

end Tree

end Workflow.Yaml
