import Workflow.Value.Basic
import Workflow.Json.Writer

/-!
YAML documents as trees. What a scalar stands for depends on the place it is read for, so a scalar
carries each of its readings. Maps keep their order and their repetitions.
-/

namespace Workflow.Yaml

/-- How a place that may stay empty takes a scalar. -/
inductive Presence where
  | absent
  | present
  /-- Its tag says it is null, and it is not. -/
  | wrong
  deriving DecidableEq, Repr

/-- A scalar, by what it stands for in each kind of place. -/
structure Scalar where
  /-- In a place for a text. -/
  text : String
  /-- In a place for any datum; nothing if its tag does not fit. -/
  value : Option Value
  /-- In a place for a count. -/
  count : Option Nat
  /-- In a place that may stay empty. -/
  presence : Presence
  /-- Is nothing written? Then it is empty in a place for a collection. -/
  blank : Bool

inductive Tree where
  | scalar (s : Scalar)
  /-- A tag of one's own keeps a collection out of places for any datum. -/
  | list (tagged : Bool) (items : List Tree)
  | map (tagged : Bool) (members : List (Tree × Tree))
  /-- A collection inside of itself. -/
  | endless

namespace Scalar

/-- The string that the scalar is in a place for any datum. -/
def string? (s : Scalar) : Option String :=
  match s.value with
  | some (.string text) => some text
  | _ => none

def ofString (s : String) : Scalar :=
  ⟨s, some (.string s), none, .present, false⟩

def countOf : Number → Option Nat
  | .whole n => if 0 ≤ n.val then some n.val.toNat else none
  | .float _ => none

def ofNumber (n : Number) : Scalar :=
  ⟨n.json, some (.number n), countOf n, .present, false⟩

def ofCount (n : UInt32) : Scalar :=
  ⟨toString n.toNat, some (.ofNat n.toNat), some n.toNat, .present, false⟩

def ofBool (b : Bool) : Scalar :=
  ⟨(Value.bool b).json, some (.bool b), none, .present, false⟩

def null : Scalar :=
  ⟨"null", some .null, none, .absent, false⟩

end Scalar

namespace Tree

def ofString (s : String) : Tree :=
  scalar (.ofString s)

def ofMembers (members : List (String × Tree)) : Tree :=
  map false (members.map fun (key, t) => (ofString key, t))

def text? : Tree → Option String
  | scalar s => some s.text
  | _ => none

def string? : Tree → Option String
  | scalar s => s.string?
  | _ => none

def count? : Tree → Option Nat
  | scalar s => s.count
  | _ => none

mutual
/-- The datum of a tree that nests at most so many levels deep; `key` reads the keys of maps. -/
def value? (key : Tree → Option String) (levels : Nat) : Tree → Option Value
  | scalar s => s.value
  | list tagged items =>
    match levels with
    | 0 => none
    | levels + 1 => if tagged then none else (values? key levels items).map .list
  | map tagged members =>
    match levels with
    | 0 => none
    | levels + 1 => if tagged then none else (memberValues? key levels members).map .ofMembers
  | endless => none

def values? (key : Tree → Option String) (levels : Nat) : List Tree → Option (List Value)
  | [] => some []
  | item :: items =>
    match value? key levels item, values? key levels items with
    | some v, some vs => some (v :: vs)
    | _, _ => none

def memberValues? (key : Tree → Option String) (levels : Nat) :
    List (Tree × Tree) → Option (List (String × Value))
  | [] => some []
  | (k, item) :: members =>
    match key k, value? key levels item, memberValues? key levels members with
    | some k, some v, some vs => some ((k, v) :: vs)
    | _, _, _ => none
end

mutual
def ofValue : Value → Tree
  | .null => scalar .null
  | .bool b => scalar (.ofBool b)
  | .number n => scalar (.ofNumber n)
  | .string s => ofString s
  | .list items => list false (ofValues items)
  | .object members => map false (ofValueMembers members)

def ofValues : List Value → List Tree
  | [] => []
  | v :: vs => ofValue v :: ofValues vs

def ofValueMembers : List (String × Value) → List (Tree × Tree)
  | [] => []
  | (k, v) :: members => (ofString k, ofValue v) :: ofValueMembers members
end

mutual
/-- The JSON text of a tree whose scalars all stand for data. -/
def json : Tree → String
  | scalar s => (s.value.getD .null).json
  | list _ items => "[" ++ ",".intercalate (jsonItems items) ++ "]"
  | map _ members => "\x7b" ++ ",".intercalate (jsonMembers members) ++ "\x7d"
  | endless => "null"

def jsonItems : List Tree → List String
  | [] => []
  | t :: ts => json t :: jsonItems ts

def jsonMembers : List (Tree × Tree) → List String
  | [] => []
  | (k, t) :: members =>
    (Json.quoted (k.text?.getD "") ++ ":" ++ json t) :: jsonMembers members
end

end Tree

end Workflow.Yaml
