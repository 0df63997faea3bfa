import Workflow.Value.Number

/-!
The data that expressions read and produce: null, booleans, numbers, strings, lists and objects.
The members of an object are sorted by key and no key occurs twice; `ofMembers` builds such objects.
-/

namespace Workflow

inductive Value where
  | null
  | bool (b : Bool)
  | number (n : Number)
  | string (s : String)
  | list (items : List Value)
  | object (members : List (String × Value))
  deriving Inhabited

namespace Value

def ofWhole (n : Whole) : Value :=
  number (.whole n)

/-- A double as a datum; the infinite ones and the NaN have no datum and become null. -/
def ofFloat (x : Float) : Value :=
  if x.isFinite then number (.float x) else null

/-- A whole number as a datum; one that 64 bits do not hold has no datum and becomes null. -/
def ofInt (n : Int) : Value :=
  match Whole.ofInt? n with
  | some w => ofWhole w
  | none => null

def ofNat (n : Nat) : Value :=
  ofInt n

/-- Puts a member in its place by key; an earlier member of that key gives way. -/
def insertMember (key : String) (value : Value) : List (String × Value) → List (String × Value)
  | [] => [(key, value)]
  | (k, v) :: rest =>
    if key < k then (key, value) :: (k, v) :: rest
    else if key = k then (key, value) :: rest
    else (k, v) :: insertMember key value rest

/-- The object of these members; of two members with one key the later one counts. -/
def ofMembers (members : List (String × Value)) : Value :=
  object (members.foldl (fun sorted m => insertMember m.1 m.2 sorted) [])

/-- The member of that name, if the value is an object that has it. -/
def member? : Value → String → Option Value
  | object members, name => members.lookup name
  | _, _ => none

/-- Truth as `not`, `and`, `or` and guards see it: null, false, zero and all that is empty are
false. -/
def truthy : Value → Bool
  | null => false
  | bool b => b
  | number n => n.toFloat != 0.0
  | string s => !s.isEmpty
  | list items => !items.isEmpty
  | object members => !members.isEmpty

/-- The name of the value's kind, as messages give it. -/
def kind : Value → String
  | null => "null"
  | bool _ => "boolean"
  | number _ => "number"
  | string _ => "string"
  | list _ => "list"
  | object _ => "object"

mutual
/-- Equality by structure, in which numbers of different kinds differ. -/
def same : Value → Value → Bool
  | null, null => true
  | bool a, bool b => a == b
  | number m, number n => m.same n
  | string s, string t => s == t
  | list xs, list ys => sameItems xs ys
  | object ms, object ns => sameMembers ms ns
  | _, _ => false

def sameItems : List Value → List Value → Bool
  | [], [] => true
  | x :: xs, y :: ys => same x y && sameItems xs ys
  | _, _ => false

/-- Equality of sorted members, key by key. -/
def sameMembers : List (String × Value) → List (String × Value) → Bool
  | [], [] => true
  | (k, v) :: ms, (l, w) :: ns => k == l && same v w && sameMembers ms ns
  | _, _ => false
end

end Value

end Workflow
