import Workflow.Json.Numeral
import Workflow.Value.Basic

/-!
JSON texts as trees that keep what the text says: numerals with their digits, the members of an
object in order and with repetitions, and strings that name no Unicode text (a surrogate without
its partner) as `none`. What reads such a tree decides what is an error.
-/

namespace Workflow.Json

inductive Tree where
  | null
  | bool (b : Bool)
  | number (n : Numeral)
  | string (s : Option String)
  | array (items : List Tree)
  | object (members : List (Option String × Tree))
  deriving Inhabited

def maxNesting : Nat := 127

namespace Tree

mutual
/-- The datum of a tree that nests at most so many levels deep. -/
def value? (levels : Nat) : Tree → Option Value
  | null => some .null
  | bool b => some (.bool b)
  | number n => n.number?.map .number
  | string s => s.map .string
  | array items =>
    match levels with
    | 0 => none
    | levels + 1 => (values? levels items).map .list
  | object members =>
    match levels with
    | 0 => none
    | levels + 1 => (memberValues? levels members).map .ofMembers

def values? (levels : Nat) : List Tree → Option (List Value)
  | [] => some []
  | item :: items =>
    match value? levels item, values? levels items with
    | some v, some vs => some (v :: vs)
    | _, _ => none

/-- The members with their data, in the order of the text. -/
def memberValues? (levels : Nat) : List (Option String × Tree) → Option (List (String × Value))
  | [] => some []
  | (key, item) :: members =>
    match key, value? levels item, memberValues? levels members with
    | some k, some v, some vs => some ((k, v) :: vs)
    | _, _, _ => none
end

end Tree

end Workflow.Json
