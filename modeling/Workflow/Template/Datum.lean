import Workflow.Text.Quoted
import Workflow.Value.Basic

/-!
The data of templates. Unlike the data of workflows they know what is undefined, whole numbers of
any size and maps with keys of any kind.
-/

namespace Workflow.Template

inductive Datum where
  /-- What does not exist. Only a choice without an alternative is silently undefined, and prints
  as nothing. -/
  | undefined (silent : Bool)
  | none
  | bool (b : Bool)
  | int (n : Int)
  | float (x : Float)
  | string (s : String)
  | list (items : List Datum)
  /-- The entries are sorted by key. -/
  | map (entries : List (Datum × Datum))
  /-- Anything else: how it is shown, and its attributes. -/
  | object (shown : String) (members : List (String × Datum))
  deriving Inhabited

namespace Datum

def isUndefined : Datum → Bool
  | undefined _ => true
  | _ => false

mutual
def ofValue : Value → Datum
  | .null => none
  | .bool b => bool b
  | .number (.whole n) => int n.val
  | .number (.float x) => float x
  | .string s => string s
  | .list items => list (ofValues items)
  | .object members => map (ofMembers members)

def ofValues : List Value → List Datum
  | [] => []
  | v :: vs => ofValue v :: ofValues vs

def ofMembers : List (String × Value) → List (Datum × Datum)
  | [] => []
  | (k, v) :: ms => (string k, ofValue v) :: ofMembers ms
end

/-- Doubles inside lists and maps are positional from 0.0001 to below 1e16. -/
def innerLayout : Decimal.Layout := ⟨-4, 15, ""⟩

/-- Doubles on their own are always positional. -/
def outerLayout : Decimal.Layout := ⟨-400, 400, ""⟩

mutual
/-- How a datum is shown inside a list or a map: strings are quoted. -/
def shown : Datum → String
  | undefined _ => "undefined"
  | none => "None"
  | bool b => if b then "True" else "False"
  | int n => toString n
  | float x => innerLayout.text x
  | string s => Text.quote s
  | list items => "[" ++ shownItems items ++ "]"
  | map entries => "\x7b" ++ shownEntries entries ++ "\x7d"
  | object shown _ => shown

def shownItems : List Datum → String
  | [] => ""
  | [d] => shown d
  | d :: ds => shown d ++ ", " ++ shownItems ds

def shownEntries : List (Datum × Datum) → String
  | [] => ""
  | [(k, v)] => shown k ++ ": " ++ shown v
  | (k, v) :: es => shown k ++ ": " ++ shown v ++ ", " ++ shownEntries es
end

def text : Datum → String
  | undefined _ => ""
  | string s => s
  | float x => outerLayout.text x
  | d => d.shown

/-- Is the datum true? What is zero, empty, none or undefined is not. -/
def isTrue : Datum → Bool
  | undefined _ => false
  | none => false
  | bool b => b
  | int n => n != 0
  | float x => x != 0.0
  | string s => !s.isEmpty
  | list items => !items.isEmpty
  | map entries => !entries.isEmpty
  | object _ _ => true

/-- The text of a key, if it can be the key of an object. -/
def keyText? : Datum → Option String
  | string s => some s
  | bool b => some (if b then "true" else "false")
  | int n => some (toString n)
  | float x => if x.isFinite then some (Number.jsonLayout.text x) else Option.none
  | _ => Option.none

mutual
/-- The value of a datum; a whole number that 64 bits do not hold has none. -/
def toValue? : Datum → Option Value
  | undefined _ => some .null
  | none => some .null
  | bool b => some (.bool b)
  | int n => (Whole.ofInt? n).map .ofWhole
  | float x => some (.ofFloat x)
  | string s => some (.string s)
  | list items => (toValues? items).map .list
  | map entries => (toMembers? entries).map .ofMembers
  | object shown _ => some (.string shown)

def toValues? : List Datum → Option (List Value)
  | [] => some []
  | d :: ds =>
    match toValue? d, toValues? ds with
    | some v, some vs => some (v :: vs)
    | _, _ => Option.none

/-- The members of an object with these entries. -/
def toMembers? : List (Datum × Datum) → Option (List (String × Value))
  | [] => some []
  | (k, v) :: es =>
    match keyText? k, toValue? v, toMembers? es with
    | some k, some v, some ms => some ((k, v) :: ms)
    | _, _, _ => Option.none
end

end Datum

end Workflow.Template
