import Workflow.Template.Operators
import Workflow.Text.Blank
import Workflow.Text.Case

/-!
The filters, tests and functions of templates.
-/

namespace Workflow.Template

namespace Datum

/-- A datum where a text is asked for; all but the undefined have one. -/
def asText : Datum → Except Fault (List Char)
  | undefined _ => .error .undefined
  | d => .ok d.text.toList

/-- An optional text: `none` stands for its absence. -/
def asOptionalText : Option Datum → Except Fault (Option (List Char))
  | Option.none => .ok Option.none
  | some none => .ok Option.none
  | some d => d.asText.map some

def ofChars (cs : List Char) : Datum :=
  string (String.ofList cs)

/-- Upper case at the start of every word and lower case in the rest. Words end at white space and
at ASCII punctuation. -/
def titleFrom (atStart : Bool) : List Char → List Char
  | [] => []
  | c :: cs =>
    let isPunctuation := c.toNat < 0x80 && 0x20 < c.toNat && c.toNat != 0x7F && !c.isAlphanum
    if isPunctuation || Text.isBlank c then c :: titleFrom true cs
    else if atStart then Text.upperChar c ++ titleFrom false cs
    else Text.lowerChar c ++ titleFrom false cs

/-- Upper case for the first character and lower case for the others. -/
def capitalized : List Char → List Char
  | [] => []
  | c :: cs => Text.upperChar c ++ Text.lower cs

def trimmedOf (dropped cs : List Char) : List Char :=
  ((cs.dropWhile dropped.contains).reverse.dropWhile dropped.contains).reverse

/-- How many items, entries or characters there are. -/
def size? : Datum → Option Nat
  | string s => some s.length
  | list items => some items.length
  | map entries => some entries.length
  | _ => Option.none

/-- What is there, or else something undefined. -/
def orUndefined : Option Datum → Datum
  | some d => d
  | Option.none => undefined false

def first : Datum → Except Fault Datum
  | string s => .ok (orUndefined (s.toList.head?.map fun c => ofChars [c]))
  | list items => .ok (orUndefined items.head?)
  | map entries => .ok (orUndefined (entries.head?.map Prod.fst))
  | _ => .error .mismatch

def last : Datum → Except Fault Datum
  | string s => .ok (orUndefined (s.toList.getLast?.map fun c => ofChars [c]))
  | list items => .ok (orUndefined items.getLast?)
  | _ => .error .mismatch

/-- Joins texts. The separator stands only behind something that is not empty. -/
def joinTexts (separator : List Char) (texts : List (List Char)) : List Char :=
  texts.foldl (fun joined text => if joined.isEmpty then text else joined ++ separator ++ text) []

def join (separator : List Char) (d : Datum) : Except Fault Datum :=
  if d.isUndefined then .ok (string "")
  else
    match d.elements with
    | .ok items => .ok (ofChars (joinTexts separator (items.map fun item => item.text.toList)))
    | .error _ => .error .mismatch

/-- Replaces every occurrence of a text; the empty text occurs around every character. -/
def replaceAll (pattern replacement : List Char) : Nat → List Char → List Char
  | 0, cs => cs
  | fuel + 1, cs =>
    if pattern.isEmpty then
      match cs with
      | [] => replacement
      | c :: cs => replacement ++ c :: replaceAll pattern replacement fuel cs
    else
      match Text.splitAtFirst pattern cs with
      | Option.none => cs
      | some (before, behind) =>
        before ++ replacement ++ replaceAll pattern replacement fuel behind

/-- A datum, or a substitute if it is undefined, or with `lax` if it is not true. The substitute
`none` stands for the empty text. -/
def orDefault (d other : Datum) (lax : Bool) : Datum :=
  if d.isUndefined || (lax && !d.isTrue) then
    match other with
    | none => string ""
    | other => other
  else d

def defaulted (d : Datum) (arguments : List Datum) : Except Fault Datum :=
  if arguments.any isUndefined then .error .undefined
  else
    match arguments with
    | [] => .ok (d.orDefault none false)
    | [other] => .ok (d.orDefault other false)
    | [other, none] => .ok (d.orDefault other false)
    | [other, bool lax] => .ok (d.orDefault other lax)
    | _ => .error .mismatch

end Datum

open Datum

def applyFilter (name : String) (d : Datum) (arguments : List Datum) : Except Fault Datum :=
  match name, arguments with
  | "upper", [] => d.asText.map fun cs => ofChars (Text.upper cs)
  | "lower", [] => d.asText.map fun cs => ofChars (Text.lower cs)
  | "title", [] => d.asText.map fun cs => ofChars (titleFrom true cs)
  | "capitalize", [] => d.asText.map fun cs => ofChars (capitalized cs)
  | "trim", [] => d.asText.map fun cs => ofChars (Text.trim cs)
  | "trim", [dropped] => do
    let cs ← d.asText
    match ← asOptionalText (some dropped) with
    | some dropped => .ok (ofChars (trimmedOf dropped cs))
    | Option.none => .ok (ofChars (Text.trim cs))
  | "length", [] => d.size?.elim (.error .mismatch) fun n => .ok (.int n)
  | "count", [] => d.size?.elim (.error .mismatch) fun n => .ok (.int n)
  | "first", [] => d.first
  | "last", [] => d.last
  | "join", [] => d.join []
  | "join", [separator] => do
    let separator ← asOptionalText (some separator)
    d.join (separator.getD [])
  | "replace", [pattern, replacement] => do
    let cs ← d.asText
    let pattern ← pattern.asText
    let replacement ← replacement.asText
    .ok (ofChars (replaceAll pattern replacement (cs.length + 1) cs))
  | "default", arguments => d.defaulted arguments
  | "d", arguments => d.defaulted arguments
  | _, _ =>
    if ["upper", "lower", "title", "capitalize", "trim", "length", "count", "first", "last", "join",
        "replace"].contains name then .error .mismatch
    else .error (.unknown ("filter " ++ name))

def applyTest (name : String) (d : Datum) (arguments : List Datum) : Except Fault Bool :=
  match name, arguments with
  | "defined", [] => .ok (!d.isUndefined)
  | "undefined", [] => .ok d.isUndefined
  | "none", [] =>
    match d with
    | .none => .ok true
    | _ => .ok false
  | _, _ =>
    if ["defined", "undefined", "none"].contains name then .error .mismatch
    else .error (.unknown ("test " ++ name))

/-- The greatest number of items that `range` gives. -/
def maxRange : Nat := 100000

/-- The numbers from `lower` up to, but not including, `upper`, so many apart. -/
def rangeOf (lower upper : Int) (step : Nat) : Except Fault Datum :=
  let count := ((upper - lower).toNat + step - 1) / step
  if maxRange < count then .error .mismatch
  else .ok (.list ((List.range count).map fun (i : Nat) => .int (lower + i * step)))

/-- A datum as a whole number that is not negative. -/
def asIndex (d : Datum) : Except Fault Int :=
  if d.isUndefined then .error .undefined
  else
    match d.position? with
    | some i => if i < 0 then .error .mismatch else .ok i
    | Option.none => .error .mismatch

def range : List Datum → Except Fault Datum
  | [upper] => do rangeOf 0 (← asIndex upper) 1
  | [lower, upper] => do rangeOf (← asIndex lower) (← asIndex upper) 1
  | [lower, upper, step] => do
    let step ← asIndex step
    if step = 0 then .error .mismatch
    else rangeOf (← asIndex lower) (← asIndex upper) step.toNat
  | _ => .error .mismatch

end Workflow.Template
