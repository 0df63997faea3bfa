import Workflow.Yaml.Scalar
import Workflow.Yaml.Tree

/-!
What scalars stand for. A plain scalar without a tag is null, a boolean, a number or else a string;
a scalar that is not plain is a string; and a tag of the core schema says what a scalar must be.
-/

namespace Workflow.Yaml

def isNull (text : String) : Bool :=
  ["null", "Null", "NULL", "~"].contains text

def bool? (text : String) : Option Bool :=
  if ["true", "True", "TRUE"].contains text then some true
  else if ["false", "False", "FALSE"].contains text then some false
  else none

def digits? (base : Nat) (cs : List Char) : Option Nat :=
  if cs.isEmpty then none
  else
    cs.foldl (fun n c =>
      match n, Json.hexDigit? c with
      | some n, some d => if d < base then some (n * base + d) else none
      | _, _ => none) (some 0)

/-- The number with those digits, which may name their base. -/
def magnitude? : List Char → Option Nat
  | '0' :: 'x' :: cs => digits? 16 cs
  | '0' :: 'o' :: cs => digits? 8 cs
  | '0' :: 'b' :: cs => digits? 2 cs
  | cs => digits? 10 cs

/-- Are these decimal digits with a zero in front? Such a scalar is no number. -/
def isPadded (cs : List Char) : Bool :=
  match cs with
  | '0' :: c :: cs => (c :: cs).all Char.isDigit
  | _ => false

/-- The sign of a numeral (true for a minus, nothing where there is none) and what follows it. -/
def splitSign : List Char → Option Bool × List Char
  | '-' :: cs => (some true, cs)
  | '+' :: cs => (some false, cs)
  | cs => (none, cs)

def whole? (cs : List Char) : Option Int :=
  let (sign, cs) := splitSign cs
  if isPadded cs then none
  else (magnitude? cs).map fun n => if sign == some true then -(n : Int) else n

/-- The number without a minus sign that has this spelling, if 64 bits hold it. -/
def unsigned? (cs : List Char) : Option Nat :=
  if (splitSign cs).1 == some true then none
  else
    match whole? cs with
    | some n => if n < UInt64.size then some n.toNat else none
    | none => none

/-- The double that is written in decimal: digits with at most one point, of which one digit at
least, and perhaps an exponent. -/
def decimal? (cs : List Char) : Option Float :=
  let (whole, cs) := Json.readDigits cs
  let (fraction, cs) :=
    match cs with
    | '.' :: cs => Json.readDigits cs
    | _ => ([], cs)
  let exponent : Option (Bool × List Nat) :=
    match cs with
    | [] => some (false, [])
    | c :: cs =>
      if c == 'e' || c == 'E' then
        match Json.readExponent cs with
        | some (exponent, []) => some exponent
        | _ => none
      else none
  match exponent with
  | none => none
  | some (minus, digits) =>
    if whole.isEmpty && fraction.isEmpty then none
    else
      let written : Int := Json.ofDigits digits
      let power := (if minus then -written else written) - fraction.length
      let x := Decimal.nearest (Json.ofDigits (whole ++ fraction)) power
      if x.isFinite then some x else none

def float? (cs : List Char) : Option Float :=
  let (sign, digits) := splitSign cs
  let magnitude :=
    if [".inf", ".Inf", ".INF"].contains (String.ofList digits) then some (1.0 / 0.0)
    else decimal? digits
  if [".nan", ".NaN", ".NAN"].contains (String.ofList cs) then some (0.0 / 0.0)
  else magnitude.map fun x => if sign == some true then -x else x

/-- What a scalar that must be whole stands for. Of the numbers that 64 bits do not hold, those of
128 bits are refused; beyond them the answer is left to the caller. -/
def wholeValue? (cs : List Char) : Option (Option Value) :=
  match whole? cs with
  | none => none
  | some n =>
    match Whole.ofInt? n with
    | some w => some (some (.ofWhole w))
    | none =>
      if -0x80000000000000000000000000000000 ≤ n && n < 0x100000000000000000000000000000000 then
        some none
      else none

def plainValue (text : String) : Option Value :=
  let cs := text.toList
  if cs.isEmpty || isNull text then some .null
  else
    match bool? text with
    | some b => some (.bool b)
    | none =>
      match wholeValue? cs with
      | some value => value
      | none =>
        if isPadded (splitSign cs).2 then some (.string text)
        else
          match float? cs with
          | some x => some (.ofFloat x)
          | none => some (.string text)

def coreTag (name : String) : String :=
  "tag:yaml.org,2002:" ++ name

/-- Is it a tag of one's own? -/
def isLocal (tag : String) : Bool :=
  tag.startsWith "!"

def taggedValue (tag text : String) : Option Value :=
  if isLocal tag then none
  else if tag == coreTag "bool" then (bool? text).map .bool
  else if tag == coreTag "int" then (wholeValue? text.toList).join
  else if tag == coreTag "float" then (float? text.toList).map .ofFloat
  else if tag == coreTag "null" then if isNull text then some .null else none
  else some (.string text)

/-- How a place that may stay empty takes a scalar. -/
def presence (text : String) (style : Style) : Option String → Presence
  | none => if style == .plain && (text.isEmpty || isNull text) then .absent else .present
  | some tag =>
    if style == .plain && tag == coreTag "null" then if isNull text then .absent else .wrong
    else .present

def Scalar.resolve (text : String) (style : Style) (tag : Option String) : Scalar :=
  { text := text
    value :=
      match tag with
      | some tag => taggedValue tag text
      | none => if style == .plain then plainValue text else some (.string text)
    count :=
      if style == .plain || (style == .literal && tag == some (coreTag "int")) then
        unsigned? text.toList
      else none
    presence := Yaml.presence text style tag
    blank := style == .plain && text.isEmpty }

/-- The scalar that stands where nothing is written. -/
def Scalar.empty : Scalar :=
  .resolve "" .plain none

end Workflow.Yaml
