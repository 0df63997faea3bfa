import Workflow.Json.Tree

/-!
Reading JSON texts. Each reader takes the characters that are left and answers with what it read
and the characters behind it.
-/

namespace Workflow.Json

def isSpace (c : Char) : Bool :=
  c == ' ' || c == '\n' || c == '\t' || c == '\r'

def skipSpace (cs : List Char) : List Char :=
  cs.dropWhile isSpace

def digit (c : Char) : Nat :=
  c.toNat - '0'.toNat

def readDigits (cs : List Char) : List Nat × List Char :=
  ((cs.takeWhile Char.isDigit).map digit, cs.dropWhile Char.isDigit)

def hexDigit? (c : Char) : Option Nat :=
  if '0' ≤ c && c ≤ '9' then some (c.toNat - '0'.toNat)
  else if 'a' ≤ c && c ≤ 'f' then some (c.toNat - 'a'.toNat + 10)
  else if 'A' ≤ c && c ≤ 'F' then some (c.toNat - 'A'.toNat + 10)
  else none

def hexUnit? (a b c d : Char) : Option Nat :=
  match hexDigit? a, hexDigit? b, hexDigit? c, hexDigit? d with
  | some a, some b, some c, some d => some (((a * 16 + b) * 16 + c) * 16 + d)
  | _, _, _, _ => none

/-- The character that a backslash and this character stand for. -/
def shortEscape? : Char → Option Char
  | '"' => some '"'
  | '\\' => some '\\'
  | '/' => some '/'
  | 'b' => some '\x08'
  | 'f' => some '\x0c'
  | 'n' => some '\n'
  | 'r' => some '\r'
  | 't' => some '\t'
  | _ => none

/-- First half of a pair of units that stands for one character. -/
def isLeading (unit : Nat) : Bool :=
  0xD800 ≤ unit && unit < 0xDC00

/-- Second half of a pair of units. -/
def isTrailing (unit : Nat) : Bool :=
  0xDC00 ≤ unit && unit < 0xE000

/-- Reads a string behind its opening quote. `pending` is a first half that waits for its second
one; a half without a partner leaves the string without a text, but the reading goes on. -/
def readText (pending : Option Nat) (sound : Bool) (text : List Char) :
    List Char → Option (Option String × List Char)
  | [] => none
  | '"' :: rest =>
    some (if sound && pending.isNone then some (String.ofList text.reverse) else none, rest)
  | '\\' :: 'u' :: a :: b :: c :: d :: rest =>
    match hexUnit? a b c d, pending with
    | none, _ => none
    | some unit, some first =>
      if isTrailing unit then
        let code := 0x10000 + (first - 0xD800) * 0x400 + (unit - 0xDC00)
        readText none sound (Char.ofNat code :: text) rest
      else readText (if isLeading unit then some unit else none) false text rest
    | some unit, none =>
      if isLeading unit then readText (some unit) sound text rest
      else if isTrailing unit then readText none false text rest
      else readText none sound (Char.ofNat unit :: text) rest
  | '\\' :: e :: rest =>
    match shortEscape? e with
    | none => none
    | some c => readText none (sound && pending.isNone) (c :: text) rest
  | c :: rest =>
    if c.toNat < 0x20 then none else readText none (sound && pending.isNone) (c :: text) rest

/-- Reads the digits of an exponent behind its letter. -/
def readExponent (cs : List Char) : Option ((Bool × List Nat) × List Char) :=
  let (minus, cs) :=
    match cs with
    | '-' :: rest => (true, rest)
    | '+' :: rest => (false, rest)
    | _ => (false, cs)
  match readDigits cs with
  | ([], _) => none
  | (digits, rest) => some ((minus, digits), rest)

/-- Reads a numeral behind its sign. A zero is followed by no other digit, and a point and an
exponent are followed by at least one. -/
def readNumeral (negative : Bool) (cs : List Char) : Option (Numeral × List Char) :=
  match readDigits cs with
  | ([], _) => none
  | (0 :: _ :: _, _) => none
  | (whole, rest) =>
    let fraction? : Option (Option (List Nat) × List Char) :=
      match rest with
      | '.' :: rest =>
        match readDigits rest with
        | ([], _) => none
        | (digits, rest) => some (some digits, rest)
      | _ => some (none, rest)
    match fraction? with
    | none => none
    | some (fraction, rest) =>
      if rest.head? == some 'e' || rest.head? == some 'E' then
        (readExponent rest.tail).map fun (exponent, rest) =>
          (⟨negative, whole, fraction, some exponent⟩, rest)
      else some (⟨negative, whole, fraction, none⟩, rest)

mutual
def readTree : Nat → List Char → Option (Tree × List Char)
  | 0, _ => none
  | fuel + 1, cs =>
    match skipSpace cs with
    | 'n' :: 'u' :: 'l' :: 'l' :: rest => some (.null, rest)
    | 't' :: 'r' :: 'u' :: 'e' :: rest => some (.bool true, rest)
    | 'f' :: 'a' :: 'l' :: 's' :: 'e' :: rest => some (.bool false, rest)
    | '"' :: rest => (readText none true [] rest).map fun (s, rest) => (.string s, rest)
    | '[' :: rest =>
      match skipSpace rest with
      | ']' :: rest => some (.array [], rest)
      | rest => (readItems fuel rest).map fun (items, rest) => (.array items, rest)
    | '\x7b' :: rest =>
      match skipSpace rest with
      | '\x7d' :: rest => some (.object [], rest)
      | rest => (readMembers fuel rest).map fun (members, rest) => (.object members, rest)
    | '-' :: rest => (readNumeral true rest).map fun (n, rest) => (.number n, rest)
    | rest => (readNumeral false rest).map fun (n, rest) => (.number n, rest)

def readItems : Nat → List Char → Option (List Tree × List Char)
  | 0, _ => none
  | fuel + 1, cs =>
    match readTree fuel cs with
    | none => none
    | some (item, rest) =>
      match skipSpace rest with
      | ',' :: rest => (readItems fuel rest).map fun (items, rest) => (item :: items, rest)
      | ']' :: rest => some ([item], rest)
      | _ => none

def readMembers : Nat → List Char → Option (List (Option String × Tree) × List Char)
  | 0, _ => none
  | fuel + 1, cs =>
    match skipSpace cs with
    | '"' :: rest =>
      match readText none true [] rest with
      | none => none
      | some (key, rest) =>
        match skipSpace rest with
        | ':' :: rest =>
          match readTree fuel rest with
          | none => none
          | some (item, rest) =>
            match skipSpace rest with
            | ',' :: rest =>
              (readMembers fuel rest).map fun (members, rest) => ((key, item) :: members, rest)
            | '\x7d' :: rest => some ([(key, item)], rest)
            | _ => none
        | _ => none
    | _ => none
end

/-- Reads a whole text. Every step down uses up at least one character or stands between two that
do, so the fuel never runs out first. -/
def Tree.ofString? (s : String) : Option Tree :=
  let cs := s.toList
  match readTree (2 * cs.length + 2) cs with
  | some (tree, rest) => if (skipSpace rest).isEmpty then some tree else none
  | none => none

def valueOfString? (s : String) : Option Value :=
  (Tree.ofString? s).bind (Tree.value? maxNesting)

end Workflow.Json
