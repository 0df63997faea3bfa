import Workflow.Yaml.Token

/-!
Reading anchors, aliases, tags and directives.
-/

namespace Workflow.Yaml

def isNameChar (c : Char) : Bool :=
  c.isAlphanum || c == '_' || c == '-'

def readAnchorName (c : Cursor) : Option (String × Cursor) :=
  let (name, c) := c.span isNameChar
  let ended :=
    match c.rest with
    | [] => true
    | d :: _ => isGap d || ['?', ':', ',', ']', '\x7d', '%', '@', '\x60'].contains d
  if name.isEmpty || !ended then none else some (String.ofList name, c)

/-- The other characters of tags. Between angle brackets they include the signs of lists. -/
def isTagChar (bracketed : Bool) (c : Char) : Bool :=
  isNameChar c ||
    [';', '/', '?', ':', '@', '&', '=', '+', '$', '.', '!', '~', '*', '\'', '(', ')'].contains c ||
    (bracketed && (c == ',' || c == '[' || c == ']'))

/-- Reads a byte that is written as a percent sign and two digits. -/
def readByte : List Char → Option (Nat × List Char)
  | '%' :: a :: b :: rest => (hexNumber? 2 [a, b]).map (·, rest)
  | _ => none

/-- Reads so many bytes that carry on a character of which a number is known. -/
def readTail : Nat → Nat → List Char → Option (Nat × List Char)
  | 0, n, cs => some (n, cs)
  | more + 1, n, cs =>
    match readByte cs with
    | none => none
    | some (byte, rest) => if byte / 64 == 2 then readTail more (n * 64 + byte % 64) rest else none

/-- Reads a character that is written as its bytes: it, and how many bytes there were. -/
def readEscaped (cs : List Char) : Option (Char × Nat) :=
  match readByte cs with
  | none => none
  | some (byte, rest) =>
    if byte < 0x80 then some (Char.ofNat byte, 1)
    else if byte < 0xC0 then none
    else if byte < 0xE0 then (readTail 1 (byte % 32) rest).map fun (n, _) => (Char.ofNat n, 2)
    else if byte < 0xF0 then (readTail 2 (byte % 16) rest).map fun (n, _) => (Char.ofNat n, 3)
    else if byte < 0xF8 then (readTail 3 (byte % 8) rest).map fun (n, _) => (Char.ofNat n, 4)
    else none

/-- Reads the characters of a tag: its text, and how many characters it is written with. -/
def readTagText (bracketed : Bool) (cs : List Char) : Option (List Char × Nat) :=
  match cs with
  | [] => some ([], 0)
  | '%' :: rest =>
    match readEscaped ('%' :: rest) with
    | none => none
    | some (d, bytes) =>
      (readTagText bracketed (rest.drop (3 * bytes - 1))).map fun (text, width) =>
        (d :: text, width + 3 * bytes)
  | c :: rest =>
    if isTagChar bracketed c then
      (readTagText bracketed rest).map fun (text, width) => (c :: text, width + 1)
    else some ([], 0)
termination_by cs.length
decreasing_by all_goals simp only [List.length_cons, List.length_drop]; omega

/-- Reads a short form of tags: its characters with the signs around them. -/
def readHandle (c : Cursor) : List Char × Cursor :=
  let (name, c) := (c.skip 1).span isNameChar
  if c.rest.head? == some '!' then ('!' :: name ++ ['!'], c.skip 1) else ('!' :: name, c)

/-- Reads a tag from its sign on: its short form, and the rest of it. -/
def readTag (flow : Bool) (c : Cursor) : Option (String × String × Cursor) :=
  let parts : Option (List Char × List Char × Cursor) :=
    if (c.rest.drop 1).head? == some '<' then
      let c := c.skip 2
      match readTagText true c.rest with
      | none => none
      | some (text, width) =>
        let c := c.skip width
        if text.isEmpty || c.rest.head? != some '>' then none else some ([], text, c.skip 1)
    else
      let (handle, c) := readHandle c
      match readTagText false c.rest with
      | none => none
      | some (text, width) =>
        let c := c.skip width
        if 1 < handle.length && handle.getLast? == some '!' then
          if text.isEmpty then none else some (handle, text, c)
        else
          let text := handle.drop 1 ++ text
          if text.isEmpty then some ([], ['!'], c) else some (['!'], text, c)
  match parts with
  | none => none
  | some (handle, text, c) =>
    if atGap c.rest || (flow && c.rest.head? == some ',') then
      some (String.ofList handle, String.ofList text, c)
    else none

/-- The number that at most nine digits stand for. -/
def readVersionNumber (c : Cursor) : Option (Nat × Cursor) :=
  let (digits, c) := c.span Char.isDigit
  if digits.isEmpty || 9 < digits.length then none
  else some (Json.ofDigits (digits.map Json.digit), c)

/-- Reads what follows the name of a directive on its line. -/
def readDirectiveBody (name : String) (c : Cursor) : Option (Token × Cursor) :=
  if name == "YAML" then
    match readVersionNumber (c.skipWhile isSpace) with
    | none => none
    | some (major, c) =>
      if c.rest.head? == some '.' then
        (readVersionNumber (c.skip 1)).map fun (minor, c) => (.version major minor, c)
      else none
  else if name == "TAG" then
    let c := c.skipWhile isSpace
    if c.rest.head? != some '!' then none
    else
      let (handle, c) := readHandle c
      if handle.getLast? != some '!' || !(c.rest.head?.map isSpace).getD false then none
      else
        let c := c.skipWhile isSpace
        match readTagText true c.rest with
        | none => none
        | some (text, width) =>
          let c := c.skip width
          if text.isEmpty || !atGap c.rest then none
          else some (.handle (String.ofList handle) (String.ofList text), c)
  else none

/-- Reads a directive from its sign on, with its line. -/
def readDirective (c : Cursor) : Option (Token × Cursor) :=
  let (name, c) := (c.skip 1).span isNameChar
  if name.isEmpty || !atGap c.rest then none
  else
    match readDirectiveBody (String.ofList name) c with
    | none => none
    | some (token, c) =>
      let c := c.skipWhile isSpace
      let c := if c.rest.head? == some '#' then c.skipWhile (fun d => !isBreak d) else c
      if atLineEnd c.rest then some (token, c.takeBreak.2) else none

end Workflow.Yaml
