import Workflow.Yaml.Cursor
import Workflow.Json.Reader

/-!
Reading scalars: plain words, quoted texts, and blocks of lines. A line break inside of a plain or
quoted scalar folds to a space, and further ones are kept.
-/

namespace Workflow.Yaml

/-- How a scalar is written, as far as its meaning depends on it. -/
inductive Style where
  | plain
  | literal
  /-- Between quotes, or as folded lines. -/
  | other
  deriving DecidableEq, Repr

/-- The gap between two words: its white space up to the first line break, and what the line breaks
stand for. -/
structure Gap where
  spaces : List Char
  breaks : List Char

def Gap.text (g : Gap) : List Char :=
  match g.breaks with
  | [] => g.spaces
  | ['\n'] => [' ']
  | '\n' :: breaks => breaks
  | breaks => breaks

/-- Reads a gap. Behind its first line break, white space is dropped, and tabs left of the column
`floor` are an error. -/
def readGap (floor : Nat) (broken : Bool) (m : Mark) : List Char → Option (Gap × Cursor)
  | [] => some (⟨[], []⟩, ⟨[], m⟩)
  | '\r' :: '\n' :: cs => (readGap floor true (m.nextLine 2) cs).map fun (g, c) =>
      (⟨[], '\n' :: g.breaks⟩, c)
  | d :: cs =>
    if isBreak d then
      (readGap floor true (m.nextLine 1) cs).map fun (g, c) => (⟨[], breakText d :: g.breaks⟩, c)
    else if isSpace d then
      if broken then
        if d == '\t' && m.column < floor then none
        else readGap floor true (m.forward 1) cs
      else
        (readGap floor false (m.forward 1) cs).map fun (g, c) =>
          (if g.breaks.isEmpty then ⟨d :: g.spaces, []⟩ else g, c)
    else some (⟨[], []⟩, ⟨d :: cs, m⟩)

/-- Does the character end a plain scalar inside of brackets? -/
def isFlowSign (c : Char) : Bool :=
  c == ',' || c == '[' || c == ']' || c == '\x7b' || c == '\x7d'

/-- Does the text start with a sign of which no colon may stand right in front? -/
def atFlowSign : List Char → Bool
  | [] => false
  | c :: _ => isFlowSign c || c == '?'

/-- Reads the characters of a plain scalar up to the next gap or to its end. -/
def readWord (flow : Bool) : List Char → Option (List Char × List Char)
  | [] => some ([], [])
  | c :: cs =>
    if isGap c then some ([], c :: cs)
    else if flow && c == ':' && atFlowSign cs then none
    else if (c == ':' && atGap cs) || (flow && isFlowSign c) then some ([], c :: cs)
    else (readWord flow cs).map fun (word, rest) => (c :: word, rest)

/-- Reads a plain scalar: its text, whether it ended behind a line break, and the place there.
`gap` and `broken` tell of the gap before. Outside of brackets, lines left of the column `indent` do
not belong to it. -/
def readPlain (flow : Bool) (indent : Nat) :
    Nat → List Char → Bool → Cursor → Option (List Char × Bool × Cursor)
  | 0, _, _, _ => none
  | fuel + 1, gap, broken, c =>
    if c.atSeparator || c.rest.head? == some '#' then some ([], broken, c)
    else
      match readWord flow c.rest with
      | none => none
      | some (word, rest) =>
        let text := if word.isEmpty then [] else gap ++ word
        let broken := broken && word.isEmpty
        let c : Cursor := ⟨rest, c.mark.forward word.length⟩
        if rest.isEmpty || !atGap rest then some (text, broken, c)
        else
          match readGap indent false c.mark rest with
          | none => none
          | some (g, c) =>
            let broken := !g.breaks.isEmpty
            if !flow && c.column < indent then some (text, broken, c)
            else
              (readPlain flow indent fuel g.text broken c).map fun (more, broken, c) =>
                (text ++ more, broken, c)

def hexNumber? (digits : Nat) (cs : List Char) : Option Nat :=
  let taken := cs.take digits
  if taken.length < digits then none
  else
    taken.foldl (fun n c =>
      match n, Json.hexDigit? c with
      | some n, some d => some (n * 16 + d)
      | _, _ => none) (some 0)

def ofNumber? (n : Nat) : Option Char :=
  if n < 0xD800 || (0xDFFF < n && n < 0x110000) then some (Char.ofNat n) else none

/-- The character that is written with a backslash and the start of this text, and how many
characters of it belong to the escape. -/
def escape? : List Char → Option (Char × Nat)
  | [] => none
  | c :: cs =>
    match c with
    | '0' => some ('\x00', 1)
    | 'a' => some ('\x07', 1)
    | 'b' => some ('\x08', 1)
    | 't' => some ('\t', 1)
    | '\t' => some ('\t', 1)
    | 'n' => some ('\n', 1)
    | 'v' => some ('\x0b', 1)
    | 'f' => some ('\x0c', 1)
    | 'r' => some ('\r', 1)
    | 'e' => some ('\x1b', 1)
    | ' ' => some (' ', 1)
    | '"' => some ('"', 1)
    | '/' => some ('/', 1)
    | '\\' => some ('\\', 1)
    | 'N' => some ('\x85', 1)
    | '_' => some ('\xa0', 1)
    | 'L' => some ('\u2028', 1)
    | 'P' => some ('\u2029', 1)
    | 'x' => ((hexNumber? 2 cs).bind ofNumber?).map (·, 3)
    | 'u' => ((hexNumber? 4 cs).bind ofNumber?).map (·, 5)
    | 'U' => ((hexNumber? 8 cs).bind ofNumber?).map (·, 9)
    | _ => none

/-- A run of characters inside of quotes, without gaps. -/
structure Run where
  text : List Char
  /-- How many characters it is written with. -/
  width : Nat
  rest : List Char

/-- Reads the characters inside of quotes up to the next gap, to a backslash before a line break, or
to the closing quote. -/
def readRun (single : Bool) (cs : List Char) : Option Run :=
  match cs with
  | [] => some ⟨[], 0, []⟩
  | '\'' :: '\'' :: rest =>
    if single then
      (readRun single rest).map fun r => ⟨'\'' :: r.text, r.width + 2, r.rest⟩
    else (readRun single ('\'' :: rest)).map fun r => ⟨'\'' :: r.text, r.width + 1, r.rest⟩
  | c :: rest =>
    if isGap c || c == (if single then '\'' else '"') then some ⟨[], 0, c :: rest⟩
    else if !single && c == '\\' then
      if !rest.isEmpty && atLineEnd rest then some ⟨[], 0, c :: rest⟩
      else
        match escape? rest with
        | none => none
        | some (d, width) =>
          (readRun single (rest.drop width)).map fun r => ⟨d :: r.text, r.width + 1 + width, r.rest⟩
    else (readRun single rest).map fun r => ⟨c :: r.text, r.width + 1, r.rest⟩
termination_by cs.length
decreasing_by all_goals simp only [List.length_cons, List.length_drop]; omega

def readQuoted (single : Bool) : Nat → Cursor → Option (List Char × Cursor)
  | 0, _ => none
  | fuel + 1, c =>
    if c.atSeparator || c.rest.isEmpty then none
    else
      match readRun single c.rest with
      | none => none
      | some r =>
        let c : Cursor := ⟨r.rest, c.mark.forward r.width⟩
        let escaped := r.rest.head? == some '\\'
        let c := if escaped then (c.skip 1).takeBreak.2 else c
        if c.rest.head? == some (if single then '\'' else '"') then some (r.text, c.skip 1)
        else
          match readGap 0 escaped c.mark c.rest with
          | none => none
          | some (g, c) =>
            (readQuoted single fuel c).map fun (more, c) =>
              (r.text ++ (if escaped then g.breaks else g.text) ++ more, c)

/-- Which line breaks at the end of a block belong to its text. -/
inductive Chomping where
  | strip
  | clip
  | keep
  deriving DecidableEq, Repr

/-- Reads what stands behind the sign of a block: which line breaks at the end it keeps, and its
indentation, if it is given. -/
def readBlockHeader (c : Cursor) : Option (Chomping × Option Nat × Cursor) :=
  let chomping (c : Cursor) : Option Chomping × Cursor :=
    match c.rest with
    | '+' :: _ => (some .keep, c.skip 1)
    | '-' :: _ => (some .strip, c.skip 1)
    | _ => (none, c)
  let indentation (c : Cursor) : Option (Option Nat × Cursor) :=
    match c.rest with
    | d :: _ =>
      if d == '0' then none
      else if d.isDigit then some (some (d.toNat - '0'.toNat), c.skip 1)
      else some (none, c)
    | [] => some (none, c)
  let (first, c) := chomping c
  match indentation c with
  | none => none
  | some (indent, c) =>
    let (second, c) := if first.isNone && indent.isSome then chomping c else (none, c)
    let c := c.skipWhile isSpace
    let c := if c.rest.head? == some '#' then c.skipWhile (fun d => !isBreak d) else c
    if atLineEnd c.rest then
      some ((first.orElse fun _ => second).getD .clip, indent, c.takeBreak.2)
    else none

/-- Moves over indentation and empty lines: what the line breaks stand for, the rightmost column
that was reached, and the place there. The indentation 0 is one still to be found. -/
def readIndentation (indent : Nat) (deepest : Nat) (m : Mark) :
    List Char → Option (List Char × Nat × Cursor)
  | [] => some ([], max deepest m.column, ⟨[], m⟩)
  | '\r' :: '\n' :: cs =>
    (readIndentation indent (max deepest m.column) (m.nextLine 2) cs).map fun (breaks, rest) =>
      ('\n' :: breaks, rest)
  | d :: cs =>
    let within := indent == 0 || m.column < indent
    if d == ' ' && within then readIndentation indent deepest (m.forward 1) cs
    else if d == '\t' && within then none
    else if isBreak d then
      (readIndentation indent (max deepest m.column) (m.nextLine 1) cs).map fun (breaks, rest) =>
        (breakText d :: breaks, rest)
    else some ([], max deepest m.column, ⟨d :: cs, m⟩)

/-- The lines of a block that have been read. -/
structure Lines where
  text : List Char
  /-- The line break of the last line. -/
  ending : List Char
  /-- The line breaks of the empty lines behind it. -/
  empty : List Char
  /-- Does the last line start with white space? -/
  spaced : Bool

/-- The lines of a block joined with the next one. In a folded block, one line break between two
lines that start with no white space becomes a space, and of several the first is dropped. -/
def Lines.joint (l : Lines) (literal spaced : Bool) : List Char :=
  if !literal && l.ending == ['\n'] && !l.spaced && !spaced then
    if l.empty.isEmpty then [' '] else l.empty
  else l.ending ++ l.empty

def readLines (literal : Bool) (indent : Nat) : Nat → Lines → Cursor → Option (Lines × Cursor)
  | 0, _, _ => none
  | fuel + 1, lines, c =>
    if c.column == indent && !c.rest.isEmpty then
      let spaced := (c.rest.head?.map isSpace).getD false
      let (line, c) := c.span fun d => !isBreak d
      let (ending, c) := c.takeBreak
      match readIndentation indent 0 c.mark c.rest with
      | none => none
      | some (empty, _, c) =>
        readLines literal indent fuel
          ⟨lines.text ++ lines.joint literal spaced ++ line, ending, empty, spaced⟩ c
    else some (lines, c)

/-- Reads a block behind its sign. `parent` is the column of the collection around it, or -1. -/
def readBlock (literal : Bool) (parent : Int) (c : Cursor) : Option (List Char × Cursor) :=
  match readBlockHeader c with
  | none => none
  | some (chomping, given, c) =>
    let expected := given.map fun n => (max parent 0).toNat + n
    match readIndentation (expected.getD 0) 0 c.mark c.rest with
    | none => none
    | some (empty, deepest, c) =>
      let indent := expected.getD (max deepest (max (parent + 1) 1).toNat)
      match readLines literal indent (c.rest.length + 1) ⟨[], [], empty, false⟩ c with
      | none => none
      | some (lines, c) =>
        let ending := if chomping == .strip then [] else lines.ending
        let empty := if chomping == .keep then lines.empty else []
        some (lines.text ++ ending ++ empty, c)

end Workflow.Yaml
