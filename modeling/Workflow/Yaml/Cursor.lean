/-!
A place in a YAML text. The grammar of YAML looks at columns and lines, so readers move over the
text with the place they have reached.
-/

namespace Workflow.Yaml

/-- How many characters and lines stand before a place, and how many characters on its own line. -/
structure Mark where
  index : Nat := 0
  line : Nat := 0
  column : Nat := 0
  deriving DecidableEq, Repr

def Mark.forward (m : Mark) (width : Nat) : Mark :=
  { m with index := m.index + width, column := m.column + width }

/-- The start of the next line, behind a line break of so many characters. -/
def Mark.nextLine (m : Mark) (width : Nat) : Mark :=
  ⟨m.index + width, m.line + 1, 0⟩

/-- What is left of a text, and where it starts. -/
structure Cursor where
  rest : List Char
  mark : Mark := {}

/-- Line breaks: carriage return, line feed, next line, and the two separators. -/
def isBreak (c : Char) : Bool :=
  c == '\n' || c == '\r' || c == '\x85' || c == '\u2028' || c == '\u2029'

def isSpace (c : Char) : Bool :=
  c == ' ' || c == '\t'

def isGap (c : Char) : Bool :=
  isSpace c || isBreak c

/-- Does a word end before this text? -/
def atGap : List Char → Bool
  | [] => true
  | c :: _ => isGap c

/-- Does a line end before this text? -/
def atLineEnd : List Char → Bool
  | [] => true
  | c :: _ => isBreak c

/-- What a line break stands for: the two separators stay, all others are one line feed. -/
def breakText (c : Char) : Char :=
  if c == '\u2028' || c == '\u2029' then c else '\n'

namespace Cursor

def column (c : Cursor) : Nat :=
  c.mark.column

def skip (c : Cursor) (width : Nat) : Cursor :=
  ⟨c.rest.drop width, c.mark.forward width⟩

/-- Splits off the characters of a class that holds no line break. -/
def span (c : Cursor) (p : Char → Bool) : List Char × Cursor :=
  let taken := c.rest.takeWhile p
  (taken, ⟨c.rest.dropWhile p, c.mark.forward taken.length⟩)

/-- Moves over the characters of a class that holds no line break. -/
def skipWhile (c : Cursor) (p : Char → Bool) : Cursor :=
  (c.span p).2

/-- Splits off a line break, if there is one: what it stands for. Carriage return and line feed
together are one line break. -/
def takeBreak (c : Cursor) : List Char × Cursor :=
  match c.rest with
  | '\r' :: '\n' :: rest => (['\n'], ⟨rest, c.mark.nextLine 2⟩)
  | d :: rest => if isBreak d then ([breakText d], ⟨rest, c.mark.nextLine 1⟩) else ([], c)
  | [] => ([], c)

/-- Does a line start here that holds the mark three times and then a gap? -/
def atMarker (c : Cursor) (sign : Char) : Bool :=
  c.column == 0 && [sign, sign, sign].isPrefixOf c.rest && atGap (c.rest.drop 3)

/-- Does a line start here that separates documents? -/
def atSeparator (c : Cursor) : Bool :=
  c.atMarker '-' || c.atMarker '.'

end Cursor

end Workflow.Yaml
