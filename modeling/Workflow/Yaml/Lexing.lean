import Workflow.Yaml.Property

/-!
Splitting a YAML text into tokens. That a scalar or a collection is a key is only known at the colon
behind it, so the places where a key may have started are kept, and its tokens are put in later.
-/

namespace Workflow.Yaml

/-- A place where a key may have started. -/
structure PossibleKey where
  /-- Must there be a key, by the indentation? -/
  required : Bool
  /-- How many tokens stand before the place. -/
  position : Nat
  mark : Mark

structure Lexing where
  cursor : Cursor
  /-- The tokens so far, the last one first. -/
  reversed : List Token := []
  /-- How many tokens there are. -/
  count : Nat := 0
  /-- How many brackets and braces are open. -/
  flow : Nat := 0
  /-- The column of the innermost block, or -1. -/
  indent : Int := -1
  /-- The columns of the blocks around it. -/
  outer : List Int := []
  /-- May a key start here? -/
  keyAllowed : Bool := true
  /-- The possible key of each open bracket or brace, and of the text around them. -/
  keys : List (Option PossibleKey) := [none]

namespace Lexing

def push (s : Lexing) (t : Token) : Lexing :=
  { s with reversed := t :: s.reversed, count := s.count + 1 }

/-- Puts a token in, behind so many others. -/
def insert (s : Lexing) (position : Nat) (t : Token) : Lexing :=
  let (behind, before) := s.reversed.splitAt (s.count - position)
  { s with reversed := behind ++ t :: before, count := s.count + 1 }

def at_ (s : Lexing) (c : Cursor) : Lexing :=
  { s with cursor := c }

def allowKey (s : Lexing) (allowed : Bool) : Lexing :=
  { s with keyAllowed := allowed }

/-- Ends the blocks that stand to the right of a column. -/
def closeBlocks (s : Lexing) (column : Int) : Lexing :=
  if s.flow != 0 then s
  else
    let open_ := (s.indent :: s.outer).takeWhile (column < ·)
    match (s.indent :: s.outer).drop open_.length with
    | [] => s
    | indent :: outer =>
      { open_.foldl (fun s _ => s.push .blockEnd) s with indent := indent, outer := outer }

/-- Starts a block at a column to the right of the innermost one, behind so many tokens. -/
def openBlock (s : Lexing) (column position : Nat) (t : Token) : Lexing :=
  if s.flow != 0 || column ≤ s.indent then s
  else { s.insert position t with indent := column, outer := s.indent :: s.outer }

/-- Is there a key that is required but has no colon? -/
def isMissing : Option PossibleKey → Bool
  | some k => k.required
  | none => false

/-- Gives up the possible key of the innermost bracket. -/
def dropKey (s : Lexing) : Option Lexing :=
  match s.keys with
  | [] => some s
  | k :: keys => if isMissing k then none else some { s with keys := none :: keys }

def noteKey (s : Lexing) : Option Lexing :=
  if s.keyAllowed then
    let required := s.flow == 0 && s.indent == s.cursor.column
    s.dropKey.map fun s =>
      { s with keys := some ⟨required, s.count, s.cursor.mark⟩ :: s.keys.tail }
  else some s

/-- Is the place too far behind to be the start of a key? A key is on one line, and its colon
follows within 1024 characters. -/
def isStale (m : Mark) (k : PossibleKey) : Bool :=
  k.mark.line < m.line || k.mark.index + 1024 < m.index

/-- Gives up the possible keys that are too far behind. -/
def dropStaleKeys (s : Lexing) : Option Lexing :=
  let isStale (k : Option PossibleKey) : Bool := (k.map (isStale s.cursor.mark)).getD false
  if s.keys.any fun k => isStale k && isMissing k then none
  else some { s with keys := s.keys.map fun k => if isStale k then none else k }

/-- Moves to the next token, over white space, comments and line breaks. Tabs may not indent where a
key may start. -/
def skipGap : Nat → Lexing → Lexing
  | 0, s => s
  | fuel + 1, s =>
    let c := s.cursor
    let c := if c.mark.index == 0 && c.rest.head? == some '\uFEFF' then c.skip 1 else c
    let tabs := s.flow != 0 || !s.keyAllowed
    let c := c.skipWhile fun d => d == ' ' || (tabs && d == '\t')
    let c := if c.rest.head? == some '#' then c.skipWhile (fun d => !isBreak d) else c
    match c.takeBreak with
    | ([], _) => s.at_ c
    | (_, c) => skipGap fuel ((s.at_ c).allowKey (s.keyAllowed || s.flow == 0))

def take (s : Lexing) (t : Token) : Lexing :=
  (s.at_ (s.cursor.skip 1)).push t

/-- Takes a token that starts or ends documents or says something about them. -/
def takeOutside (s : Lexing) (read : Cursor → Option (Token × Cursor)) : Option Lexing :=
  match (s.closeBlocks (-1)).dropKey with
  | none => none
  | some s => (read s.cursor).map fun (t, c) => ((s.at_ c).push t).allowKey false

def takeOpening (s : Lexing) (t : Token) : Option Lexing :=
  s.noteKey.map fun s =>
    ({ s with keys := none :: s.keys, flow := s.flow + 1 }.allowKey true).take t

def takeClosing (s : Lexing) (t : Token) : Option Lexing :=
  s.dropKey.map fun s =>
    let s := if s.flow == 0 then s else { s with keys := s.keys.tail, flow := s.flow - 1 }
    (s.allowKey false).take t

def takeComma (s : Lexing) : Option Lexing :=
  s.dropKey.map fun s => (s.allowKey true).take .flowEntry

def takeDash (s : Lexing) : Option Lexing :=
  if s.flow == 0 && !s.keyAllowed then none
  else
    (s.openBlock s.cursor.column s.count .sequenceStart).dropKey.map fun s =>
      (s.allowKey true).take .blockEntry

def takeQuestion (s : Lexing) : Option Lexing :=
  if s.flow == 0 && !s.keyAllowed then none
  else
    (s.openBlock s.cursor.column s.count .mappingStart).dropKey.map fun s =>
      (s.allowKey (s.flow == 0)).take .key

def takeColon (s : Lexing) : Option Lexing :=
  match s.keys with
  | some k :: keys =>
    let s := (s.insert k.position .key).openBlock k.mark.column k.position .mappingStart
    some (({ s with keys := none :: keys }.allowKey false).take .value)
  | _ =>
    if s.flow == 0 && !s.keyAllowed then none
    else
      let s := s.openBlock s.cursor.column s.count .mappingStart
      some ((s.allowKey (s.flow == 0)).take .value)

/-- Takes a token that a key may start with. -/
def takeStart (s : Lexing) (read : Cursor → Option (Token × Cursor)) : Option Lexing :=
  match s.noteKey with
  | none => none
  | some s => (read s.cursor).map fun (t, c) => ((s.at_ c).push t).allowKey false

def takeBlock (s : Lexing) (style : Style) : Option Lexing :=
  match s.dropKey with
  | none => none
  | some s =>
    (readBlock (style == .literal) s.indent (s.cursor.skip 1)).map fun (text, c) =>
      ((s.at_ c).push (.scalar (String.ofList text) style)).allowKey true

def takeQuoted (s : Lexing) (single : Bool) : Option Lexing :=
  s.takeStart fun c =>
    (readQuoted single (c.rest.length + 1) (c.skip 1)).map fun (text, c) =>
      (.scalar (String.ofList text) .other, c)

/-- Takes a plain scalar. Behind a line break at its end, a key may start. -/
def takePlain (s : Lexing) : Option Lexing :=
  match s.noteKey with
  | none => none
  | some s =>
    let c := s.cursor
    (readPlain (s.flow != 0) (s.indent + 1).toNat (c.rest.length + 1) [] false c).map
      fun (text, broken, c) =>
        ((s.at_ c).push (.scalar (String.ofList text) .plain)).allowKey broken

/-- May a plain scalar start with this character and this text behind it? -/
def startsPlain (flow : Bool) (d : Char) (rest : List Char) : Bool :=
  let signs := ['-', '?', ':', ',', '[', ']', '\x7b', '\x7d', '#', '&', '*', '!', '|', '>', '\'',
    '"', '%', '@', '\x60']
  !(isGap d || signs.contains d) ||
    (d == '-' && !(rest.head?.map isSpace).getD false) ||
    (!flow && (d == '?' || d == ':') && !atGap rest)

/-- Takes the token that starts with this character and this text behind it. -/
def takeToken (s : Lexing) (d : Char) (rest : List Char) : Option Lexing :=
  let c := s.cursor
  let flow := s.flow != 0
  if c.column == 0 && d == '%' then s.takeOutside readDirective
  else if c.atMarker '-' then s.takeOutside fun c => some (.documentStart, c.skip 3)
  else if c.atMarker '.' then s.takeOutside fun c => some (.documentEnd, c.skip 3)
  else if d == '[' then s.takeOpening .openBracket
  else if d == '\x7b' then s.takeOpening .openBrace
  else if d == ']' then s.takeClosing .closeBracket
  else if d == '\x7d' then s.takeClosing .closeBrace
  else if d == ',' then s.takeComma
  else if d == '-' && atGap rest then s.takeDash
  else if d == '?' && (flow || atGap rest) then s.takeQuestion
  else if d == ':' && (flow || atGap rest) then s.takeColon
  else if d == '*' then
    s.takeStart fun c => (readAnchorName (c.skip 1)).map fun (name, c) => (.alias name, c)
  else if d == '&' then
    s.takeStart fun c => (readAnchorName (c.skip 1)).map fun (name, c) => (.anchor name, c)
  else if d == '!' then
    s.takeStart fun c => (readTag flow c).map fun (handle, text, c) => (.tag handle text, c)
  else if d == '|' && !flow then s.takeBlock .literal
  else if d == '>' && !flow then s.takeBlock .other
  else if d == '\'' then s.takeQuoted true
  else if d == '"' then s.takeQuoted false
  else if startsPlain flow d rest then s.takePlain
  else none

/-- Takes the end of the text: all blocks end there. -/
def finish (s : Lexing) : Option (List Token) :=
  (s.closeBlocks (-1)).dropKey.map fun s => s.reversed.reverse

/-- The tokens up to the end of the text. Every round takes a token of at least one character, so
the length of the text is fuel enough. -/
def run : Nat → Lexing → Option (List Token)
  | 0, _ => none
  | fuel + 1, s =>
    let s := skipGap (s.cursor.rest.length + 1) s
    match s.dropStaleKeys with
    | none => none
    | some s =>
      let s := s.closeBlocks s.cursor.column
      match s.cursor.rest with
      | [] => s.finish
      | d :: rest =>
        match s.takeToken d rest with
        | none => none
        | some s => run fuel s

end Lexing

def isPermitted (c : Char) : Bool :=
  c == '\t' || c == '\n' || c == '\r' || c == '\x85' || (0x20 ≤ c.toNat && c.toNat ≤ 0x7E) ||
    (0xA0 ≤ c.toNat && c.toNat ≤ 0xFFFD) || 0x10000 ≤ c.toNat

def tokenize (cs : List Char) : Option (List Token) :=
  if cs.all isPermitted then Lexing.run (cs.length + 1) { cursor := ⟨cs, {}⟩ } else none

end Workflow.Yaml
