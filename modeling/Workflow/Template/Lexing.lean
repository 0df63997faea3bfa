import Workflow.Decimal.Nearest
import Workflow.Text.Blank
import Workflow.Text.Search

/-!
The tokens of templates, and splitting a template into them. Markers with a minus sign drop the white
space next to them, and the text between `raw` and `endraw` is taken as it is.
-/

namespace Workflow.Template

/-- A token. Text outside of the markers is one token; inside of them words, literals and signs
are. -/
inductive Token where
  | data (text : String)
  | openPrint
  | closePrint
  | openBlock
  | closeBlock
  | word (name : String)
  | string (text : String)
  | int (n : Nat)
  | float (x : Float)
  | sign (text : String)
  /-- The text cannot be read on from here, because of a bad escape or for another reason. -/
  | damaged (escape : Bool)

def isInnerSpace (c : Char) : Bool :=
  c == ' ' || c == '\t' || c == '\n' || c == '\r' || c == '\x0c'

def isNameStart (c : Char) : Bool :=
  c.isAlpha || c == '_'

def isNamePart (c : Char) : Bool :=
  c.isAlphanum || c == '_'

/-- What a marker does to the white space next to it. -/
def dropsSpace : List Char → Bool
  | '-' :: _ => true
  | _ => false

/-- The text behind the sign that controls white space. -/
def skipControl : List Char → List Char
  | '-' :: cs => cs
  | '+' :: cs => cs
  | cs => cs

/-- Reads the rest of a marker that holds only the word: whether it drops the white space behind
it, and the text there. -/
def readTag (word : String) (cs : List Char) : Option (Bool × List Char) :=
  let cs := (skipControl cs).dropWhile isInnerSpace
  if word.toList.isPrefixOf cs then
    let cs := (cs.drop word.length).dropWhile isInnerSpace
    match skipControl cs with
    | '%' :: '\x7d' :: rest => some (dropsSpace cs, rest)
    | _ => none
  else none

/-- Reads raw text up to its end marker: the text, whether the marker drops the white space behind
it, and what stands there. -/
def readRaw : Nat → List Char → Option (List Char × Bool × List Char)
  | 0, _ => none
  | fuel + 1, cs =>
    match Text.splitAtFirst ['\x7b', '%'] cs with
    | none => none
    | some (before, behind) =>
      match readTag "endraw" behind with
      | some (drops, rest) =>
        some (if dropsSpace behind then Text.trimEnd before else before, drops, rest)
      | none =>
        (readRaw fuel behind).map fun (text, drops, rest) =>
          (before ++ '\x7b' :: '%' :: text, drops, rest)

def hexUnit? (cs : List Char) : Option Nat :=
  if cs.length = 4 && cs.all (fun c => c.isDigit || ('a' ≤ c && c ≤ 'f') || ('A' ≤ c && c ≤ 'F'))
  then
    some (cs.foldl (fun n c =>
      n * 16 +
        (if c.isDigit then c.toNat - '0'.toNat else c.toLower.toNat - 'a'.toNat + 10)) 0)
  else none

/-- The character that a backslash and this character stand for. -/
def escape? : Char → Option Char
  | '"' => some '"'
  | '\\' => some '\\'
  | '/' => some '/'
  | '\'' => some '\''
  | 'b' => some '\x08'
  | 'f' => some '\x0c'
  | 'n' => some '\n'
  | 'r' => some '\r'
  | 't' => some '\t'
  | _ => none

/-- The text that a string stands for. `pending` is the first half of a pair of units. -/
def unescape (pending : Option Nat) : List Char → Option (List Char)
  | [] => if pending.isNone then some [] else none
  | '\\' :: 'u' :: a :: b :: c :: d :: cs =>
    match hexUnit? [a, b, c, d], pending with
    | none, _ => none
    | some unit, none =>
      if 0xD800 ≤ unit && unit < 0xE000 then unescape (some unit) cs
      else (unescape none cs).map (Char.ofNat unit :: ·)
    | some unit, some first =>
      if first < 0xDC00 && 0xDC00 ≤ unit && unit < 0xE000 then
        let code := 0x10000 + (first - 0xD800) * 0x400 + (unit - 0xDC00)
        (unescape none cs).map (Char.ofNat code :: ·)
      else none
  | '\\' :: c :: cs =>
    match escape? c, pending with
    | some c, none => (unescape none cs).map (c :: ·)
    | _, _ => none
  | c :: cs => if pending.isNone then (unescape none cs).map (c :: ·) else none

/-- Reads a string behind its opening quote: the characters as written, and the rest. -/
def readString (quote : Char) : List Char → Option (List Char × List Char)
  | [] => none
  | '\\' :: c :: cs => (readString quote cs).map fun (text, rest) => ('\\' :: c :: text, rest)
  | c :: cs =>
    if c = quote then some ([], cs)
    else (readString quote cs).map fun (text, rest) => (c :: text, rest)

/-- Where in a numeral the reading stands. -/
inductive Place where
  | whole
  | fraction
  | exponentSign
  | exponent
  deriving DecidableEq

/-- The place behind a character of a decimal numeral, if the character belongs to it. -/
def Place.next? (place : Place) (c : Char) : Option Place :=
  if c.isDigit then some (if place = exponentSign then exponent else place)
  else if c = '_' then some place
  else if c = '.' then if place = whole then some fraction else none
  else if c = 'e' || c = 'E' then
    if place = whole || place = fraction then some exponentSign else none
  else if c = '+' || c = '-' then if place = exponentSign then some exponent else none
  else none

def readDecimal (place : Place) : List Char → List Char × Place × List Char
  | [] => ([], place, [])
  | c :: cs =>
    match place.next? c with
    | none => ([], place, c :: cs)
    | some place =>
      let (text, last, rest) := readDecimal place cs
      (c :: text, last, rest)

def ofDigits (base : Nat) (cs : List Char) : Nat :=
  cs.foldl (fun n c =>
    n * base + (if c.isDigit then c.toNat - '0'.toNat else c.toLower.toNat - 'a'.toNat + 10)) 0

def isDigitOf (base : Nat) (c : Char) : Bool :=
  c == '_' || (if c.isDigit then c.toNat - '0'.toNat < base
    else base == 16 && (('a' ≤ c && c ≤ 'f') || ('A' ≤ c && c ≤ 'F')))

/-- The token of a whole numeral, which 128 bits must hold. -/
def wholeToken (base : Nat) (digits : List Char) : Token :=
  let n := ofDigits base digits
  if digits.isEmpty || 0x100000000000000000000000000000000 ≤ n then .damaged false else .int n

/-- The token of a decimal numeral with a point or an exponent; an exponent needs a digit. -/
def floatToken (cs : List Char) : Token :=
  let isMark := fun c : Char => c == 'e' || c == 'E'
  let mantissa := cs.takeWhile fun c => !isMark c
  let exponent := (cs.dropWhile fun c => !isMark c).drop 1
  let whole := mantissa.takeWhile Char.isDigit
  let fraction := (mantissa.dropWhile Char.isDigit).drop 1
  let minus := exponent.head? == some '-'
  let digits := exponent.filter Char.isDigit
  if cs.any isMark && digits.isEmpty then .damaged false
  else
    let scale : Int := if minus then -(ofDigits 10 digits) else ofDigits 10 digits
    .float (Decimal.nearest (ofDigits 10 (whole ++ fraction)) (scale - fraction.length))

/-- Reads a numeral. Underscores may separate digits but not end a numeral. -/
def readNumber (cs : List Char) : Token × List Char :=
  let base : Option Nat :=
    match cs with
    | '0' :: x :: _ =>
      if x = 'b' || x = 'B' then some 2
      else if x = 'o' || x = 'O' then some 8
      else if x = 'x' || x = 'X' then some 16
      else none
    | _ => none
  match base with
  | some base =>
    let digits := (cs.drop 2).takeWhile (isDigitOf base)
    let rest := (cs.drop 2).dropWhile (isDigitOf base)
    (if digits.getLast? == some '_' then .damaged false
      else wholeToken base (digits.filter (· != '_')), rest)
  | none =>
    let (written, last, rest) := readDecimal .whole cs
    let digits := written.filter (· != '_')
    (if written.getLast? == some '_' then .damaged false
      else if last = .whole then wholeToken 10 digits
      else floatToken digits, rest)

def pairSigns : List (List Char) :=
  [['/', '/'], ['*', '*'], ['=', '='], ['!', '='], ['>', '='], ['<', '=']]

def singleSigns : List Char :=
  ['+', '-', '*', '/', '%', '.', ',', ':', '~', '=', '>', '<', '|', '(', ')', '[', ']',
    '\x7b', '\x7d']

/-- How a sign changes the number of open brackets. -/
def bracketChange (c : Char) : Int :=
  if c = '(' || c = '[' || c = '\x7b' then 1
  else if c = ')' || c = ']' || c = '\x7d' then -1
  else 0

/-- Where in a template the reading stands. -/
inductive Mode where
  /-- Outside of the markers; `trimming` drops the white space that follows. -/
  | outside (trimming : Bool)
  /-- Inside of the markers of a block or of a print, with so many open brackets. -/
  | inside (block : Bool) (open_ : Int)

/-- The text up to the next marker, without the white space that the marker drops, and the rest. -/
def readData : List Char → List Char × List Char
  | [] => ([], [])
  | '\x7b' :: c :: cs =>
    if c = '\x7b' || c = '%' || c = '#' then ([], '\x7b' :: c :: cs)
    else
      let (text, rest) := readData (c :: cs)
      ('\x7b' :: text, rest)
  | c :: cs =>
    let (text, rest) := readData cs
    (c :: text, rest)

/-- The end of a marker: whether it drops the white space behind it, and the text there. -/
def readEnd (block : Bool) (cs : List Char) : Option (Bool × List Char) :=
  match block, skipControl cs with
  | true, '%' :: '\x7d' :: rest => some (dropsSpace cs, rest)
  | false, '\x7d' :: '\x7d' :: rest => some (dropsSpace cs, rest)
  | _, _ => none

/-- The tokens of the rest of a template. Every step uses up a character, so the length of the
text is fuel enough. -/
def tokens : Nat → Mode → List Char → List Token
  | 0, _, _ => []
  | fuel + 1, .outside trimming, cs =>
    match if trimming then Text.trimStart cs else cs with
    | [] => []
    | '\x7b' :: '\x7b' :: rest => .openPrint :: tokens fuel (.inside false 0) (skipControl rest)
    | '\x7b' :: '#' :: rest =>
      match Text.splitAtFirst ['#', '\x7d'] rest with
      | none => [.damaged false]
      | some (comment, rest) => tokens fuel (.outside (comment.getLast? == some '-')) rest
    | '\x7b' :: '%' :: rest =>
      match readTag "raw" rest with
      | some (drops, raw) =>
        match readRaw (raw.length + 1) raw with
        | none => [.damaged false]
        | some (text, trimming, rest) =>
          .data (String.ofList (if drops then Text.trimStart text else text)) ::
            tokens fuel (.outside trimming) rest
      | none => .openBlock :: tokens fuel (.inside true 0) (skipControl rest)
    | cs =>
      let (text, rest) := readData cs
      let text := if dropsSpace (rest.drop 2) then Text.trimEnd text else text
      if text.isEmpty then tokens fuel (.outside false) rest
      else .data (String.ofList text) :: tokens fuel (.outside false) rest
  | fuel + 1, .inside block open_, cs =>
    match cs with
    | [] => []
    | c :: rest =>
      match if open_ = 0 then readEnd block cs else none with
      | some (drops, rest) =>
        (if block then .closeBlock else .closePrint) :: tokens fuel (.outside drops) rest
      | none =>
        if isInnerSpace c then tokens fuel (.inside block open_) rest
        else if pairSigns.contains (cs.take 2) then
          .sign (String.ofList (cs.take 2)) :: tokens fuel (.inside block open_) (cs.drop 2)
        else if singleSigns.contains c then
          .sign (String.singleton c) :: tokens fuel (.inside block (open_ + bracketChange c)) rest
        else if c = '\'' || c = '"' then
          match readString c rest with
          | none => [.damaged false]
          | some (written, rest) =>
            match unescape none written with
            | none => [.damaged true]
            | some text =>
              .string (String.ofList text) :: tokens fuel (.inside block open_) rest
        else if c.isDigit then
          match readNumber cs with
          | (.damaged escape, _) => [.damaged escape]
          | (token, rest) => token :: tokens fuel (.inside block open_) rest
        else if isNameStart c then
          .word (String.ofList (c :: rest.takeWhile isNamePart)) ::
            tokens fuel (.inside block open_) (rest.dropWhile isNamePart)
        else [.damaged false]

/-- Drops one line break at the end. -/
def dropLineBreak (cs : List Char) : List Char :=
  let drop := fun (c : Char) (reversed : List Char) =>
    if reversed.head? == some c then reversed.tail else reversed
  (drop '\r' (drop '\n' cs.reverse)).reverse

def tokenize (cs : List Char) : List Token :=
  tokens (cs.length + 1) (.outside false) (dropLineBreak cs)

/-- The tokens of an expression on its own. -/
def tokenizeExpression (cs : List Char) : List Token :=
  tokens (cs.length + 1) (.inside false 0) cs

end Workflow.Template
