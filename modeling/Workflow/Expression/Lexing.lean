import Workflow.Expression.Malformed
import Workflow.Text.Alphabetic
import Workflow.Text.Blank
import Workflow.Text.Numeric

/-!
Splitting the text of an expression into tokens. White space separates tokens and is dropped;
every other character belongs to exactly one token.
-/

namespace Workflow.Expression

open Text

def isWordStart (c : Char) : Bool :=
  isAlphabetic c || c == '_'

def isWordPart (c : Char) : Bool :=
  isAlphabetic c || isNumeric c || c == '_'

def decimal (digits : List Char) : Nat :=
  digits.foldl (fun n c => n * 10 + (c.toNat - '0'.toNat)) 0

/-- The token of a whole numeral, unless it exceeds a signed word of 64 bits. -/
def wholeToken (digits : List Char) : Except Malformed Token :=
  if h : decimal digits < 0x8000000000000000 then .ok (.whole ⟨decimal digits, by omega⟩)
  else .error (.numberTooLarge (String.ofList digits))

def floatToken (whole fraction : List Char) : Token :=
  .float (Decimal.nearest (decimal (whole ++ fraction)) (-fraction.length))

/-- The character that a backslash and this character stand for. -/
def unescape : Char → Char
  | 'n' => '\n'
  | 't' => '\t'
  | c => c

/-- Reads a string behind its opening quote. -/
def readString (quote : Char) : List Char → Option (List Char × List Char)
  | [] => none
  | '\\' :: c :: cs => (readString quote cs).map fun (text, rest) => (unescape c :: text, rest)
  | c :: cs =>
    if c = quote then some ([], cs)
    else (readString quote cs).map fun (text, rest) => (c :: text, rest)

theorem readString_length_lt {quote : Char} {cs text rest : List Char}
    (h : readString quote cs = some (text, rest)) : rest.length < cs.length := by
  fun_induction readString quote cs generalizing text with
  | case1 => simp at h
  | case2 c cs ih =>
    obtain ⟨⟨t, r⟩, hr, he⟩ := Option.map_eq_some_iff.1 h
    simp only [Prod.mk.injEq] at he
    have := ih (he.2 ▸ hr)
    simp only [List.length_cons]
    omega
  | case3 cs _ =>
    simp only [Option.some.injEq, Prod.mk.injEq] at h
    simp [h.2]
  | case4 c cs _ _ ih =>
    obtain ⟨⟨t, r⟩, hr, he⟩ := Option.map_eq_some_iff.1 h
    simp only [Prod.mk.injEq] at he
    have := ih (he.2 ▸ hr)
    simp only [List.length_cons]
    omega

theorem length_dropWhile_le (p : Char → Bool) (cs : List Char) :
    (cs.dropWhile p).length ≤ cs.length :=
  (List.dropWhile_suffix p).length_le

/-- A token and the characters behind it, which are fewer than there were. -/
abbrev Lexeme (length : Nat) := Token × { rest : List Char // rest.length ≤ length }

/-- Reads a numeral that starts with the digit `c`. A point belongs to it only before a digit. -/
def readNumber (c : Char) (cs : List Char) : Except Malformed (Lexeme cs.length) :=
  let digits := c :: cs.takeWhile Char.isDigit
  match h : cs.dropWhile Char.isDigit with
  | '.' :: d :: rest =>
    if d.isDigit then
      .ok (floatToken digits (d :: rest.takeWhile Char.isDigit),
        ⟨rest.dropWhile Char.isDigit, by
          have h₁ := length_dropWhile_le Char.isDigit cs
          have h₂ := length_dropWhile_le Char.isDigit rest
          simp only [h, List.length_cons] at h₁
          omega⟩)
    else (wholeToken digits).map fun token =>
      (token, ⟨'.' :: d :: rest, h ▸ length_dropWhile_le Char.isDigit cs⟩)
  | rest => (wholeToken digits).map fun token =>
      (token, ⟨rest, h ▸ length_dropWhile_le Char.isDigit cs⟩)

/-- Reads an operator or a bracket that starts with `c`, the longer one where two fit. -/
def readSymbol (c : Char) (cs : List Char) : Option (Lexeme cs.length) :=
  match cs with
  | d :: rest =>
    match Token.ofPair? c d with
    | some token => some (token, ⟨rest, by simp⟩)
    | none => (Token.ofChar? c).map fun token => (token, ⟨d :: rest, by simp⟩)
  | [] => (Token.ofChar? c).map fun token => (token, ⟨[], by simp⟩)

/-- Reads the token that starts with `c`, which is no white space. Positions count from the start of
a text that is `total` characters long. -/
def readToken (total : Nat) (c : Char) (cs : List Char) :
    Except Malformed (Lexeme cs.length) :=
  if c.isDigit then readNumber c cs
  else if c = '\'' ∨ c = '"' then
    match h : readString c cs with
    | none => .error .unterminatedString
    | some (text, rest) =>
      .ok (.string (String.ofList text), ⟨rest, Nat.le_of_lt (readString_length_lt h)⟩)
  else if isWordStart c then
    .ok (Token.ofWord (String.ofList (c :: cs.takeWhile isWordPart)),
      ⟨cs.dropWhile isWordPart, length_dropWhile_le isWordPart cs⟩)
  else
    match readSymbol c cs with
    | none => .error (.unexpectedCharacter c (total - (cs.length + 1)))
    | some lexeme => .ok lexeme

/-- The tokens of the end of a text that is `total` characters long. -/
def tokensFrom (total : Nat) : List Char → Except Malformed (List Token)
  | [] => .ok []
  | c :: cs =>
    if isBlank c then tokensFrom total cs
    else
      match readToken total c cs with
      | .error e => .error e
      | .ok (token, ⟨rest, _⟩) => (tokensFrom total rest).map (token :: ·)
termination_by cs => cs.length

def tokenize (cs : List Char) : Except Malformed (List Token) :=
  tokensFrom cs.length cs

end Workflow.Expression
