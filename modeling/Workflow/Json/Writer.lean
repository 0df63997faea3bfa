import Workflow.Value.Basic

/-!
Data as compact JSON texts, which is also how `str()` and interpolation write all data but strings. In
strings, only the quote, the backslash and the control characters below U+0020 are escaped.
-/

namespace Workflow

namespace Json

/-- The four lower-case hexadecimal digits of a control character. -/
def controlEscape (c : Char) : List Char :=
  ['\\', 'u', '0', '0', (c.toNat / 16).digitChar, (c.toNat % 16).digitChar]

def escapeChar (c : Char) : List Char :=
  if c = '"' then ['\\', '"']
  else if c = '\\' then ['\\', '\\']
  else if c = '\n' then ['\\', 'n']
  else if c = '\r' then ['\\', 'r']
  else if c = '\t' then ['\\', 't']
  else if c = '\x08' then ['\\', 'b']
  else if c = '\x0c' then ['\\', 'f']
  else if c.toNat < 0x20 then controlEscape c
  else [c]

def quoted (s : String) : String :=
  String.ofList ('"' :: (s.toList.flatMap escapeChar ++ ['"']))

end Json

namespace Value

mutual
def json : Value → String
  | null => "null"
  | bool b => if b then "true" else "false"
  | number n => n.json
  | string s => Json.quoted s
  | list items => "[" ++ jsonItems items ++ "]"
  | object members => "\x7b" ++ jsonMembers members ++ "\x7d"

def jsonItems : List Value → String
  | [] => ""
  | [item] => json item
  | item :: items => json item ++ "," ++ jsonItems items

def jsonMembers : List (String × Value) → String
  | [] => ""
  | [(key, value)] => Json.quoted key ++ ":" ++ json value
  | (key, value) :: members =>
    Json.quoted key ++ ":" ++ json value ++ "," ++ jsonMembers members
end

/-- The text that interpolation inserts: strings as they are, all else as JSON. -/
def text : Value → String
  | string s => s
  | value => value.json

end Value

end Workflow
