import Workflow.Text.Quoted
import Workflow.Value.Basic

/-!
The tokens of the expression language and how messages show them.
-/

namespace Workflow.Expression

/-- A token. Numerals are never negative; a minus sign is a token of its own. -/
inductive Token where
  | whole (n : Whole)
  | float (x : Float)
  | string (s : String)
  | name (s : String)
  | dollar
  | dot
  | comma
  | openParen
  | closeParen
  | openBracket
  | closeBracket
  | plus
  | minus
  | star
  | slash
  | equal
  | unequal
  | less
  | atMost
  | greater
  | atLeast
  | kwAnd
  | kwOr
  | kwNot
  | kwIn
  | kwTrue
  | kwFalse
  | kwNull

namespace Token

/-- Doubles in messages are positional from 0.0001 to below 1e16. -/
def floatLayout : Decimal.Layout := ⟨-4, 15, ""⟩

def shown : Token → String
  | whole n => "Int(" ++ toString n.val ++ ")"
  | float x => "Float(" ++ floatLayout.text x ++ ")"
  | string s => "Str(" ++ Text.quote s ++ ")"
  | name s => "Ident(" ++ Text.quote s ++ ")"
  | dollar => "Dollar"
  | dot => "Dot"
  | comma => "Comma"
  | openParen => "LParen"
  | closeParen => "RParen"
  | openBracket => "LBracket"
  | closeBracket => "RBracket"
  | plus => "Plus"
  | minus => "Minus"
  | star => "Star"
  | slash => "Slash"
  | equal => "Eq"
  | unequal => "Ne"
  | less => "Lt"
  | atMost => "Le"
  | greater => "Gt"
  | atLeast => "Ge"
  | kwAnd => "And"
  | kwOr => "Or"
  | kwNot => "Not"
  | kwIn => "In"
  | kwTrue => "True"
  | kwFalse => "False"
  | kwNull => "Null"

/-- The token of a word: a keyword, or else a name. -/
def ofWord : String → Token
  | "and" => kwAnd
  | "or" => kwOr
  | "not" => kwNot
  | "in" => kwIn
  | "true" => kwTrue
  | "false" => kwFalse
  | "null" => kwNull
  | word => name word

def ofChar? : Char → Option Token
  | '=' => some equal
  | '<' => some less
  | '>' => some greater
  | '+' => some plus
  | '-' => some minus
  | '*' => some star
  | '/' => some slash
  | '.' => some dot
  | ',' => some comma
  | '(' => some openParen
  | ')' => some closeParen
  | '[' => some openBracket
  | ']' => some closeBracket
  | '$' => some dollar
  | _ => none

def ofPair? : Char → Char → Option Token
  | '=', '=' => some equal
  | '!', '=' => some unequal
  | '<', '=' => some atMost
  | '>', '=' => some atLeast
  | _, _ => none

end Token

end Workflow.Expression
