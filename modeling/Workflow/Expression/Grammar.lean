import Workflow.Expression.Basic
import Workflow.Expression.Lexing

/-!
The grammar of expressions. From the loosest binding to the tightest: `or`, `and`, `not`, one
comparison, sums, products, the minus sign, and attributes and indices behind a primary. Chains
of one operator group to the left.

A reader has `room`: the number of levels that may still be opened. A bracketed expression opens a
level, and so does every operator of a chain, every sign and every attribute or index; the levels
of a chain stay open up to its end.
-/

namespace Workflow.Expression

/-- Reads something from the tokens that are left and answers with it and the tokens behind it. -/
abbrev Reader (α : Type) := List Token → Except Malformed (α × List Token)

/-- Consumes the one token that may follow. -/
def expectClose (close : Token) (isClose : Token → Bool) : Reader Unit
  | [] => .error (.expectedToken close none)
  | token :: rest =>
    if isClose token then .ok ((), rest) else .error (.expectedToken close (some token))

def isCloseParen : Token → Bool
  | .closeParen => true
  | _ => false

def isCloseBracket : Token → Bool
  | .closeBracket => true
  | _ => false

/-- Reads the operands and operators that follow a first operand. -/
def chain (operator? : Token → Option BinaryOp) (operand : Nat → Reader Expression) :
    Nat → Expression → Reader Expression
  | _, left, [] => .ok (left, [])
  | room, left, token :: rest =>
    match operator? token, room with
    | none, _ => .ok (left, token :: rest)
    | some _, 0 => .error .tooDeep
    | some op, room + 1 =>
      match operand room rest with
      | .error e => .error e
      | .ok (right, rest) => chain operator? operand room (.binary op left right) rest

/-- Reads an operand and the chain that it starts. -/
def chained (operator? : Token → Option BinaryOp) (operand : Nat → Reader Expression)
    (room : Nat) : Reader Expression := fun tokens =>
  match operand room tokens with
  | .error e => .error e
  | .ok (left, rest) => chain operator? operand room left rest

def orOperator? : Token → Option BinaryOp
  | .kwOr => some .or
  | _ => none

def andOperator? : Token → Option BinaryOp
  | .kwAnd => some .and
  | _ => none

def comparisonOperator? : Token → Option BinaryOp
  | .equal => some .equal
  | .unequal => some .unequal
  | .less => some .less
  | .atMost => some .atMost
  | .greater => some .greater
  | .atLeast => some .atLeast
  | .kwIn => some .member
  | _ => none

def sumOperator? : Token → Option BinaryOp
  | .plus => some .add
  | .minus => some .subtract
  | _ => none

def productOperator? : Token → Option BinaryOp
  | .star => some .multiply
  | .slash => some .divide
  | _ => none

section Levels

/- The reader of bracketed expressions, with the room it has. -/
variable (nested : Nat → Reader Expression)

/-- Reads expressions with commas between them up to the closing token. Each of them takes at
least one token, so as many tries as there are tokens are enough. -/
def readItems (room : Nat) (close : Token) (isClose : Token → Bool) :
    Nat → Reader (List Expression)
  | 0, _ => .error .unexpectedEnd
  | tries + 1, tokens =>
    match nested room tokens with
    | .error e => .error e
    | .ok (item, .comma :: rest) =>
      match readItems room close isClose tries rest with
      | .error e => .error e
      | .ok (items, rest) => .ok (item :: items, rest)
    | .ok (item, rest) =>
      match expectClose close isClose rest with
      | .error e => .error e
      | .ok ((), rest) => .ok ([item], rest)

/-- Reads a possibly empty list of expressions behind its opening token. -/
def readList (room : Nat) (close : Token) (isClose : Token → Bool) : Reader (List Expression)
  | [] => readItems nested room close isClose 1 []
  | token :: rest =>
    if isClose token then .ok ([], rest)
    else readItems nested room close isClose (rest.length + 1) (token :: rest)

/-- Reads a literal, a variable, a call, a list, the context or an expression in parentheses. -/
def readPrimary (room : Nat) : Reader Expression
  | [] => .error .unexpectedEnd
  | .whole n :: rest => .ok (.literal (.ofWhole n), rest)
  | .float x :: rest => .ok (.literal (.ofFloat x), rest)
  | .string s :: rest => .ok (.literal (.string s), rest)
  | .kwTrue :: rest => .ok (.literal (.bool true), rest)
  | .kwFalse :: rest => .ok (.literal (.bool false), rest)
  | .kwNull :: rest => .ok (.literal .null, rest)
  | .dollar :: rest => .ok (.root, rest)
  | .openParen :: rest =>
    match nested room rest with
    | .error e => .error e
    | .ok (inner, rest) =>
      match expectClose .closeParen isCloseParen rest with
      | .error e => .error e
      | .ok ((), rest) => .ok (inner, rest)
  | .openBracket :: rest =>
    match readList nested room .closeBracket isCloseBracket rest with
    | .error e => .error e
    | .ok (items, rest) => .ok (.list items, rest)
  | .name name :: .openParen :: rest =>
    match readList nested room .closeParen isCloseParen rest with
    | .error e => .error e
    | .ok (arguments, rest) => .ok (.call name arguments, rest)
  | .name name :: rest => .ok (.var name, rest)
  | token :: _ => .error (.unexpectedToken token)

/-- Reads the attributes and indices behind a primary. -/
def readSuffixes : Nat → Expression → Reader Expression
  | 0, base, tokens =>
    match tokens with
    | .dot :: _ => .error .tooDeep
    | .openBracket :: _ => .error .tooDeep
    | _ => .ok (base, tokens)
  | room + 1, base, tokens =>
    match tokens with
    | .dot :: .name name :: rest => readSuffixes room (.attr base name) rest
    | .dot :: token :: _ => .error (.expectedAttribute (some token))
    | .dot :: [] => .error (.expectedAttribute none)
    | .openBracket :: rest =>
      match nested room rest with
      | .error e => .error e
      | .ok (position, rest) =>
        match expectClose .closeBracket isCloseBracket rest with
        | .error e => .error e
        | .ok ((), rest) => readSuffixes room (.index base position) rest
    | _ => .ok (base, tokens)

/-- Reads a primary with what stands behind it. -/
def readPostfix (room : Nat) : Reader Expression := fun tokens =>
  match readPrimary nested room tokens with
  | .error e => .error e
  | .ok (base, rest) => readSuffixes nested room base rest

def readSigned : Nat → Reader Expression
  | 0, .minus :: _ => .error .tooDeep
  | room + 1, .minus :: rest =>
    match readSigned room rest with
    | .error e => .error e
    | .ok (operand, rest) => .ok (.unary .negate operand, rest)
  | room, tokens => readPostfix nested room tokens

def readProduct : Nat → Reader Expression :=
  chained productOperator? (readSigned nested)

def readSum : Nat → Reader Expression :=
  chained sumOperator? (readProduct nested)

/-- Reads a sum or a comparison of two sums. -/
def readComparison (room : Nat) : Reader Expression := fun tokens =>
  match readSum nested room tokens with
  | .error e => .error e
  | .ok (left, []) => .ok (left, [])
  | .ok (left, token :: rest) =>
    match comparisonOperator? token with
    | none => .ok (left, token :: rest)
    | some op =>
      match readSum nested room rest with
      | .error e => .error e
      | .ok (right, rest) => .ok (.binary op left right, rest)

def readNegated : Nat → Reader Expression
  | 0, .kwNot :: _ => .error .tooDeep
  | room + 1, .kwNot :: rest =>
    match readNegated room rest with
    | .error e => .error e
    | .ok (operand, rest) => .ok (.unary .not operand, rest)
  | room, tokens => readComparison nested room tokens

def readConjunction : Nat → Reader Expression :=
  chained andOperator? (readNegated nested)

/-- Reads a disjunction, which opens a level of its own. -/
def readDisjunction : Nat → Reader Expression
  | 0, _ => .error .tooDeep
  | room + 1, tokens => chained orOperator? (readConjunction nested) room tokens

end Levels

/-- Reads an expression that nests at most so many brackets deep. -/
def readNested : Nat → Nat → Reader Expression
  | 0 => fun _ _ => .error .tooDeep
  | depth + 1 => readDisjunction (readNested depth)

/-- Reads tokens that are one expression from start to end. Brackets open levels, so the bound on
levels bounds them too. -/
def ofTokens (tokens : List Token) : Except Malformed Expression :=
  match tokens with
  | [] => .error .empty
  | _ =>
    match readNested (maxDepth + 1) maxDepth tokens with
    | .error e => .error e
    | .ok (e, []) => .ok e
    | .ok (_, token :: _) => .error (.unexpectedToken token)

def parse (cs : List Char) : Except Malformed Expression :=
  match tokenize cs with
  | .error e => .error e
  | .ok tokens => ofTokens tokens

end Workflow.Expression
