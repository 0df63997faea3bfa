import Workflow.Template.Basic
import Workflow.Template.Lexing

/-!
The grammar of templates. From the loosest binding to the tightest: choices, `or`, `and`, `not`,
comparisons, `+` and `-`, `~`, the products, `**`, the minus sign on a primary, then what stands
behind it: attributes, items and calls first, filters and tests last.

Expressions, primaries and statements each open a level, and `room` is the number of levels that
may still be opened. `fuel` only has to exceed the number of nested expressions and statements.
-/

namespace Workflow.Template

def maxDepth : Nat := 150

/-- Reads something from the tokens that are left and answers with it and the tokens behind it. -/
abbrev Reader (α : Type) := List Token → Except Fault (α × List Token)

/-- The reading stops in front of these tokens. -/
def stop {α : Type} : List Token → Except Fault α
  | .damaged true :: _ => .error .badEscape
  | _ => .error .malformed

def expectSign (sign : String) : Reader Unit
  | .sign s :: rest => if s = sign then .ok ((), rest) else .error .malformed
  | tokens => stop tokens

def expectName : Reader String
  | .word s :: rest => .ok (s, rest)
  | tokens => stop tokens

def expectWord (word : String) : Reader Unit
  | .word s :: rest => if s = word then .ok ((), rest) else .error .malformed
  | tokens => stop tokens

def expectClosePrint : Reader Unit
  | .closePrint :: rest => .ok ((), rest)
  | tokens => stop tokens

def expectCloseBlock : Reader Unit
  | .closeBlock :: rest => .ok ((), rest)
  | tokens => stop tokens

def startsWithSign (sign : String) : List Token → Bool
  | .sign s :: _ => s == sign
  | _ => false

/-- Reads the operands and operators that follow a first operand. -/
def chainTail (operator? : Token → Option (Expr → Expr → Expr)) (operand : Reader Expr) :
    Nat → Expr → Reader Expr
  | 0, left, tokens => .ok (left, tokens)
  | _ + 1, left, [] => .ok (left, [])
  | fuel + 1, left, token :: rest =>
    match operator? token with
    | none => .ok (left, token :: rest)
    | some combine => do
      let (right, rest) ← operand rest
      chainTail operator? operand fuel (combine left right) rest

/-- Reads a chain of operands, grouped to the left. -/
def chain (operator? : Token → Option (Expr → Expr → Expr)) (operand : Reader Expr) :
    Reader Expr := fun tokens => do
  let (left, rest) ← operand tokens
  chainTail operator? operand rest.length left rest

/-- The operator of a sign among the given ones. -/
def signOperator (signs : List (String × Operator)) : Token → Option (Expr → Expr → Expr)
  | .sign s => (signs.lookup s).map .binary
  | _ => none

def comparisonSigns : List (String × Operator) :=
  [("==", .equal), ("!=", .unequal), ("<", .less), ("<=", .atMost), (">", .greater),
    (">=", .atLeast)]

def sumSigns : List (String × Operator) := [("+", .add), ("-", .subtract)]

def concatSigns : List (String × Operator) := [("~", .concat)]

def productSigns : List (String × Operator) :=
  [("*", .multiply), ("/", .divide), ("//", .floorDivide), ("%", .modulo)]

def powerSigns : List (String × Operator) := [("**", .power)]

def wordOperator (word : String) (combine : Expr → Expr → Expr) :
    Token → Option (Expr → Expr → Expr)
  | .word s => if s = word then some combine else none
  | _ => none

section Levels

/- The reader of the expressions inside this one, with the room that is left to them. Only choices
count as a level, so `false` asks for an expression that is no choice. -/
variable (inner : Bool → Nat → Reader Expr) (room : Nat)

/-- Reads items with commas between them, the last comma being optional, up to the closing sign. -/
def readItems {α : Type} (item : Reader α) (close : String) : Nat → Reader (List α)
  | 0, tokens => stop tokens
  | fuel + 1, tokens =>
    if startsWithSign close tokens then .ok ([], tokens.tail)
    else do
      let (first, rest) ← item tokens
      if startsWithSign close rest then .ok ([first], rest.tail)
      else
        let ((), rest) ← expectSign "," rest
        let (others, rest) ← readItems item close fuel rest
        .ok (first :: others, rest)

def readEntry (room : Nat) : Reader (Expr × Expr) := fun tokens => do
  let (key, rest) ← inner true room tokens
  let ((), rest) ← expectSign ":" rest
  let (value, rest) ← inner true room rest
  .ok ((key, value), rest)

/-- Reads what follows an opening parenthesis: an expression, or a list if there is a comma. -/
def readParenthesis (room : Nat) (tokens : List Token) : Except Fault (Expr × List Token) :=
  if startsWithSign ")" tokens then .ok (.list [], tokens.tail)
  else do
    let (first, rest) ← inner true room tokens
    if startsWithSign "," rest then
      let (others, rest) ← readItems (inner true room) ")" rest.length rest.tail
      .ok (.list (first :: others), rest)
    else
      let ((), rest) ← expectSign ")" rest
      .ok (first, rest)

def wordExpr : String → Expr
  | "true" => .literal (.bool true)
  | "True" => .literal (.bool true)
  | "false" => .literal (.bool false)
  | "False" => .literal (.bool false)
  | "none" => .literal .none
  | "None" => .literal .none
  | s => .name s

/-- Reads a literal, a name, a list, a map or an expression in parentheses. -/
def readPrimary (tokens : List Token) : Except Fault (Expr × List Token) :=
  match room with
  | 0 => .error .malformed
  | room + 1 =>
    match tokens with
    | .word s :: rest => .ok (wordExpr s, rest)
    | .string s :: rest => .ok (.literal (.string s), rest)
    | .int n :: rest => .ok (.literal (.int n), rest)
    | .float x :: rest => .ok (.literal (.float x), rest)
    | .sign "(" :: rest => readParenthesis inner room rest
    | .sign "[" :: rest => do
      let (items, rest) ← readItems (inner true room) "]" tokens.length rest
      .ok (.list items, rest)
    | .sign "\x7b" :: rest => do
      let (entries, rest) ← readItems (readEntry inner room) "\x7d" tokens.length rest
      .ok (.map entries, rest)
    | tokens => stop tokens

/-- Reads one argument: an expression, or a name with a value. -/
def readArgument : Reader (Option String × Expr) := fun tokens => do
  let (e, rest) ← inner true room tokens
  match e, rest with
  | .name s, .sign "=" :: rest =>
    let (value, rest) ← inner false room rest
    .ok ((some s, value), rest)
  | e, rest => .ok ((none, e), rest)

def namedLast : List (Option String × Expr) → Bool
  | [] => true
  | (none, _) :: rest => namedLast rest
  | (some _, _) :: rest => rest.all fun a => a.1.isSome

def readArguments : Reader (List (Option String × Expr)) := fun tokens => do
  let (arguments, rest) ← readItems (readArgument inner room) ")" (tokens.length + 1) tokens
  if namedLast arguments then .ok (arguments, rest) else .error .malformed

/-- Reads attributes, items and calls. -/
def readSuffixes : Nat → Expr → Reader Expr
  | 0, base, tokens => .ok (base, tokens)
  | fuel + 1, base, tokens =>
    match tokens with
    | .sign "." :: rest => do
      let (name, rest) ← expectName rest
      readSuffixes fuel (.attr base name) rest
    | .sign "[" :: rest => do
      let (key, rest) ← inner true room rest
      let ((), rest) ← expectSign "]" rest
      readSuffixes fuel (.item base key) rest
    | .sign "(" :: rest => do
      let (arguments, rest) ← readArguments inner room rest
      readSuffixes fuel (.call base arguments) rest
    | _ => .ok (base, tokens)

def readSigned : List Token → Except Fault (Expr × List Token)
  | .sign "-" :: rest => do
    let (operand, rest) ← readSigned rest
    .ok (.negate operand, rest)
  | tokens => readPrimary inner room tokens

/-- Reads a signed primary with its attributes, items and calls. -/
def readPostfix : Reader Expr := fun tokens => do
  let (base, rest) ← readSigned inner room tokens
  readSuffixes inner room rest.length base rest

/-- May the token start the argument that a test takes without parentheses? -/
def startsArgument : List Token → Bool
  | .word s :: _ => !(["and", "or", "else", "is"].contains s)
  | .string _ :: _ => true
  | .int _ :: _ => true
  | .float _ :: _ => true
  | .sign s :: _ => ["+", "-", "[", "\x7b"].contains s
  | _ => false

def readTestArguments (tokens : List Token) :
    Except Fault (List (Option String × Expr) × List Token) :=
  if startsWithSign "(" tokens then readArguments inner room tokens.tail
  else if startsArgument tokens then do
    let (argument, rest) ← readPostfix inner room tokens
    .ok ([(none, argument)], rest)
  else .ok ([], tokens)

def readFilters : Nat → Expr → Reader Expr
  | 0, target, tokens => .ok (target, tokens)
  | fuel + 1, target, tokens =>
    match tokens with
    | .sign "|" :: rest => do
      let (name, rest) ← expectName rest
      if startsWithSign "(" rest then
        let (arguments, rest) ← readArguments inner room rest.tail
        readFilters fuel (.filter name target arguments) rest
      else readFilters fuel (.filter name target []) rest
    | .word "is" :: .word "not" :: rest => do
      let (name, rest) ← expectName rest
      let (arguments, rest) ← readTestArguments inner room rest
      readFilters fuel (.not (.test name target arguments)) rest
    | .word "is" :: rest => do
      let (name, rest) ← expectName rest
      let (arguments, rest) ← readTestArguments inner room rest
      readFilters fuel (.test name target arguments) rest
    | _ => .ok (target, tokens)

/-- Reads a signed primary with everything behind it. -/
def readUnary : Reader Expr := fun tokens => do
  let (base, rest) ← readPostfix inner room tokens
  readFilters inner room rest.length base rest

/-- Reads sums of joined texts of products of powers. -/
def readSum : Reader Expr :=
  chain (signOperator sumSigns) <| chain (signOperator concatSigns) <|
    chain (signOperator productSigns) <| chain (signOperator powerSigns) <|
      readUnary inner room

/-- Reads the comparisons behind a first operand, grouped to the left. -/
def comparisonTail : Nat → Expr → Reader Expr
  | 0, left, tokens => .ok (left, tokens)
  | fuel + 1, left, tokens =>
    match tokens with
    | .word "in" :: rest => do
      let (right, rest) ← readSum inner room rest
      comparisonTail fuel (.binary .isIn left right) rest
    | .word "not" :: rest => do
      let ((), rest) ← expectWord "in" rest
      let (right, rest) ← readSum inner room rest
      comparisonTail fuel (.not (.binary .isIn left right)) rest
    | .sign s :: rest =>
      match comparisonSigns.lookup s with
      | none => .ok (left, tokens)
      | some op => do
        let (right, rest) ← readSum inner room rest
        comparisonTail fuel (.binary op left right) rest
    | _ => .ok (left, tokens)

/-- Reads a sum and the comparisons it starts. -/
def readComparison : Reader Expr := fun tokens => do
  let (left, rest) ← readSum inner room tokens
  comparisonTail inner room rest.length left rest

def readNegated : List Token → Except Fault (Expr × List Token)
  | .word "not" :: rest => do
    let (operand, rest) ← readNegated rest
    .ok (.not operand, rest)
  | tokens => readComparison inner room tokens

/-- Reads everything but a choice. -/
def readDisjunction : Reader Expr :=
  chain (wordOperator "or" .or) <| chain (wordOperator "and" .and) <| readNegated inner room

/-- Reads the tests and alternatives behind what may be chosen. -/
def choiceTail : Nat → Expr → Reader Expr
  | 0, chosen, tokens => .ok (chosen, tokens)
  | fuel + 1, chosen, tokens =>
    match tokens with
    | .word "if" :: rest => do
      let (test, rest) ← readDisjunction inner room rest
      match rest with
      | .word "else" :: rest =>
        let (other, rest) ← readDisjunction inner room rest
        let (other, rest) ← choiceTail fuel other rest
        .ok (.choice test chosen (some other), rest)
      | rest => choiceTail fuel (.choice test chosen none) rest
    | _ => .ok (chosen, tokens)

def readChoice : Reader Expr := fun tokens => do
  let (chosen, rest) ← readDisjunction inner room tokens
  choiceTail inner room rest.length chosen rest

end Levels

/-- Reads an expression, or with `false` one that is no choice. -/
def readExpr : Nat → Bool → Nat → Reader Expr
  | 0, _, _, tokens => stop tokens
  | fuel + 1, true, room, tokens =>
    match room with
    | 0 => .error .malformed
    | room + 1 => readChoice (readExpr fuel) room tokens
  | fuel + 1, false, room, tokens => readDisjunction (readExpr fuel) room tokens

/-- The words that no template may bind. -/
def reservedNames : List String :=
  ["true", "True", "false", "False", "none", "None", "loop", "self"]

def readBoundName : Reader String := fun tokens => do
  let (s, rest) ← expectName tokens
  if reservedNames.contains s then .error .malformed else .ok (s, rest)

def endsTargets : List Token → Bool
  | .sign ")" :: _ => true
  | .word "in" :: _ => true
  | .closeBlock :: _ => true
  | .closePrint :: _ => true
  | _ => false

mutual
def readTargetItem : Nat → Reader Target
  | 0, tokens => stop tokens
  | fuel + 1, tokens =>
    match tokens with
    | .sign "(" :: rest => do
      let (target, rest) ← readTarget fuel rest
      let ((), rest) ← expectSign ")" rest
      .ok (target, rest)
    | tokens => do
      let (s, rest) ← readBoundName tokens
      .ok (.name s, rest)

/-- Reads targets with commas between them; without a comma there is one. -/
def readTarget : Nat → Reader Target
  | 0, tokens => stop tokens
  | fuel + 1, tokens =>
    if endsTargets tokens then .ok (.names [], tokens)
    else do
      let (first, rest) ← readTargetItem fuel tokens
      if startsWithSign "," rest then
        let (others, rest) ← readTargets fuel rest.tail
        .ok (.names (first :: others), rest)
      else .ok (first, rest)

def readTargets : Nat → Reader (List Target)
  | 0, tokens => stop tokens
  | fuel + 1, tokens =>
    if endsTargets tokens then .ok ([], tokens)
    else do
      let (first, rest) ← readTargetItem fuel tokens
      if startsWithSign "," rest then
        let (others, rest) ← readTargets fuel rest.tail
        .ok (first :: others, rest)
      else .ok ([first], rest)
end

section Statements

/- The fuel of the expressions. -/
variable (size : Nat)

/-- Reads the target of an assignment and tells whether it stands in parentheses. -/
def readAssigned (tokens : List Token) : Except Fault ((Target × Bool) × List Token) :=
  match tokens with
  | .sign "(" :: rest => do
    let (target, rest) ← readTarget size rest
    let ((), rest) ← expectSign ")" rest
    .ok ((target, true), rest)
  | tokens => do
    let (s, rest) ← readBoundName tokens
    .ok ((.name s, false), rest)

mutual
/-- Reads statements up to a block that starts with one of the words, and answers also with that
word. Without words the statements go up to the end. -/
def readBody (words : List String) : Nat → Nat → Reader (List Statement × String)
  | 0, _, tokens => stop tokens
  | fuel + 1, room, tokens =>
    match tokens with
    | [] => if words.isEmpty then .ok (([], ""), []) else .error .malformed
    | .data s :: rest => do
      let ((body, word), rest) ← readBody words fuel room rest
      .ok ((.text s :: body, word), rest)
    | .openPrint :: rest => do
      let (e, rest) ← readExpr size true room rest
      let ((), rest) ← expectClosePrint rest
      let ((body, word), rest) ← readBody words fuel room rest
      .ok ((.print e :: body, word), rest)
    | .openBlock :: .word s :: rest =>
      if words.contains s then .ok (([], s), rest)
      else
        match room with
        | 0 => .error .malformed
        | inner + 1 => do
          let (statement, rest) ← readStatement s fuel inner rest
          let ((), rest) ← expectCloseBlock rest
          let ((body, word), rest) ← readBody words fuel room rest
          .ok ((statement :: body, word), rest)
    | .openBlock :: rest => stop rest
    | tokens => stop tokens

/-- Reads the statement that starts with this word. -/
def readStatement (word : String) : Nat → Nat → Reader Statement
  | 0, _, tokens => stop tokens
  | fuel + 1, room, tokens =>
    match word with
    | "if" => readBranch fuel room tokens
    | "for" => do
      let (target, rest) ← readTarget size tokens
      let ((), rest) ← expectWord "in" rest
      let (elements, rest) ← readExpr size false room rest
      let (condition, rest) ←
        match rest with
        | .word "if" :: rest => do
          let (e, rest) ← readExpr size true room rest
          .ok (some e, rest)
        | rest => .ok (none, rest)
      let rest :=
        match rest with
        | .word "recursive" :: rest => rest
        | rest => rest
      let ((), rest) ← expectCloseBlock rest
      let ((body, word), rest) ← readBody ["endfor", "else"] fuel room rest
      if word = "else" then
        let ((), rest) ← expectCloseBlock rest
        let ((otherwise, _), rest) ← readBody ["endfor"] fuel room rest
        .ok (.loop target elements condition body otherwise, rest)
      else .ok (.loop target elements condition body [], rest)
    | "set" => do
      let ((target, inParentheses), rest) ← readAssigned size tokens
      match target, inParentheses, rest with
      | .name s, false, .closeBlock :: rest =>
        let ((body, _), rest) ← readBody ["endset"] fuel room rest
        .ok (.capture s body, rest)
      | target, _, rest =>
        let ((), rest) ← expectSign "=" rest
        let (value, rest) ← readExpr size true room rest
        .ok (.assign target value, rest)
    | _ => .error .malformed

def readBranch : Nat → Nat → Reader Statement
  | 0, _, tokens => stop tokens
  | fuel + 1, room, tokens => do
    let (test, rest) ← readExpr size true room tokens
    let ((), rest) ← expectCloseBlock rest
    let ((body, word), rest) ← readBody ["endif", "else", "elif"] fuel room rest
    if word = "else" then
      let ((), rest) ← expectCloseBlock rest
      let ((otherwise, _), rest) ← readBody ["endif"] fuel room rest
      .ok (.branch test body otherwise, rest)
    else if word = "elif" then
      let (other, rest) ← readBranch fuel room rest
      .ok (.branch test body [other], rest)
    else .ok (.branch test body [], rest)
end

end Statements

def parse (cs : List Char) : Except Fault (List Statement) :=
  let tokens := tokenize cs
  match readBody (tokens.length + 1) [] (3 * tokens.length + 3) maxDepth tokens with
  | .error e => .error e
  | .ok ((body, _), _) => .ok body

def parseExpr (cs : List Char) : Except Fault Expr :=
  let tokens := tokenizeExpression cs
  match readExpr (tokens.length + 1) true maxDepth tokens with
  | .error e => .error e
  | .ok (e, []) => .ok e
  | .ok (_, rest) => stop rest

end Workflow.Template
