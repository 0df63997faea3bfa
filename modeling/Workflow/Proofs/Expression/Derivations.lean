import Workflow.Expression.Grammar

/-!
The grammar of expressions as a relation between tokens and trees. Chains group to the left, and
parentheses leave no node. A derivation also tells how many levels the reader opens for it.
-/

namespace Workflow.Expression

inductive Phrase where
  | expression
  | disjunction
  | conjunction
  | negation
  | comparison
  | sum
  | product
  | signed
  /-- A primary with the attributes and indices behind it. -/
  | suffixed
  | primary
  /-- One expression or more, with commas between them. -/
  | items
  /-- Items, or nothing. -/
  | arguments
  deriving DecidableEq, Repr

/-- The value that a token stands for by itself. -/
def Token.value? : Token → Option Value
  | .whole n => some (.ofWhole n)
  | .float x => some (.ofFloat x)
  | .string s => some (.string s)
  | .kwTrue => some (.bool true)
  | .kwFalse => some (.bool false)
  | .kwNull => some .null
  | _ => none

/-- The chains of the grammar: what they are chains of, and with which operators. -/
inductive Chained : Phrase → Phrase → (Token → Option BinaryOp) → Prop
  | disjunction : Chained .disjunction .conjunction orOperator?
  | conjunction : Chained .conjunction .negation andOperator?
  | sum : Chained .sum .product sumOperator?
  | product : Chained .product .signed productOperator?

/-- `Derives phrase opened levels tokens e`: the tokens are such a phrase, and `e` is its tree. Items
have the list of their trees. The two numbers follow from the derivation and restrict nothing:
`opened` levels are open at the end of a chain, one for each operator, and `levels` at most are open
at one time. -/
inductive Derives : Phrase → Nat → Nat → List Token → Expression → Prop
  | whole {k n : Nat} {ts : List Token} {e : Expression} (inner : Derives .disjunction k n ts e) :
      Derives .expression 0 (n + 1) ts e
  | first {chain operand : Phrase} {operator? : Token → Option BinaryOp} {k n : Nat}
      {ts : List Token} {e : Expression} (chained : Chained chain operand operator?)
      (inner : Derives operand k n ts e) : Derives chain 0 n ts e
  | next {chain operand : Phrase} {operator? : Token → Option BinaryOp} {k n k' m : Nat}
      {ts ts' : List Token} {left right : Expression} {token : Token} {op : BinaryOp}
      (chained : Chained chain operand operator?) (before : Derives chain k n ts left)
      (operator : operator? token = some op) (inner : Derives operand k' m ts' right) :
      Derives chain (k + 1) (max n (k + 1 + m)) (ts ++ token :: ts') (.binary op left right)
  | affirmed {k n : Nat} {ts : List Token} {e : Expression} (inner : Derives .comparison k n ts e) :
      Derives .negation 0 n ts e
  | negated {k n : Nat} {ts : List Token} {e : Expression} (inner : Derives .negation k n ts e) :
      Derives .negation 0 (n + 1) (.kwNot :: ts) (.unary .not e)
  | alone {k n : Nat} {ts : List Token} {e : Expression} (inner : Derives .sum k n ts e) :
      Derives .comparison 0 n ts e
  | compared {k n k' m : Nat} {ts ts' : List Token} {left right : Expression} {token : Token}
      {op : BinaryOp} (before : Derives .sum k n ts left)
      (operator : comparisonOperator? token = some op) (inner : Derives .sum k' m ts' right) :
      Derives .comparison 0 (max n m) (ts ++ token :: ts') (.binary op left right)
  | unsigned {k n : Nat} {ts : List Token} {e : Expression} (inner : Derives .suffixed k n ts e) :
      Derives .signed 0 n ts e
  | minus {k n : Nat} {ts : List Token} {e : Expression} (inner : Derives .signed k n ts e) :
      Derives .signed 0 (n + 1) (.minus :: ts) (.unary .negate e)
  | bare {k n : Nat} {ts : List Token} {e : Expression} (inner : Derives .primary k n ts e) :
      Derives .suffixed 0 n ts e
  | attr {k n : Nat} {ts : List Token} {base : Expression} (name : String)
      (before : Derives .suffixed k n ts base) :
      Derives .suffixed (k + 1) (max n (k + 1)) (ts ++ [.dot, .name name]) (.attr base name)
  | index {k n k' m : Nat} {ts ts' : List Token} {base position : Expression}
      (before : Derives .suffixed k n ts base) (inner : Derives .expression k' m ts' position) :
      Derives .suffixed (k + 1) (max n (k + 1 + m)) (ts ++ .openBracket :: (ts' ++ [.closeBracket]))
        (.index base position)
  | literal {token : Token} {value : Value} (stands : token.value? = some value) :
      Derives .primary 0 0 [token] (.literal value)
  | root : Derives .primary 0 0 [.dollar] .root
  | var (name : String) : Derives .primary 0 0 [.name name] (.var name)
  | call {k n : Nat} {ts : List Token} {es : List Expression} (name : String)
      (inner : Derives .arguments k n ts (.list es)) :
      Derives .primary 0 n (.name name :: .openParen :: (ts ++ [.closeParen])) (.call name es)
  | parens {k n : Nat} {ts : List Token} {e : Expression} (inner : Derives .expression k n ts e) :
      Derives .primary 0 n (.openParen :: (ts ++ [.closeParen])) e
  | list {k n : Nat} {ts : List Token} {es : List Expression}
      (inner : Derives .arguments k n ts (.list es)) :
      Derives .primary 0 n (.openBracket :: (ts ++ [.closeBracket])) (.list es)
  | last {k n : Nat} {ts : List Token} {e : Expression} (inner : Derives .expression k n ts e) :
      Derives .items 0 n ts (.list [e])
  | more {k n k' m : Nat} {ts ts' : List Token} {e : Expression} {es : List Expression}
      (inner : Derives .expression k n ts e) (behind : Derives .items k' m ts' (.list es)) :
      Derives .items 0 (max n m) (ts ++ .comma :: ts') (.list (e :: es))
  | empty : Derives .arguments 0 0 [] (.list [])
  | listed {k n : Nat} {ts : List Token} {e : Expression} (inner : Derives .items k n ts e) :
      Derives .arguments 0 n ts e

/-- The tokens are one expression from start to end, with this tree. -/
def IsExpression (tokens : List Token) (e : Expression) : Prop :=
  ∃ opened levels, Derives .expression opened levels tokens e

end Workflow.Expression
