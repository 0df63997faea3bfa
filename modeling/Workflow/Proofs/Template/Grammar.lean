import Workflow.Proofs.Template.Lexing
import Workflow.Template.Grammar

/-!
What the readers of expressions use up: words, literals and signs, the last of them no minus sign. So an
expression holds no marker and does not end in a minus sign, and where the reading fails without a
bad escape the text is malformed.
-/

namespace Workflow.Template

variable {α β : Type} {t : Token} {ts front more : List Token} {cs : List Char}

/-! ## Parts of expressions -/

/-- Tokens that an expression may end with. -/
structure IsPart (ts : List Token) : Prop where
  inner : ∀ t ∈ ts, t.isInner = true
  last : ∀ t ∈ ts.getLast?, t ≠ .sign "-"

/-- Tokens that an expression may end with, at least one of them. -/
structure IsPhrase (ts : List Token) : Prop extends IsPart ts where
  nonempty : ts ≠ []

theorem IsPart.nil : IsPart [] where
  inner _ := nofun
  last _ := nofun

theorem IsPart.append (part : IsPart front) (part' : IsPart more) : IsPart (front ++ more) where
  inner t inside := (List.mem_append.mp inside).elim (part.inner t) (part'.inner t)
  last t last := by
    rw [List.getLast?_append, Option.mem_def, Option.or_eq_some_iff] at last
    obtain last | ⟨-, last⟩ := last
    · exact part'.last t last
    · exact part.last t last

theorem IsPhrase.append (phrase : IsPhrase front) (part : IsPart more) : IsPhrase (front ++ more) where
  toIsPart := phrase.toIsPart.append part
  nonempty := List.append_ne_nil_of_left_ne_nil phrase.nonempty _

theorem IsPhrase.cons (inner : t.isInner = true) (phrase : IsPhrase ts) : IsPhrase (t :: ts) where
  inner u inside := by
    obtain rfl | inside := List.mem_cons.mp inside
    · exact inner
    · exact phrase.inner u inside
  last u last := phrase.last u (by rwa [List.getLast?_cons_of_ne_nil phrase.nonempty] at last)
  nonempty := List.cons_ne_nil _ _

theorem IsPhrase.single (inner : t.isInner = true) (noMinus : t ≠ .sign "-") : IsPhrase [t] where
  inner u inside := by rwa [List.mem_singleton.mp inside]
  last u last := by
    cases last
    exact noMinus
  nonempty := List.cons_ne_nil _ _

/-! ## Readers -/

/-- What is read uses up tokens with the property from the front. Where nothing can be read, the text is
malformed or a bad escape is left in it. -/
structure Yields (p : List Token → Prop) (ts : List Token) (read : Except Fault (α × List Token)) :
    Prop where
  used : ∀ a rest, read = .ok (a, rest) → ∃ front, ts = front ++ rest ∧ p front
  failed : ∀ fault, read = .error fault → fault = .malformed ∨ .damaged true ∈ ts

/-- The reader does so on all tokens. -/
def Uses (p : List Token → Prop) (reader : Reader α) : Prop :=
  ∀ ts, Yields p ts (reader ts)

namespace Yields

variable {p : List Token → Prop} {read : Except Fault (α × List Token)}

theorem here (a : α) (ts : List Token) : Yields IsPart ts (.ok (a, ts)) where
  used := by
    rintro _ _ ⟨⟩
    exact ⟨[], rfl, .nil⟩
  failed := nofun

theorem malformed : Yields p ts (.error .malformed : Except Fault (α × List Token)) where
  used := nofun
  failed := by
    rintro _ ⟨⟩
    exact .inl rfl

theorem stop : Yields p ts (stop ts : Except Fault (α × List Token)) := by
  unfold Template.stop
  split
  · refine ⟨nofun, ?_⟩
    rintro _ ⟨⟩
    exact .inr (.head _)
  · exact malformed

theorem one (inner : t.isInner = true) (noMinus : t ≠ .sign "-") (a : α) :
    Yields IsPhrase (t :: ts) (.ok (a, ts)) where
  used := by
    rintro _ _ ⟨⟩
    exact ⟨[t], rfl, .single inner noMinus⟩
  failed := nofun

theorem part (yields : Yields IsPhrase ts read) : Yields IsPart ts read where
  used a rest same :=
    let ⟨front, whole, phrase⟩ := yields.used a rest same
    ⟨front, whole, phrase.toIsPart⟩
  failed := yields.failed

theorem cons (inner : t.isInner = true) (yields : Yields IsPhrase ts read) :
    Yields IsPhrase (t :: ts) read where
  used a rest same := by
    obtain ⟨front, rfl, phrase⟩ := yields.used a rest same
    exact ⟨t :: front, rfl, phrase.cons inner⟩
  failed fault same := (yields.failed fault same).imp_right (.tail t)

/-- One reading behind another. -/
theorem compose {q : List Token → Prop} {next : α × List Token → Except Fault (β × List Token)}
    (append : ∀ {front more}, p front → IsPart more → q (front ++ more)) (yields : Yields p ts read)
    (behind : ∀ a rest, Yields IsPart rest (next (a, rest))) : Yields q ts (read >>= next) where
  used b rest same := by
    cases read with
    | error fault => cases same
    | ok found =>
      obtain ⟨front, rfl, first⟩ := yields.used found.1 found.2 rfl
      obtain ⟨more, whole, part⟩ := (behind found.1 found.2).used b rest same
      exact ⟨front ++ more, by rw [whole, List.append_assoc], append first part⟩
  failed fault same := by
    cases read with
    | error fault' =>
      cases same
      exact yields.failed _ rfl
    | ok found =>
      obtain ⟨front, rfl, -⟩ := yields.used found.1 found.2 rfl
      exact ((behind found.1 found.2).failed fault same).imp_right (List.mem_append_right front)

/-- If a phrase is read first, all that is read is a phrase. -/
theorem bind {next : α × List Token → Except Fault (β × List Token)} (yields : Yields IsPhrase ts read)
    (behind : ∀ a rest, Yields IsPart rest (next (a, rest))) : Yields IsPhrase ts (read >>= next) :=
  yields.compose IsPhrase.append behind

theorem bind_part {next : α × List Token → Except Fault (β × List Token)} (yields : Yields IsPart ts read)
    (behind : ∀ a rest, Yields IsPart rest (next (a, rest))) : Yields IsPart ts (read >>= next) :=
  yields.compose IsPart.append behind

end Yields

theorem startsWithSign_iff {sign : String} :
    startsWithSign sign ts = true ↔ ∃ rest, ts = .sign sign :: rest := by
  unfold startsWithSign
  split <;> simp_all

theorem expectSign_uses {sign : String} (noMinus : sign ≠ "-") : Uses IsPhrase (expectSign sign) := by
  intro ts
  unfold expectSign
  split
  · split
    next same =>
      exact .one rfl (fun minus => noMinus (same ▸ Token.sign.inj minus)) ()
    next => exact .malformed
  · exact .stop

theorem expectName_uses : Uses IsPhrase expectName := by
  intro ts
  unfold expectName
  split
  · exact .one rfl (by simp) _
  · exact .stop

theorem expectWord_uses (word : String) : Uses IsPhrase (expectWord word) := by
  intro ts
  unfold expectWord
  split
  · split
    · exact .one rfl (by simp) ()
    · exact .malformed
  · exact .stop

section Chains

variable {operator? : Token → Option (Expr → Expr → Expr)} {operand : Reader Expr}
  (inner : ∀ t combine, operator? t = some combine → t.isInner = true) (uses : Uses IsPhrase operand)

include inner uses

theorem chainTail_uses (fuel : Nat) (left : Expr) :
    Uses IsPart (chainTail operator? operand fuel left) := by
  intro ts
  fun_induction chainTail operator? operand fuel left ts with
  | case1 => exact .here _ _
  | case2 => exact .here _ _
  | case3 => exact .here _ _
  | case4 fuel left t rest combine operator ih =>
    refine .part (.cons (inner t combine operator) (.bind (uses rest) fun right rest => ?_))
    exact ih right rest

/-- A chain uses phrases as its operands do, since operators are no ends of prints. -/
theorem chain_uses : Uses IsPhrase (chain operator? operand) := fun ts =>
  .bind (uses ts) fun left rest => chainTail_uses inner uses rest.length left rest

end Chains

theorem isInner_of_signOperator {signs : List (String × Operator)} (t : Token)
    (combine : Expr → Expr → Expr) (operator : signOperator signs t = some combine) :
    t.isInner = true := by
  cases t <;> first | rfl | cases operator

theorem isInner_of_wordOperator {word : String} {build : Expr → Expr → Expr} (t : Token)
    (combine : Expr → Expr → Expr) (operator : wordOperator word build t = some combine) :
    t.isInner = true := by
  cases t <;> first | rfl | cases operator

theorem readItems_uses {item : Reader α} {close : String} (uses : Uses IsPhrase item)
    (noMinus : close ≠ "-") (fuel : Nat) : Uses IsPhrase (readItems item close fuel) := by
  have closed {β : Type} {b : β} {ts : List Token} (closes : startsWithSign close ts = true) :
      Yields IsPhrase ts (.ok (b, ts.tail)) := by
    obtain ⟨rest, rfl⟩ := startsWithSign_iff.mp closes
    exact .one rfl (fun minus => noMinus (Token.sign.inj minus)) b
  induction fuel with
  | zero => exact fun ts => .stop
  | succ fuel ih =>
    intro ts
    unfold readItems
    split
    next closes => exact closed closes
    next =>
      refine .bind (uses ts) fun first rest => ?_
      dsimp only
      split
      next closes => exact (closed closes).part
      next =>
        refine .part (.bind (expectSign_uses (by decide) rest) fun _ rest => ?_)
        exact .part (.bind (ih rest) fun _ _ => .here _ _)

section Levels

variable {inner : Bool → Nat → Reader Expr} (uses : ∀ choice room, Uses IsPhrase (inner choice room))
  (room : Nat)

include uses

theorem readEntry_uses : Uses IsPhrase (readEntry inner room) := fun ts =>
  .bind (uses true room ts) fun _ rest =>
    .part <| .bind (expectSign_uses (by decide) rest) fun _ rest =>
      .part <| .bind (uses true room rest) fun _ _ => .here _ _

theorem readParenthesis_uses : Uses IsPhrase (readParenthesis inner room) := by
  intro ts
  unfold readParenthesis
  split
  next closes =>
    obtain ⟨rest, rfl⟩ := startsWithSign_iff.mp closes
    exact .one rfl (by simp) _
  next =>
    refine .bind (uses true room ts) fun first rest => ?_
    dsimp only
    split
    next more =>
      obtain ⟨rest, rfl⟩ := startsWithSign_iff.mp more
      refine .part (.cons rfl (.bind (readItems_uses (uses true room) (by decide) _ rest) fun _ _ => ?_))
      exact .here _ _
    next => exact .part (.bind (expectSign_uses (by decide) rest) fun _ _ => .here _ _)

/-- A primary is a phrase of tokens that can stand in a print. -/
theorem readPrimary_uses : Uses IsPhrase (readPrimary inner room) := by
  intro ts
  unfold readPrimary
  split
  · exact .malformed
  next room =>
    split
    · exact .one rfl (by simp) _
    · exact .one rfl (by simp) _
    · exact .one rfl (by simp) _
    · exact .one rfl (by simp) _
    next rest => exact .cons rfl (readParenthesis_uses uses room rest)
    next rest =>
      exact .cons rfl (.bind (readItems_uses (uses true room) (by decide) _ rest) fun _ _ => .here _ _)
    next rest =>
      exact .cons rfl (.bind (readItems_uses (readEntry_uses uses room) (by decide) _ rest) fun _ _ =>
        .here _ _)
    · exact .stop

theorem readArgument_uses : Uses IsPhrase (readArgument inner room) := by
  intro ts
  refine .bind (uses true room ts) fun e rest => ?_
  dsimp only
  split
  · exact .part (.cons rfl (.bind (uses false room _) fun _ _ => .here _ _))
  · exact .here _ _

theorem readArguments_uses : Uses IsPhrase (readArguments inner room) := by
  intro ts
  refine .bind (readItems_uses (readArgument_uses uses room) (by decide) _ ts) fun arguments rest => ?_
  dsimp only
  split
  · exact .here _ _
  · exact .malformed

theorem readSuffixes_uses (fuel : Nat) (base : Expr) :
    Uses IsPart (readSuffixes inner room fuel base) := by
  induction fuel generalizing base with
  | zero => exact fun ts => .here _ _
  | succ fuel ih =>
    intro ts
    unfold readSuffixes
    split
    next rest =>
      exact .part (.cons rfl (.bind (expectName_uses rest) fun name rest => ih _ rest))
    next rest =>
      refine .part (.cons rfl (.bind (uses true room rest) fun key rest => ?_))
      exact .part (.bind (expectSign_uses (by decide) rest) fun _ rest => ih _ rest)
    next rest =>
      exact .part (.cons rfl (.bind (readArguments_uses uses room rest) fun _ rest => ih _ rest))
    · exact .here _ _

theorem readSigned_uses : Uses IsPhrase (readSigned inner room) := by
  intro ts
  fun_induction readSigned inner room ts with
  | case1 rest ih => exact .cons rfl (.bind ih fun _ _ => .here _ _)
  | case2 ts => exact readPrimary_uses uses room ts

theorem readPostfix_uses : Uses IsPhrase (readPostfix inner room) := fun ts =>
  .bind (readSigned_uses uses room ts) fun base rest => readSuffixes_uses uses room _ base rest

theorem readTestArguments_uses : Uses IsPart (readTestArguments inner room) := by
  intro ts
  unfold readTestArguments
  split
  next opens =>
    obtain ⟨rest, rfl⟩ := startsWithSign_iff.mp opens
    exact .part (.cons rfl (readArguments_uses uses room rest))
  next =>
    split
    · exact .part (.bind (readPostfix_uses uses room ts) fun _ _ => .here _ _)
    · exact .here _ _

theorem readFilters_uses (fuel : Nat) (target : Expr) :
    Uses IsPart (readFilters inner room fuel target) := by
  induction fuel generalizing target with
  | zero => exact fun ts => .here _ _
  | succ fuel ih =>
    intro ts
    unfold readFilters
    split
    next rest =>
      refine .part (.cons rfl (.bind (expectName_uses rest) fun name rest => ?_))
      dsimp only
      split
      next opens =>
        obtain ⟨rest, rfl⟩ := startsWithSign_iff.mp opens
        exact .part (.cons rfl (.bind (readArguments_uses uses room rest) fun _ rest => ih _ rest))
      next => exact ih _ rest
    next rest =>
      refine .part (.cons rfl (.cons rfl (.bind (expectName_uses rest) fun name rest => ?_)))
      exact (readTestArguments_uses uses room rest).bind_part fun _ rest => ih _ rest
    next rest _ =>
      refine .part (.cons rfl (.bind (expectName_uses rest) fun name rest => ?_))
      exact (readTestArguments_uses uses room rest).bind_part fun _ rest => ih _ rest
    · exact .here _ _

theorem readUnary_uses : Uses IsPhrase (readUnary inner room) := fun ts =>
  .bind (readPostfix_uses uses room ts) fun base rest => readFilters_uses uses room _ base rest

theorem readSum_uses : Uses IsPhrase (readSum inner room) :=
  chain_uses isInner_of_signOperator <| chain_uses isInner_of_signOperator <|
    chain_uses isInner_of_signOperator <| chain_uses isInner_of_signOperator <| readUnary_uses uses room

theorem comparisonTail_uses (fuel : Nat) (left : Expr) :
    Uses IsPart (comparisonTail inner room fuel left) := by
  induction fuel generalizing left with
  | zero => exact fun ts => .here _ _
  | succ fuel ih =>
    intro ts
    unfold comparisonTail
    split
    next rest => exact .part (.cons rfl (.bind (readSum_uses uses room rest) fun _ rest => ih _ rest))
    next rest =>
      refine .part (.cons rfl (.bind (expectWord_uses "in" rest) fun _ rest => ?_))
      exact .part (.bind (readSum_uses uses room rest) fun _ rest => ih _ rest)
    next sign rest =>
      split
      · exact .here _ _
      · exact .part (.cons rfl (.bind (readSum_uses uses room rest) fun _ rest => ih _ rest))
    · exact .here _ _

theorem readComparison_uses : Uses IsPhrase (readComparison inner room) := fun ts =>
  .bind (readSum_uses uses room ts) fun left rest => comparisonTail_uses uses room _ left rest

theorem readNegated_uses : Uses IsPhrase (readNegated inner room) := by
  intro ts
  fun_induction readNegated inner room ts with
  | case1 rest ih => exact .cons rfl (.bind ih fun _ _ => .here _ _)
  | case2 ts => exact readComparison_uses uses room ts

theorem readDisjunction_uses : Uses IsPhrase (readDisjunction inner room) :=
  chain_uses isInner_of_wordOperator <| chain_uses isInner_of_wordOperator <| readNegated_uses uses room

theorem choiceTail_uses (fuel : Nat) (chosen : Expr) :
    Uses IsPart (choiceTail inner room fuel chosen) := by
  induction fuel generalizing chosen with
  | zero => exact fun ts => .here _ _
  | succ fuel ih =>
    intro ts
    unfold choiceTail
    split
    next rest =>
      refine .part (.cons rfl (.bind (readDisjunction_uses uses room rest) fun test rest => ?_))
      dsimp only
      split
      next rest =>
        refine .part (.cons rfl (.bind (readDisjunction_uses uses room rest) fun other rest => ?_))
        exact (ih other rest).bind_part fun _ _ => .here _ _
      next => exact ih _ _
    · exact .here _ _

theorem readChoice_uses : Uses IsPhrase (readChoice inner room) := fun ts =>
  .bind (readDisjunction_uses uses room ts) fun chosen rest => choiceTail_uses uses room _ chosen rest

end Levels

/-- So is every expression, however deep it nests. -/
theorem readExpr_uses (fuel : Nat) (choice : Bool) (room : Nat) :
    Uses IsPhrase (readExpr fuel choice room) := by
  induction fuel generalizing choice room with
  | zero => exact fun ts => .stop
  | succ fuel ih =>
    intro ts
    cases choice with
    | false => exact readDisjunction_uses ih room ts
    | true =>
      cases room with
      | zero => exact .malformed
      | succ room => exact readChoice_uses ih room ts

/-! ## Texts -/

/-- All of an expression is words, literals and signs. -/
theorem isInner_of_parseExpr {e : Expr} (parsed : parseExpr cs = .ok e) :
    ∀ t ∈ tokenizeExpression cs, t.isInner = true := by
  have uses := readExpr_uses ((tokenizeExpression cs).length + 1) true maxDepth (tokenizeExpression cs)
  unfold parseExpr at parsed
  dsimp only at parsed
  split at parsed
  next => cases parsed
  next e' read =>
    obtain ⟨front, whole, phrase⟩ := uses.used e' [] read
    rw [whole, List.append_nil]
    exact phrase.inner
  next rest _ read =>
    unfold stop at parsed
    split at parsed <;> cases parsed

/-- What ends in a minus sign is no expression. -/
theorem parseExpr_of_minus (tokenized : tokenizeExpression cs = ts ++ [.sign "-"])
    (inner : ∀ t ∈ ts, t.isInner = true) : parseExpr cs = .error .malformed := by
  have uses := readExpr_uses ((tokenizeExpression cs).length + 1) true maxDepth (tokenizeExpression cs)
  have undamaged : ∀ t ∈ tokenizeExpression cs, t.isInner = true := by
    intro t inside
    rw [tokenized] at inside
    obtain inside | inside := List.mem_append.mp inside
    · exact inner t inside
    · rw [List.mem_singleton.mp inside]
      rfl
  unfold parseExpr
  dsimp only
  split
  next fault read =>
    obtain rfl | damaged := uses.failed fault read
    · rfl
    · cases undamaged _ damaged
  next e read =>
    obtain ⟨front, whole, phrase⟩ := uses.used e [] read
    rw [List.append_nil] at whole
    refine absurd rfl (phrase.last (.sign "-") ?_)
    rw [← whole, tokenized, List.getLast?_append]
    rfl
  next e rest more read =>
    obtain ⟨front, whole, -⟩ := uses.used e rest read
    unfold stop
    split
    next => cases undamaged (.damaged true) (by rw [whole]; simp)
    next => rfl

theorem expectClosePrint_eq_ok {rest : List Token} (closed : expectClosePrint ts = .ok ((), rest)) :
    ts = .closePrint :: rest := by
  unfold expectClosePrint at closed
  split at closed
  · cases closed
    rfl
  · unfold stop at closed
    split at closed <;> cases closed

/-- A print is not read without its end. -/
theorem mem_closePrint_of_readBody {size fuel room : Nat} {words : List String}
    {body : (List Statement × String) × List Token}
    (read : readBody size words (fuel + 1) room (.openPrint :: ts) = .ok body) : .closePrint ∈ ts := by
  have uses := readExpr_uses size true room ts
  rw [readBody] at read
  cases expr : readExpr size true room ts with
  | error fault =>
    rw [expr] at read
    cases read
  | ok found =>
    obtain ⟨front, rfl, -⟩ := uses.used found.1 found.2 expr
    cases closed : expectClosePrint found.2 with
    | error fault =>
      rw [expr] at read
      simp only [bind, Except.bind, closed] at read
      cases read
    | ok rest =>
      rw [expectClosePrint_eq_ok closed]
      simp

/-- In a template a print that is opened is closed. -/
theorem mem_closePrint_of_parse {template : List Statement} (tokenized : tokenize cs = .openPrint :: ts)
    (parsed : parse cs = .ok template) : .closePrint ∈ ts := by
  unfold parse at parsed
  rw [tokenized] at parsed
  dsimp only at parsed
  split at parsed
  next => cases parsed
  next read => exact mem_closePrint_of_readBody read

end Workflow.Template
