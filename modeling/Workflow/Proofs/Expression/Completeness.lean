import Workflow.Proofs.Expression.Derivations

/-!
What is derived is read. Readers hand on what is left of their levels, so a phrase that is read up
to the end of a chain is told apart from one behind which nothing goes on.
-/

namespace Workflow.Expression

variable {p : Phrase} {k n : Nat} {ts : List Token} {e : Expression}

/-! ## What phrases start with -/

/-- 3 for the tokens that close a list, 2 and 1 for the signs in front of an operand. -/
def Token.sign : Token → Nat
  | .closeParen | .closeBracket => 3
  | .kwNot => 2
  | .minus => 1
  | _ => 0

/-- The greatest sign that a phrase may start with. -/
def Phrase.sign : Phrase → Nat
  | .comparison | .sum | .product | .signed => 1
  | .suffixed | .primary => 0
  | _ => 2

theorem Chained.sign_le {chain operand : Phrase} {operator? : Token → Option BinaryOp}
    (chained : Chained chain operand operator?) : operand.sign ≤ chain.sign := by
  cases chained <;> decide

theorem Chained.ne_arguments {chain operand : Phrase} {operator? : Token → Option BinaryOp}
    (chained : Chained chain operand operator?) : chain ≠ .arguments ∧ operand ≠ .arguments := by
  cases chained <;> decide

theorem Token.sign_of_value {token : Token} {value : Value} (stands : token.value? = some value) :
    token.sign = 0 := by
  cases token <;> first | rfl | cases stands

/-- A phrase starts with a token that tells it from the end of a list, and from longer phrases. -/
theorem Derives.exists_cons (d : Derives p k n ts e) (nonempty : p ≠ .arguments) :
    ∃ token rest, ts = token :: rest ∧ token.sign ≤ p.sign := by
  induction d with
  | first chained _ ih =>
    obtain ⟨token, rest, rfl, le⟩ := ih chained.ne_arguments.2
    exact ⟨token, rest, rfl, Nat.le_trans le chained.sign_le⟩
  | next chained _ _ _ ih _ =>
    obtain ⟨token, rest, rfl, le⟩ := ih chained.ne_arguments.1
    exact ⟨token, _, rfl, le⟩
  | whole _ ih | affirmed _ ih | alone _ ih | unsigned _ ih | bare _ ih | last _ ih =>
    obtain ⟨token, rest, rfl, le⟩ := ih (by decide)
    exact ⟨token, rest, rfl, Nat.le_trans le (by decide)⟩
  | compared _ _ _ ih _ | attr _ _ ih | index _ _ ih _ | more _ _ ih _ =>
    obtain ⟨token, rest, rfl, le⟩ := ih (by decide)
    exact ⟨token, _, rfl, le⟩
  | literal stands => exact ⟨_, _, rfl, Nat.le_of_eq (Token.sign_of_value stands)⟩
  | negated _ _ | minus _ _ | root | var _ | call _ _ _ | parens _ _ | list _ _ =>
    exact ⟨_, _, rfl, by simp [Token.sign, Phrase.sign]⟩
  | empty => exact absurd rfl nonempty
  | listed _ _ => exact absurd rfl nonempty

/-! ## What may follow a phrase -/

/-- How loosely the token binds to what stands before it; 7 is for those that go on with nothing. -/
def Token.looseness : Token → Nat
  | .openParen => 0
  | .dot | .openBracket => 1
  | .star | .slash => 2
  | .plus | .minus => 3
  | .equal | .unequal | .less | .atMost | .greater | .atLeast | .kwIn => 4
  | .kwAnd => 5
  | .kwOr => 6
  | _ => 7

/-- What is left binds more loosely than this. -/
def Looser (looseness : Nat) (rest : List Token) : Prop :=
  ∀ token ∈ rest.head?, looseness < token.looseness

theorem Looser.mono {a b : Nat} {rest : List Token} (looser : Looser b rest) (le : a ≤ b) :
    Looser a rest :=
  fun token first => Nat.lt_of_le_of_lt le (looser token first)

@[simp] theorem looser_nil {a : Nat} : Looser a [] := by
  simp [Looser]

@[simp] theorem looser_cons {a : Nat} {token : Token} {rest : List Token} :
    Looser a (token :: rest) ↔ a < token.looseness := by
  simp [Looser]

/-- All these operators bind that loosely. -/
def Binds (operator? : Token → Option BinaryOp) (looseness : Nat) : Prop :=
  ∀ token op, operator? token = some op → token.looseness = looseness

theorem Binds.eq_none {operator? : Token → Option BinaryOp} {looseness : Nat} {token : Token}
    (binds : Binds operator? looseness) (looser : looseness < token.looseness) :
    operator? token = none := by
  cases operator : operator? token with
  | none => rfl
  | some op => exact absurd (binds token op operator) (Nat.ne_of_gt looser)

/-- How loosely the operators of a chain bind. -/
def Phrase.looseness : Phrase → Nat
  | .disjunction => 6
  | .conjunction => 5
  | .sum => 3
  | .product => 2
  | _ => 0

theorem Chained.binds {chain operand : Phrase} {operator? : Token → Option BinaryOp}
    (chained : Chained chain operand operator?) : Binds operator? chain.looseness := by
  intro token op operator
  cases chained <;> cases token <;> first | rfl | cases operator

theorem binds_comparisonOperator : Binds comparisonOperator? 4 := by
  intro token op operator
  cases token <;> first | rfl | cases operator

/-! ## Reading what is derived -/

/-- A reader of phrases, with the reader of the expressions in its brackets and the levels it has. -/
abbrev PhraseReader := (Nat → Reader Expression) → Nat → Reader Expression

/-- Nothing is read behind the phrase. -/
def stop (_ : Nat → Reader Expression) (_ : Nat) (e : Expression) : Reader Expression :=
  fun rest => .ok (e, rest)

/-- The reader reads the tokens as this expression, if it has the levels for it, and goes on behind them
with what is left of its levels. -/
structure ReadsAs (looseness : Nat) (reader : PhraseReader)
    (goOn : (Nat → Reader Expression) → Nat → Expression → Reader Expression)
    (opened levels : Nat) (ts : List Token) (e : Expression) : Prop where
  read : ∀ depth room rest, room ≤ depth → Looser looseness rest →
    reader (readNested depth) room (ts ++ rest) =
      if levels ≤ room then goOn (readNested depth) (room - opened) e rest else .error .tooDeep

/-- The token that closes a list. -/
inductive Closes : Token → (Token → Bool) → Prop
  | paren : Closes .closeParen isCloseParen
  | bracket : Closes .closeBracket isCloseBracket

/-- What the reader makes of the phrases of each kind. -/
def Reads : Phrase → Nat → Nat → List Token → Expression → Prop
  | .expression => ReadsAs 6 id stop
  | .disjunction =>
    ReadsAs 5 (fun nested => chained orOperator? (readConjunction nested))
      (fun nested => chain orOperator? (readConjunction nested))
  | .conjunction =>
    ReadsAs 4 (fun nested => chained andOperator? (readNegated nested))
      (fun nested => chain andOperator? (readNegated nested))
  | .negation => ReadsAs 4 readNegated stop
  | .comparison => ReadsAs 4 readComparison stop
  | .sum =>
    ReadsAs 2 (fun nested => chained sumOperator? (readProduct nested))
      (fun nested => chain sumOperator? (readProduct nested))
  | .product =>
    ReadsAs 1 (fun nested => chained productOperator? (readSigned nested))
      (fun nested => chain productOperator? (readSigned nested))
  | .signed => ReadsAs 1 readSigned stop
  | .suffixed => ReadsAs 0 readPostfix readSuffixes
  | .primary => ReadsAs 0 readPrimary stop
  | .items => fun _ levels ts e => ∀ es, e = .list es →
    ∀ depth room tries close isClose rest, room ≤ depth → Closes close isClose → ts.length < tries →
      readItems (readNested depth) room close isClose tries (ts ++ close :: rest) =
        if levels ≤ room then .ok (es, rest) else .error .tooDeep
  | .arguments => fun _ levels ts e => ∀ es, e = .list es →
    ∀ depth room close isClose rest, room ≤ depth → Closes close isClose →
      readList (readNested depth) room close isClose (ts ++ close :: rest) =
        if levels ≤ room then .ok (es, rest) else .error .tooDeep

variable {looseness looseness' : Nat} {reader operand : PhraseReader}
  {goOn : (Nat → Reader Expression) → Nat → Expression → Reader Expression}

/-- Something more that takes a level for good, and so many on the way. -/
theorem ReadsAs.extend {m : Nat} {more : List Token} {e' : Expression}
    (before : ReadsAs looseness reader goOn k n ts e)
    (goes : ∀ depth room rest, room ≤ depth → Looser looseness rest →
      Looser looseness (more ++ rest) ∧
      goOn (readNested depth) room e (more ++ rest) =
        if m + 1 ≤ room then goOn (readNested depth) (room - 1) e' rest else .error .tooDeep) :
    ReadsAs looseness reader goOn (k + 1) (max n (k + 1 + m)) (ts ++ more) e' := by
  refine ⟨fun depth room rest enough looser => ?_⟩
  obtain ⟨looser', goes⟩ := goes depth (room - k) rest (by omega) looser
  rw [List.append_assoc, before.read depth room _ enough looser']
  by_cases fits : n ≤ room
  · by_cases fits' : m + 1 ≤ room - k
    · rw [if_pos fits, goes, if_pos fits', if_pos (by omega), Nat.sub_sub]
    · rw [if_pos fits, goes, if_neg fits', if_neg (by omega)]
  · rw [if_neg fits, if_neg (by omega)]

/-- A phrase ends where the reader would not go on. -/
theorem ReadsAs.ends (whole : ReadsAs looseness reader goOn k n ts e) (le : looseness ≤ looseness')
    (stops : ∀ nested room rest, Looser looseness' rest → goOn nested room e rest = .ok (e, rest)) :
    ReadsAs looseness' reader stop 0 n ts e := by
  refine ⟨fun depth room rest enough looser => ?_⟩
  rw [whole.read depth room rest enough (looser.mono le), stops _ _ rest looser]
  rfl

/-- A phrase that the reader of another one reads, since it does not start with a token of that. -/
theorem ReadsAs.pass {reader' : PhraseReader} (inner : ReadsAs looseness reader stop k n ts e)
    (passes : ∀ nested room rest, reader' nested room (ts ++ rest) = reader nested room (ts ++ rest)) :
    ReadsAs looseness reader' stop 0 n ts e := by
  refine ⟨fun depth room rest enough looser => ?_⟩
  rw [passes _ _ rest, inner.read depth room rest enough looser]
  rfl

/-- A sign in front, which opens a level. -/
theorem ReadsAs.prefixed {token : Token} {op : UnaryOp}
    (inner : ReadsAs looseness reader stop k n ts e)
    (zero : ∀ nested rest, reader nested 0 (token :: rest) = .error .tooDeep)
    (succ : ∀ nested room rest, reader nested (room + 1) (token :: rest) =
      (reader nested room rest).map fun (e, rest) => (.unary op e, rest)) :
    ReadsAs looseness reader stop 0 (n + 1) (token :: ts) (.unary op e) := by
  refine ⟨fun depth room rest enough looser => ?_⟩
  rw [List.cons_append]
  cases room with
  | zero => exact zero _ _
  | succ room =>
    rw [succ, inner.read depth room rest (by omega) looser]
    by_cases fits : n ≤ room
    · simp [fits, stop, Except.map]
    · simp [fits, Except.map]

/-! ### Chains -/

section Chain

variable {operator? : Token → Option BinaryOp} {f : Nat → Reader Expression} {room : Nat}
  {left : Expression} {token : Token} {rest : List Token} {op : BinaryOp}

theorem chain_none (ended : operator? token = none) :
    chain operator? f room left (token :: rest) = .ok (left, token :: rest) := by
  unfold chain
  rw [ended]

theorem chain_zero (operator : operator? token = some op) :
    chain operator? f 0 left (token :: rest) = .error .tooDeep := by
  unfold chain
  rw [operator]

theorem chain_succ (operator : operator? token = some op) :
    chain operator? f (room + 1) left (token :: rest) =
      (f room rest).bind fun (right, rest) => chain operator? f room (.binary op left right) rest := by
  conv => lhs; unfold chain
  rw [operator]
  dsimp only
  cases f room rest <;> rfl

/-- A chain ends where no operator follows. -/
theorem chain_stops (binds : Binds operator? looseness) (looser : Looser looseness rest) :
    chain operator? f room left rest = .ok (left, rest) := by
  cases rest with
  | nil => simp [chain]
  | cons token rest => exact chain_none (binds.eq_none (looser_cons.mp looser))

/-- A chain ends where the next token binds more loosely. -/
theorem ReadsAs.chainEnds
    (whole : ReadsAs looseness reader (fun nested => chain operator? (operand nested)) k n ts e)
    (binds : Binds operator? looseness') (le : looseness ≤ looseness') :
    ReadsAs looseness' reader stop 0 n ts e :=
  whole.ends le fun _ _ _ looser => chain_stops binds looser

/-- A chain starts with its first operand. -/
theorem ReadsAs.first (inner : ReadsAs looseness operand stop k n ts e) :
    ReadsAs looseness (fun nested => chained operator? (operand nested))
      (fun nested => chain operator? (operand nested)) 0 n ts e := by
  refine ⟨fun depth room rest enough looser => ?_⟩
  simp only [chained, inner.read depth room rest enough looser]
  by_cases fits : n ≤ room
  · simp [fits, stop]
  · simp [fits]

/-- A chain goes on with an operator and an operand. -/
theorem ReadsAs.next {k' m : Nat} {ts' : List Token} {right : Expression}
    (before : ReadsAs looseness reader (fun nested => chain operator? (operand nested)) k n ts left)
    (binds : Binds operator? looseness') (looser : looseness < looseness')
    (operator : operator? token = some op) (inner : ReadsAs looseness operand stop k' m ts' right) :
    ReadsAs looseness reader (fun nested => chain operator? (operand nested)) (k + 1)
      (max n (k + 1 + m)) (ts ++ token :: ts') (.binary op left right) := by
  have loose : looseness < token.looseness := by rwa [binds token op operator]
  refine before.extend fun depth room rest enough looser => ⟨looser_cons.mpr loose, ?_⟩
  cases room with
  | zero => exact chain_zero operator
  | succ room =>
    rw [List.cons_append, chain_succ operator, inner.read depth room rest (by omega) looser]
    by_cases fits : m ≤ room
    · simp [fits, stop, Except.bind]
    · simp [fits, Except.bind]

end Chain

/-! ### Comparisons -/

theorem ReadsAs.alone (inner : ReadsAs 3 readSum stop k n ts e) :
    ReadsAs 4 readComparison stop 0 n ts e := by
  refine ⟨fun depth room rest enough looser => ?_⟩
  rw [readComparison, inner.read depth room rest enough (looser.mono (by decide))]
  by_cases fits : n ≤ room
  · simp only [fits, stop, if_true]
    cases rest with
    | nil => rfl
    | cons token rest => simp only [binds_comparisonOperator.eq_none (looser_cons.mp looser)]
  · simp [fits]

/-- A comparison takes one operator and no more. -/
theorem ReadsAs.compared {m k' : Nat} {ts' : List Token} {right : Expression} {token : Token}
    {op : BinaryOp} (before : ReadsAs 3 readSum stop k n ts e)
    (operator : comparisonOperator? token = some op)
    (inner : ReadsAs 3 readSum stop k' m ts' right) :
    ReadsAs 4 readComparison stop 0 (max n m) (ts ++ token :: ts') (.binary op e right) := by
  refine ⟨fun depth room rest enough looser => ?_⟩
  have loose : 3 < token.looseness := by
    rw [binds_comparisonOperator token op operator]
    decide
  rw [List.append_assoc, List.cons_append, readComparison,
    before.read depth room _ enough (looser_cons.mpr loose)]
  by_cases fits : n ≤ room
  · simp only [fits, stop, if_true, operator,
      inner.read depth room rest enough (looser.mono (by decide))]
    by_cases fits' : m ≤ room
    · rw [if_pos fits', if_pos (by omega)]
    · rw [if_neg fits', if_neg (by omega)]
  · rw [if_neg fits, if_neg (by omega)]

/-! ### Suffixes -/

theorem ReadsAs.bare (inner : ReadsAs 0 readPrimary stop k n ts e) :
    ReadsAs 0 readPostfix readSuffixes 0 n ts e := by
  refine ⟨fun depth room rest enough looser => ?_⟩
  rw [readPostfix, inner.read depth room rest enough looser]
  by_cases fits : n ≤ room
  · simp [fits, stop]
  · simp [fits]

/-- Behind a primary with suffixes, nothing follows that is no suffix. -/
theorem readSuffixes_stops {nested : Nat → Reader Expression} {room : Nat} {rest : List Token}
    (looser : Looser 1 rest) : readSuffixes nested room e rest = .ok (e, rest) := by
  cases rest with
  | nil => cases room <;> rfl
  | cons token rest =>
    rw [looser_cons] at looser
    cases token <;> first
      | exact absurd looser (by decide)
      | (cases room <;> rfl)

theorem readSuffixes_attr {nested : Nat → Reader Expression} {room : Nat} {name : String}
    {rest : List Token} :
    readSuffixes nested room e ([.dot, .name name] ++ rest) =
      if 0 + 1 ≤ room then readSuffixes nested (room - 1) (.attr e name) rest else .error .tooDeep := by
  cases room <;> rfl

theorem readSuffixes_index {depth room m : Nat} {ts : List Token} {position : Expression}
    {rest : List Token} (enough : room ≤ depth) (inner : ReadsAs 6 id stop k m ts position) :
    readSuffixes (readNested depth) room e (.openBracket :: (ts ++ [.closeBracket]) ++ rest) =
      if m + 1 ≤ room then readSuffixes (readNested depth) (room - 1) (.index e position) rest
      else .error .tooDeep := by
  cases room with
  | zero => rfl
  | succ room =>
    have read := inner.read depth room (.closeBracket :: rest) (by omega) (by simp [Token.looseness])
    simp only [id] at read
    simp only [List.cons_append, List.append_assoc, List.nil_append, readSuffixes, read]
    by_cases fits : m ≤ room
    · simp [fits, stop, expectClose, isCloseBracket]
    · simp [fits]

/-! ### Primaries -/

theorem readPrimary_literal {token : Token} {value : Value} (stands : token.value? = some value) :
    ReadsAs 0 readPrimary stop 0 0 [token] (.literal value) := by
  refine ⟨fun depth room rest enough looser => ?_⟩
  unfold Token.value? at stands
  split at stands <;> first
    | (cases stands; rfl)
    | cases stands

theorem readPrimary_var (name : String) : ReadsAs 0 readPrimary stop 0 0 [.name name] (.var name) := by
  refine ⟨fun depth room rest enough looser => ?_⟩
  cases rest with
  | nil => rfl
  | cons token rest =>
    rw [looser_cons] at looser
    cases token <;> first
      | exact absurd looser (by decide)
      | rfl

theorem readPrimary_parens (inner : ReadsAs 6 id stop k n ts e) :
    ReadsAs 0 readPrimary stop 0 n (.openParen :: (ts ++ [.closeParen])) e := by
  refine ⟨fun depth room rest enough looser => ?_⟩
  have read := inner.read depth room (.closeParen :: rest) enough (by simp [Token.looseness])
  simp only [id] at read
  simp only [List.cons_append, List.append_assoc, List.nil_append, readPrimary, read]
  by_cases fits : n ≤ room
  · simp [fits, stop, expectClose, isCloseParen]
  · simp [fits]

theorem readPrimary_call {es : List Expression} (name : String)
    (inner : Reads .arguments k n ts (.list es)) :
    ReadsAs 0 readPrimary stop 0 n (.name name :: .openParen :: (ts ++ [.closeParen]))
      (.call name es) := by
  refine ⟨fun depth room rest enough looser => ?_⟩
  have read := inner es rfl depth room .closeParen isCloseParen rest enough .paren
  simp only [List.cons_append, List.append_assoc, List.nil_append, readPrimary, read]
  by_cases fits : n ≤ room
  · simp [fits, stop]
  · simp [fits]

theorem readPrimary_list {es : List Expression} (inner : Reads .arguments k n ts (.list es)) :
    ReadsAs 0 readPrimary stop 0 n (.openBracket :: (ts ++ [.closeBracket])) (.list es) := by
  refine ⟨fun depth room rest enough looser => ?_⟩
  have read := inner es rfl depth room .closeBracket isCloseBracket rest enough .bracket
  simp only [List.cons_append, List.append_assoc, List.nil_append, readPrimary, read]
  by_cases fits : n ≤ room
  · simp [fits, stop]
  · simp [fits]

/-! ### Lists -/

section Lists

variable {depth room tries : Nat} {close : Token} {isClose : Token → Bool} {rest : List Token}

theorem readItems_last (enough : room ≤ depth) (closes : Closes close isClose)
    (inner : ReadsAs 6 id stop k n ts e) :
    readItems (readNested depth) room close isClose (tries + 1) (ts ++ close :: rest) =
      if n ≤ room then .ok ([e], rest) else .error .tooDeep := by
  have read := inner.read depth room (close :: rest) enough (by cases closes <;> simp [Token.looseness])
  simp only [id] at read
  rw [readItems, read]
  by_cases fits : n ≤ room
  · cases closes <;> simp [fits, stop, expectClose, isCloseParen, isCloseBracket]
  · simp [fits]

/-- An item with a comma behind it is followed by more of them. -/
theorem readItems_more (enough : room ≤ depth) (inner : ReadsAs 6 id stop k n ts e) :
    readItems (readNested depth) room close isClose (tries + 1) (ts ++ .comma :: rest) =
      if n ≤ room then
        (readItems (readNested depth) room close isClose tries rest).map
          fun (es, rest) => (e :: es, rest)
      else .error .tooDeep := by
  have read := inner.read depth room (.comma :: rest) enough (by simp [Token.looseness])
  simp only [id] at read
  rw [readItems, read]
  by_cases fits : n ≤ room
  · simp only [fits, stop, if_true]
    cases readItems (readNested depth) room close isClose tries rest <;> rfl
  · simp [fits]

end Lists

/-! ### All phrases -/

theorem readNested_of_disjunction (inner : Reads .disjunction k n ts e) :
    Reads .expression 0 (n + 1) ts e := by
  refine ⟨fun depth room rest enough looser => ?_⟩
  have ended := ReadsAs.chainEnds inner Chained.disjunction.binds (by decide)
  match depth, room with
  | 0, 0 => rfl
  | _ + 1, 0 => rfl
  | depth + 1, room + 1 =>
    have read := ended.read depth room rest (by omega) looser
    rw [readNested, id, readDisjunction, read]
    simp [stop]

/-- What is derived is read, if there are levels enough for it; if not, that is the complaint. -/
theorem Derives.reads (d : Derives p k n ts e) : Reads p k n ts e := by
  induction d with
  | whole _ ih => exact readNested_of_disjunction ih
  | first chained _ ih =>
    cases chained with
    | disjunction => exact (ReadsAs.chainEnds ih Chained.conjunction.binds (by decide)).first
    | conjunction => exact ReadsAs.first ih
    | sum => exact (ReadsAs.chainEnds ih Chained.product.binds (by decide)).first
    | product => exact ReadsAs.first ih
  | next chained _ operator _ ih ih' =>
    cases chained with
    | disjunction =>
      exact ReadsAs.next ih Chained.disjunction.binds (by decide) operator
        (ReadsAs.chainEnds ih' Chained.conjunction.binds (by decide))
    | conjunction => exact ReadsAs.next ih Chained.conjunction.binds (by decide) operator ih'
    | sum =>
      exact ReadsAs.next ih Chained.sum.binds (by decide) operator
        (ReadsAs.chainEnds ih' Chained.product.binds (by decide))
    | product => exact ReadsAs.next ih Chained.product.binds (by decide) operator ih'
  | affirmed d ih =>
    -- No comparison starts with `not`, so the reader of negations hands it on as it is.
    refine ReadsAs.pass ih fun nested room rest => ?_
    obtain ⟨token, ts, rfl, le⟩ := d.exists_cons (by decide)
    cases token <;> first
      | exact absurd le (by decide)
      | (cases room <;> rfl)
  | negated _ ih =>
    refine ReadsAs.prefixed ih (fun _ _ => rfl) fun nested room rest => ?_
    rw [readNegated]
    cases readNegated nested room rest <;> rfl
  | alone _ ih => exact ReadsAs.alone (ReadsAs.chainEnds ih Chained.sum.binds (by decide))
  | compared _ operator _ ih ih' =>
    exact ReadsAs.compared (ReadsAs.chainEnds ih Chained.sum.binds (by decide)) operator
      (ReadsAs.chainEnds ih' Chained.sum.binds (by decide))
  | unsigned d ih =>
    have ended := ReadsAs.ends ih (Nat.zero_le 1) fun _ _ _ looser => readSuffixes_stops looser
    refine ended.pass fun nested room rest => ?_
    obtain ⟨token, ts, rfl, le⟩ := d.exists_cons (by decide)
    cases token <;> first
      | exact absurd le (by decide)
      | (cases room <;> rfl)
  | minus _ ih =>
    refine ReadsAs.prefixed ih (fun _ _ => rfl) fun nested room rest => ?_
    rw [readSigned]
    cases readSigned nested room rest <;> rfl
  | bare _ ih => exact ReadsAs.bare ih
  | attr name _ ih =>
    exact ReadsAs.extend ih fun depth room rest _ _ => ⟨by simp [Token.looseness], readSuffixes_attr⟩
  | index _ _ ih ih' =>
    exact ReadsAs.extend ih fun depth room rest enough _ =>
      ⟨by simp [Token.looseness], readSuffixes_index enough ih'⟩
  | literal stands => exact readPrimary_literal stands
  | root => exact ⟨fun depth room rest enough looser => rfl⟩
  | var name => exact readPrimary_var name
  | call name _ ih => exact readPrimary_call name ih
  | parens _ ih => exact readPrimary_parens ih
  | list _ ih => exact readPrimary_list ih
  -- There are more tries than tokens, and every item has a token at least.
  | last _ ih =>
    intro es same depth room tries close isClose rest enough closes more
    cases same
    obtain ⟨tries, rfl⟩ := Nat.exists_eq_succ_of_ne_zero (Nat.ne_zero_of_lt more)
    exact readItems_last enough closes ih
  | @more k n k' m ts ts' e es _ _ ih ih' =>
    intro _ same depth room tries close isClose rest enough closes more
    cases same
    simp only [List.length_append, List.length_cons] at more
    obtain ⟨tries, rfl⟩ := Nat.exists_eq_succ_of_ne_zero (Nat.ne_zero_of_lt more)
    rw [List.append_assoc, List.cons_append, readItems_more enough ih,
      ih' es rfl depth room tries close isClose rest enough closes (by omega)]
    by_cases fits : n ≤ room
    · by_cases fits' : m ≤ room
      · rw [if_pos fits, if_pos fits', if_pos (by omega)]
        rfl
      · rw [if_pos fits, if_neg fits', if_neg (by omega)]
        rfl
    · rw [if_neg fits, if_neg (by omega)]
  | empty =>
    intro es same depth room close isClose rest enough closes
    cases same
    cases closes <;> rfl
  | listed d ih =>
    -- No item starts with the token that closes the list, so the list is not taken for an empty one.
    intro es same depth room close isClose rest enough closes
    obtain ⟨token, ts, rfl, le⟩ := d.exists_cons (by decide)
    have read := ih es same depth room (ts.length + (rest.length + 1) + 1) close isClose rest enough
      closes (by simp)
    have opens : isClose token = false := by
      cases closes <;> cases token <;> first | rfl | exact absurd le (by decide)
    simpa [readList, opens] using read

end Workflow.Expression
