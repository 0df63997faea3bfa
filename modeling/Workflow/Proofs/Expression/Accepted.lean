import Workflow.Proofs.Expression.Soundness

/-!
The lists of tokens that are accepted: those of the grammar that open no more levels than there are,
each with the one tree that it has.
-/

namespace Workflow.Expression

variable {p : Phrase} {k n : Nat} {ts : List Token} {e : Expression}

/-- Some tokens of a phrase open no level. -/
def Phrase.spare : Phrase → Nat
  | .expression | .items | .arguments => 0
  | _ => 1

theorem Chained.spare_eq {chain operand : Phrase} {operator? : Token → Option BinaryOp}
    (chained : Chained chain operand operator?) : operand.spare = 1 ∧ chain.spare = 1 := by
  cases chained <;> exact ⟨rfl, rfl⟩

/-- A phrase opens no more levels than it has tokens. -/
theorem Derives.levels_le (d : Derives p k n ts e) :
    k + p.spare ≤ ts.length ∧ n + p.spare ≤ ts.length := by
  induction d with
  | first chained _ ih =>
    have spare := chained.spare_eq
    omega
  | next chained _ _ _ ih ih' =>
    have spare := chained.spare_eq
    simp only [List.length_append, List.length_cons]
    omega
  | whole _ ih | affirmed _ ih | negated _ ih | alone _ ih | unsigned _ ih | minus _ ih | bare _ ih
  | last _ ih | attr _ _ ih | call _ _ ih | parens _ ih | list _ ih | listed _ ih =>
    simp only [Phrase.spare, List.length_append, List.length_cons, List.length_nil] at ih ⊢
    omega
  | compared _ _ _ ih ih' | index _ _ ih ih' | more _ _ ih ih' =>
    simp only [Phrase.spare, List.length_append, List.length_cons, List.length_nil] at ih ih' ⊢
    omega
  | literal _ | root | var _ | empty => exact ⟨Nat.le_refl _, Nat.le_refl _⟩

/-- A derived expression is read just if there are as many levels as it takes. -/
theorem readNested_of_derives {depth room : Nat} (d : Derives .expression k n ts e)
    (enough : room ≤ depth) :
    readNested depth room ts = if n ≤ room then .ok (e, []) else .error .tooDeep := by
  have read := d.reads.read depth room [] enough looser_nil
  simpa [stop] using read

/-- Tokens that are an expression are read as its tree, if they do not nest too deep. -/
theorem ofTokens_of_derives (d : Derives .expression k n ts e) :
    ofTokens ts = if n ≤ maxDepth then .ok e else .error .tooDeep := by
  obtain ⟨token, rest, rfl, _⟩ := d.exists_cons (by decide)
  simp only [ofTokens]
  rw [readNested_of_derives d (Nat.le_succ maxDepth)]
  by_cases fits : n ≤ maxDepth
  · simp [fits]
  · simp [fits]

/-- What is accepted is what is derived within the greatest depth. -/
theorem ofTokens_eq_ok_iff :
    ofTokens ts = .ok e ↔ ∃ k, ∃ n ≤ maxDepth, Derives .expression k n ts e := by
  constructor
  · intro read
    unfold ofTokens at read
    split at read
    · cases read
    · split at read
      · cases read
      next found =>
        cases read
        obtain ⟨used, k, n, rfl, d, fits⟩ := readNested_sound _ _ _ _ _ found
        exact ⟨k, n, fits, by simpa using d⟩
      · cases read
  · rintro ⟨k, n, fits, d⟩
    rw [ofTokens_of_derives d, if_pos fits]

theorem parse_eq_ok_iff {cs : List Char} :
    parse cs = .ok e ↔ ∃ tokens, tokenize cs = .ok tokens ∧ ofTokens tokens = .ok e := by
  unfold parse
  cases tokenize cs <;> simp

/-- No tokens are two expressions. -/
theorem IsExpression.unique {e' : Expression} (is : IsExpression ts e)
    (is' : IsExpression ts e') : e = e' := by
  obtain ⟨_, n, d⟩ := is
  obtain ⟨_, n', d'⟩ := is'
  have read := readNested_of_derives d (Nat.le_refl (max n n'))
  have read' := readNested_of_derives d' (Nat.le_refl (max n n'))
  rw [if_pos (by omega)] at read read'
  rw [read] at read'
  cases read'
  rfl

/-- The reader of expressions follows the grammar. What it accepts is an expression with that tree; an
expression is read as its tree, unless it nests too deep, and no shorter list of tokens than there are
levels does that; and no list of tokens has two trees. -/
theorem ofTokens_follows_grammar (tokens : List Token) (e : Expression) :
    (ofTokens tokens = .ok e → IsExpression tokens e) ∧
      (IsExpression tokens e →
        (ofTokens tokens = .ok e ∨ ofTokens tokens = .error .tooDeep) ∧
        (tokens.length ≤ maxDepth → ofTokens tokens = .ok e) ∧
        ∀ e', IsExpression tokens e' → e' = e) := by
  constructor
  · intro read
    obtain ⟨k, n, _, d⟩ := ofTokens_eq_ok_iff.mp read
    exact ⟨k, n, d⟩
  · intro is
    obtain ⟨k, n, d⟩ := id is
    have read := ofTokens_of_derives d
    refine ⟨?_, fun short => ?_, fun e' is' => is'.unique is⟩
    · by_cases fits : n ≤ maxDepth
      · exact .inl (by rw [read, if_pos fits])
      · exact .inr (by rw [read, if_neg fits])
    · have levels : n ≤ tokens.length := d.levels_le.2
      rw [read, if_pos (Nat.le_trans levels short)]

/-- In `$ + $ * $`, the product is the second operand. -/
theorem sum_of_product_follows_grammar :
    let tokens := [Token.dollar, .plus, .dollar, .star, .dollar]
    let e := binary .add root (binary .multiply root root)
    ofTokens tokens = .ok e ∧ IsExpression tokens e ∧ ∀ e', IsExpression tokens e' → e' = e := by
  intro tokens e
  have read : ofTokens tokens = .ok e := rfl
  have is : IsExpression tokens e := (ofTokens_follows_grammar tokens e).1 read
  have follows := (ofTokens_follows_grammar tokens e).2 is
  exact ⟨follows.2.1 (by decide), is, follows.2.2⟩

end Workflow.Expression
