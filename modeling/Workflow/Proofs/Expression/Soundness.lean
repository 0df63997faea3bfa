import Workflow.Proofs.Expression.Completeness

/-!
What is read is derived: every reader uses tokens that are its phrase, and the derivation takes no
more levels than the reader had.
-/

namespace Workflow.Expression

variable {p : Phrase} {k n : Nat} {ts : List Token} {e : Expression}

/-- The tokens that were used, together with some of those that are left, are a phrase that takes no more
levels than these. -/
def Found (p : Phrase) (levels : Nat) (used ts : List Token) (e : Expression) (rest : List Token) :
    Prop :=
  ∃ more k n, ts = more ++ rest ∧ Derives p k n (used ++ more) e ∧ n ≤ levels

/-- What the reader reads is such a phrase. -/
def Sound (p : Phrase) (reader : Nat → Reader Expression) : Prop :=
  ∀ room ts e rest, reader room ts = .ok (e, rest) → Found p room [] ts e rest

section Sound

variable {operator? : Token → Option BinaryOp} {f nested : Nat → Reader Expression} {room levels : Nat}
  {rest used : List Token} {left : Expression} {c o : Phrase}

theorem Found.here (d : Derives p k n used e) (fits : n ≤ levels) : Found p levels used ts e ts :=
  ⟨[], k, n, rfl, by simpa using d, fits⟩

theorem expectClose_eq_ok {close : Token} {isClose : Token → Bool} (closes : Closes close isClose)
    (read : expectClose close isClose ts = .ok ((), rest)) : ts = close :: rest := by
  cases ts with
  | nil => cases read
  | cons token ts =>
    simp only [expectClose] at read
    split at read
    next same =>
      cases read
      cases closes <;> cases token <;> first | rfl | cases same
    next => cases read

/-- A chain that goes on from a derived operand derives. -/
theorem chain_sound (chained : Chained c o operator?) (sound : Sound o f)
    (before : Derives c k n used left) (fits : n ≤ k + room)
    (read : chain operator? f room left ts = .ok (e, rest)) :
    Found c (k + room) used ts e rest := by
  fun_induction chain operator? f room left ts generalizing used k n with
  | case1 room left =>
    cases read
    exact .here before fits
  | case2 room left token ts ended =>
    cases read
    exact .here before fits
  | case3 => cases read
  | case4 => cases read
  | case5 left token ts op room operator right behind operand ih =>
    obtain ⟨inner, k', m, rfl, d, fits'⟩ := sound room ts (right, behind).1 (right, behind).2 operand
    obtain ⟨more, k'', n', rfl, d', fits''⟩ := ih (.next chained before operator d) (by omega) read
    exact ⟨token :: (inner ++ more), k'', n', by simp, by simpa using d', by omega⟩

theorem chained_sound (chained : Chained c o operator?) (sound : Sound o f) :
    Sound c (Expression.chained operator? f) := by
  intro room ts e rest read
  unfold Expression.chained at read
  split at read
  · cases read
  next left behind operand =>
    obtain ⟨inner, k, n, rfl, d, fits⟩ := sound room ts left behind operand
    obtain ⟨more, k', n', rfl, d', fits'⟩ := chain_sound chained sound (.first chained d) (by omega) read
    exact ⟨inner ++ more, k', n', by simp, d', by omega⟩

variable (sound : Sound .expression nested)
include sound

/-- The items up to the closing token derive. -/
theorem readItems_sound {close : Token} {isClose : Token → Bool} {tries : Nat} {es : List Expression}
    (closes : Closes close isClose)
    (read : readItems nested room close isClose tries ts = .ok (es, rest)) :
    ∃ inner k n, ts = inner ++ close :: rest ∧ Derives .items k n inner (.list es) ∧ n ≤ room := by
  fun_induction readItems nested room close isClose tries ts generalizing es with
  | case1 => cases read
  | case2 => cases read
  | case3 => cases read
  | case4 tries ts item behind inner items rest' list ih =>
    cases read
    obtain ⟨used, k, n, rfl, d, fits⟩ := sound _ _ _ _ inner
    obtain ⟨more, k', n', rfl, d', fits'⟩ := ih list
    exact ⟨used ++ .comma :: more, 0, max n n', by simp, .more d d', by omega⟩
  | case5 => cases read
  | case6 tries ts item behind _ inner rest' ended =>
    cases read
    obtain ⟨used, k, n, rfl, d, fits⟩ := sound _ _ _ _ inner
    rw [expectClose_eq_ok closes ended]
    exact ⟨used, 0, n, rfl, .last d, fits⟩

theorem readList_sound {close : Token} {isClose : Token → Bool} {es : List Expression}
    (closes : Closes close isClose) (read : readList nested room close isClose ts = .ok (es, rest)) :
    ∃ inner k n, ts = inner ++ close :: rest ∧ Derives .arguments k n inner (.list es) ∧ n ≤ room := by
  have nonempty {tries : Nat} (read : readItems nested room close isClose tries ts = .ok (es, rest)) :
      ∃ inner k n, ts = inner ++ close :: rest ∧ Derives .arguments k n inner (.list es) ∧ n ≤ room := by
    obtain ⟨inner, k, n, rfl, d, fits⟩ := readItems_sound sound closes read
    exact ⟨inner, 0, n, rfl, .listed d, fits⟩
  cases ts with
  | nil => exact nonempty (by simpa [readList] using read)
  | cons token ts =>
    by_cases same : isClose token = true
    · rw [readList, if_pos same] at read
      cases read
      refine ⟨[], 0, 0, ?_, .empty, Nat.zero_le _⟩
      cases closes <;> cases token <;> first | rfl | cases same
    · rw [readList, if_neg same] at read
      exact nonempty read

/-- A primary that is read derives, if the expressions inside of it do. -/
theorem readPrimary_sound : Sound .primary (readPrimary nested) := by
  intro room ts e rest
  fun_cases readPrimary nested room ts with
  | case1 | case9 | case10 | case12 | case14 | case17 => nofun
  | case2 | case3 | case4 | case5 | case6 | case7 =>
    rintro ⟨⟩
    exact ⟨[_], 0, 0, rfl, .literal rfl, Nat.zero_le _⟩
  | case8 =>
    rintro ⟨⟩
    exact ⟨[_], 0, 0, rfl, .root, Nat.zero_le _⟩
  | case11 ts inner behind found rest' ended =>
    rintro ⟨⟩
    obtain ⟨used, k, n, rfl, d, fits⟩ := sound _ _ _ _ found
    rw [expectClose_eq_ok .paren ended]
    refine ⟨.openParen :: (used ++ [.closeParen]), 0, n, by simp, ?_, fits⟩
    exact .parens d
  | case13 ts items behind found =>
    rintro ⟨⟩
    obtain ⟨inner, k, n, rfl, d, fits⟩ := readList_sound sound .bracket found
    refine ⟨.openBracket :: (inner ++ [.closeBracket]), 0, n, by simp, ?_, fits⟩
    exact .list d
  | case15 name ts items behind found =>
    rintro ⟨⟩
    obtain ⟨inner, k, n, rfl, d, fits⟩ := readList_sound sound .paren found
    refine ⟨.name name :: .openParen :: (inner ++ [.closeParen]), 0, n, by simp, ?_, fits⟩
    exact .call name d
  | case16 name =>
    rintro ⟨⟩
    exact ⟨[_], 0, 0, rfl, .var name, Nat.zero_le _⟩

/-- Attributes and indices behind a primary derive. -/
theorem readSuffixes_sound (before : Derives .suffixed k n used left) (fits : n ≤ k + room)
    (read : readSuffixes nested room left ts = .ok (e, rest)) :
    Found .suffixed (k + room) used ts e rest := by
  fun_induction readSuffixes nested room left ts generalizing used k n with
  | case1 | case2 | case5 | case6 | case7 | case8 => cases read
  | case3 | case10 =>
    cases read
    exact .here before fits
  | case4 room base name ts ih =>
    obtain ⟨more, k', n', rfl, d, fits'⟩ := ih (.attr name before) (by omega) read
    exact ⟨.dot :: .name name :: more, k', n', by simp, by simpa using d, by omega⟩
  | case9 room base ts position behind inner rest' ended ih =>
    obtain ⟨index, _, m, rfl, d, fits'⟩ := sound _ _ _ _ inner
    rw [expectClose_eq_ok .bracket ended]
    obtain ⟨more, k', n', rfl, d', fits''⟩ := ih (.index before d) (by omega) read
    exact ⟨.openBracket :: (index ++ .closeBracket :: more), k', n', by simp, by simpa using d',
      by omega⟩

theorem readPostfix_sound : Sound .suffixed (readPostfix nested) := by
  intro room ts e rest read
  unfold readPostfix at read
  split at read
  · cases read
  next base behind found =>
    obtain ⟨inner, k, n, rfl, d, fits⟩ := readPrimary_sound sound room ts base behind found
    obtain ⟨more, k', n', rfl, d', fits'⟩ := readSuffixes_sound sound (.bare d) (by omega) read
    exact ⟨inner ++ more, k', n', by simp, d', by omega⟩

theorem readSigned_sound : Sound .signed (readSigned nested) := by
  intro room ts e rest read
  fun_induction readSigned nested room ts generalizing e with
  | case1 | case2 => cases read
  | case3 room ts operand behind found ih =>
    cases read
    obtain ⟨inner, k, n, rfl, d, fits⟩ := ih operand found
    exact ⟨.minus :: inner, 0, n + 1, rfl, .minus d, by omega⟩
  | case4 room ts =>
    obtain ⟨inner, k, n, rfl, d, fits⟩ := readPostfix_sound sound room ts e rest read
    exact ⟨inner, 0, n, rfl, .unsigned d, fits⟩

theorem readSum_sound : Sound .sum (readSum nested) :=
  chained_sound .sum (chained_sound .product (readSigned_sound sound))

theorem readComparison_sound : Sound .comparison (readComparison nested) := by
  have sum := readSum_sound sound
  intro room ts e rest
  fun_cases readComparison nested room ts with
  | case1 | case4 => nofun
  | case2 left found | case3 left _ _ found =>
    rintro ⟨⟩
    obtain ⟨inner, k, n, rfl, d, fits⟩ := sum _ _ _ _ found
    exact ⟨inner, 0, n, rfl, .alone d, fits⟩
  | case5 left token behind found op operator right rest' found' =>
    rintro ⟨⟩
    obtain ⟨inner, k, n, rfl, d, fits⟩ := sum _ _ _ _ found
    obtain ⟨inner', k', m, rfl, d', fits'⟩ := sum _ _ _ _ found'
    exact ⟨inner ++ token :: inner', 0, max n m, by simp, .compared d operator d', by omega⟩

theorem readNegated_sound : Sound .negation (readNegated nested) := by
  intro room ts e rest read
  fun_induction readNegated nested room ts generalizing e with
  | case1 | case2 => cases read
  | case3 room ts operand behind found ih =>
    cases read
    obtain ⟨inner, k, n, rfl, d, fits⟩ := ih operand found
    exact ⟨.kwNot :: inner, 0, n + 1, rfl, .negated d, by omega⟩
  | case4 room ts =>
    obtain ⟨inner, k, n, rfl, d, fits⟩ := readComparison_sound sound room ts e rest read
    exact ⟨inner, 0, n, rfl, .affirmed d, fits⟩

theorem readDisjunction_sound : Sound .expression (readDisjunction nested) := by
  intro room ts e rest read
  cases room with
  | zero => cases read
  | succ room =>
    obtain ⟨inner, k, n, rfl, d, fits⟩ := chained_sound .disjunction
      (chained_sound .conjunction (readNegated_sound sound)) room ts e rest read
    exact ⟨inner, 0, n + 1, rfl, .whole d, by omega⟩

end Sound

/-- What is read in brackets is an expression. -/
theorem readNested_sound (depth : Nat) : Sound .expression (readNested depth) := by
  induction depth with
  | zero =>
    intro room ts e rest read
    cases read
  | succ depth ih => exact readDisjunction_sound ih

end Workflow.Expression
