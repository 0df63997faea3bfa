import Workflow.Proofs.Expression.Accepted
import Workflow.Proofs.Expression.Lexing

/-!
How high the trees of accepted texts are. The reader counts levels, and a level may hold more nodes
than one: comparisons, lists and calls open none, and a chain gives its levels back before it becomes
the first operand of another one. So the height is bounded, but not by the number of levels.
-/

namespace Workflow.Expression

mutual
/-- The number of nodes on the longest way from the root of the tree to a leaf. -/
def height : Expression → Nat
  | literal _ | var _ | root => 1
  | list items => heights items + 1
  | attr base _ => base.height + 1
  | index base position => max base.height position.height + 1
  | call _ arguments => heights arguments + 1
  | unary _ operand => operand.height + 1
  | binary _ left right => max left.height right.height + 1

def heights : List Expression → Nat
  | [] => 0
  | item :: items => max item.height (heights items)
end

theorem one_le_height (e : Expression) : 1 ≤ e.height := by
  cases e <;> simp [height]

/-- The height of the highest tree that so many levels allow. At the first of them, four chains and
the suffixes of a primary can stand one inside the other as first operands, each with an operator for
every level that is left, around a comparison and a list. -/
def tallest : Nat → Nat
  | 0 => 0
  | levels + 1 => tallest levels + 5 * levels + 2

theorem tallest_mono {a b : Nat} (le : a ≤ b) : tallest a ≤ tallest b := by
  induction le with
  | refl => exact Nat.le_refl _
  | step _ ih => exact Nat.le_trans ih (by simp only [tallest]; omega)

/-- 1 for the phrases that leave levels open, as chains do. -/
def Phrase.growth : Phrase → Nat
  | .disjunction | .conjunction | .sum | .product | .suffixed => 1
  | _ => 0

/-- The number of chains and suffixes in a phrase that can be first operands of each other, the
outermost of them apart. -/
def Phrase.chains : Phrase → Nat
  | .disjunction => 4
  | .conjunction | .negation | .comparison => 3
  | .sum => 2
  | .product | .signed => 1
  | _ => 0

/-- The nodes of a phrase that open no level. -/
def Phrase.free : Phrase → Nat
  | .expression => 0
  | .disjunction | .conjunction | .negation | .comparison => 2
  | _ => 1

variable {p : Phrase} {k n : Nat} {ts : List Token} {e : Expression}

/-- How high a tree can be over so many levels: operators of chains open one each, and each phrase has
a few nodes that open none. -/
theorem Derives.height_le (d : Derives p k n ts e) :
    k ≤ p.growth * n ∧ e.height ≤ tallest n + p.chains * n + p.free + k := by
  -- In a chain, `k` counts the nodes above its first operand. Once the chain is an operand itself, they
  -- are known to be `n` at most, and the levels may be used again: that is one chain more in `chains`.
  induction d with
  | whole _ ih | affirmed _ ih | negated _ ih | alone _ ih | unsigned _ ih | minus _ ih | bare _ ih
  | call _ _ ih | parens _ ih | list _ ih | last _ ih | listed _ ih =>
    simp only [Phrase.growth, Phrase.chains, Phrase.free, tallest, height, heights] at ih ⊢
    omega
  | first chained _ ih =>
    cases chained <;> simp only [Phrase.growth, Phrase.chains, Phrase.free] at ih ⊢ <;> omega
  | @next _ _ _ k n _ m _ _ _ _ _ _ chained _ _ _ ih ih' =>
    have mono := tallest_mono (Nat.le_max_left n (k + 1 + m))
    have mono' := tallest_mono (show m ≤ max n (k + 1 + m) by omega)
    cases chained <;>
      simp only [Phrase.growth, Phrase.chains, Phrase.free, height] at ih ih' ⊢ <;> omega
  | @attr k n _ _ _ _ ih =>
    have mono := tallest_mono (Nat.le_max_left n (k + 1))
    simp only [Phrase.growth, Phrase.chains, Phrase.free, height] at ih ⊢
    omega
  | @index k n _ m _ _ _ _ _ _ ih ih' =>
    have mono := tallest_mono (Nat.le_max_left n (k + 1 + m))
    have mono' := tallest_mono (show m ≤ max n (k + 1 + m) by omega)
    simp only [Phrase.growth, Phrase.chains, Phrase.free, height] at ih ih' ⊢
    omega
  | @compared _ n _ m _ _ _ _ _ _ _ _ _ ih ih' | @more _ n _ m _ _ _ _ _ _ ih ih' =>
    have mono := tallest_mono (Nat.le_max_left n m)
    have mono' := tallest_mono (Nat.le_max_right n m)
    simp only [Phrase.growth, Phrase.chains, Phrase.free, height, heights] at ih ih' ⊢
    omega
  | literal _ | root | var _ | empty => exact ⟨Nat.le_refl _, by simp [Phrase.free, height, heights]⟩

/-! ## The highest tree -/

/-- Tokens behind a phrase that put a node above its tree, and take a level for good. -/
theorem Derives.repeat (more : List Token) (wrap : Expression → Expression) (d : Derives p 0 n ts e)
    (step : ∀ k ts e, k < n → Derives p k n ts e → Derives p (k + 1) n (ts ++ more) (wrap e))
    {count : Nat} (fits : count ≤ n) :
    Derives p count n (ts ++ (List.replicate count more).flatten) (Nat.repeat wrap count e) := by
  induction count with
  | zero => simpa [Nat.repeat] using d
  | succ count ih =>
    have next := step count _ _ fits (ih (by omega))
    simpa [List.replicate_succ', Nat.repeat] using next

theorem height_repeat {wrap : Expression → Expression} {count : Nat}
    (step : ∀ e : Expression, (wrap e).height = e.height + 1) :
    (Nat.repeat wrap count e).height = e.height + count := by
  induction count with
  | zero => rfl
  | succ count ih => rw [Nat.repeat, step, ih, Nat.add_assoc]

theorem derives_dollar : Derives .signed 0 0 [.dollar] .root :=
  .unsigned (.bare .root)

theorem derives_dollar_sum : Derives .sum 0 0 [.dollar] .root :=
  .first .sum (.first .product derives_dollar)

/-- An operator above a first operand, with the context as the second one. -/
def leaning (op : BinaryOp) (e : Expression) : Expression :=
  .binary op e .root

theorem Derives.leaning {chain operand : Phrase} {operator? : Token → Option BinaryOp}
    {op : BinaryOp} {j : Nat} (d : Derives operand k n ts e)
    (chained : Chained chain operand operator?) (token : Token)
    (operator : operator? token = some op) (dollar : Derives operand j 0 [.dollar] .root) :
    Derives chain n n (ts ++ (List.replicate n [token, .dollar]).flatten)
      (Nat.repeat (Expression.leaning op) n e) := by
  refine (Derives.first chained d).repeat _ _ (fun k ts e fits before => ?_) (Nat.le_refl n)
  have next := before.next chained operator dollar
  rwa [Nat.max_eq_left (by omega)] at next

/-- So many attributes above a list, and so many operators of every chain above them: what can stand
at one level while `n` more are left. -/
def tower (n : Nat) (items : List Expression) : Expression :=
  let attrs := Nat.repeat (attr · "a") n (list items)
  let sum := Nat.repeat (leaning .add) n (Nat.repeat (leaning .multiply) n attrs)
  Nat.repeat (leaning .or) n (Nat.repeat (leaning .and) n (leaning .equal sum))

def towerTokens (n : Nat) (inner : List Token) : List Token :=
  .openBracket :: (inner ++ [.closeBracket]) ++ (List.replicate n [.dot, .name "a"]).flatten ++
    (List.replicate n [.star, .dollar]).flatten ++ (List.replicate n [.plus, .dollar]).flatten ++
    .equal :: [.dollar] ++ (List.replicate n [.kwAnd, .dollar]).flatten ++
    (List.replicate n [.kwOr, .dollar]).flatten

theorem Derives.tower {es : List Expression} (d : Derives .arguments k n ts (.list es)) :
    Derives .expression 0 (n + 1) (towerTokens n ts) (tower n es) := by
  have negation : Derives .negation 0 0 [.dollar] .root := .affirmed (.alone derives_dollar_sum)
  have attrs := (Derives.bare (.list d)).repeat [.dot, .name "a"] (Expression.attr · "a")
    (fun k ts e fits before => by
      have next := before.attr "a"
      rwa [Nat.max_eq_left (by omega)] at next) (Nat.le_refl n)
  have product := (Derives.unsigned attrs).leaning .product .star rfl derives_dollar
  have sum := product.leaning .sum .plus rfl (.first .product derives_dollar)
  have comparison :=
    Derives.compared sum (show comparisonOperator? .equal = some .equal from rfl) derives_dollar_sum
  rw [Nat.max_eq_left (Nat.zero_le n)] at comparison
  have conjunction := (Derives.affirmed comparison).leaning .conjunction .kwAnd rfl negation
  have disjunction :=
    conjunction.leaning .disjunction .kwOr rfl (.first .conjunction negation)
  simpa [towerTokens, Expression.tower, Expression.leaning] using Derives.whole disjunction

theorem height_leaning {op : BinaryOp} : (leaning op e).height = e.height + 1 := by
  have pos := e.one_le_height
  simp only [leaning, height]
  omega

theorem height_repeat_leaning {op : BinaryOp} {count : Nat} :
    (Nat.repeat (leaning op) count e).height = e.height + count :=
  height_repeat fun _ => height_leaning

/-- A tower is as high as its items and five nodes for each level. -/
theorem height_tower (n : Nat) (items : List Expression) :
    (tower n items).height = heights items + 5 * n + 2 := by
  have attrs : (Nat.repeat (attr · "a") n (list items)).height = heights items + 1 + n := by
    rw [height_repeat fun e => by rw [height], height]
  simp only [tower, height_repeat_leaning, height_leaning, attrs]
  omega

/-- A tower of so many levels on top of each other, as the items of a list: none without levels. -/
def tallItems : Nat → List Expression
  | 0 => []
  | n + 1 => [tower n (tallItems n)]

def tallTokens : Nat → List Token
  | 0 => []
  | n + 1 => towerTokens n (tallTokens n)

/-- At a depth of `n`, a list of towers nested `n` deep is still within reach of the grammar. -/
theorem derives_tallItems (n : Nat) :
    Derives .arguments 0 n (tallTokens n) (.list (tallItems n)) := by
  induction n with
  | zero => exact .empty
  | succ n ih => exact .listed (.last ih.tower)

theorem heights_tallItems (n : Nat) : heights (tallItems n) = tallest n := by
  induction n with
  | zero => rfl
  | succ n ih => rw [tallItems, heights, heights, height_tower, ih, Nat.max_zero, tallest]

/-! ## Its text -/

theorem lexes_open : Lexes ['['] [.openBracket] :=
  lexes_symbol (by decide) (by decide) (by decide) (by decide) rfl fun _ => rfl

theorem lexes_close : Lexes [']'] [.closeBracket] :=
  lexes_symbol (by decide) (by decide) (by decide) (by decide) rfl fun _ => rfl

theorem lexes_minus : Lexes ['-'] [.minus] :=
  lexes_symbol (by decide) (by decide) (by decide) (by decide) rfl fun _ => rfl

theorem lexes_dollar : Lexes ['$'] [.dollar] :=
  lexes_symbol (by decide) (by decide) (by decide) (by decide) rfl fun _ => rfl

theorem lexes_star : Lexes ['*'] [.star] :=
  lexes_symbol (by decide) (by decide) (by decide) (by decide) rfl fun _ => rfl

theorem lexes_plus : Lexes ['+'] [.plus] :=
  lexes_symbol (by decide) (by decide) (by decide) (by decide) rfl fun _ => rfl

theorem lexes_dot : Lexes ['.'] [.dot] :=
  lexes_symbol (by decide) (by decide) (by decide) (by decide) rfl fun _ => rfl

theorem lexes_equal : Lexes ['=', '$'] [.equal, .dollar] := by
  intro total rest
  have equal : tokenAt total '=' ('$' :: rest) = .ok (.equal, '$' :: rest) := by
    rw [tokenAt_symbol (by decide) (by decide) (by decide)]
    rfl
  rw [List.cons_append, List.singleton_append, tokensFrom_token (by decide) equal,
    ← List.singleton_append (x := '$'), lexes_dollar]
  cases tokensFrom total rest <;> rfl

theorem lexes_name : Lexes ['a', ' '] [.name "a"] :=
  Lexes.word (w := []) (by decide) (by decide) (by decide) (by decide) (by simp) (by decide)
    (lexes_blank (by decide))

theorem lexes_and : Lexes ['a', 'n', 'd', '$'] [.kwAnd, .dollar] :=
  Lexes.word (w := ['n', 'd']) (by decide) (by decide) (by decide) (by decide) (by decide) (by decide)
    lexes_dollar

theorem lexes_or : Lexes ['o', 'r', '$'] [.kwOr, .dollar] :=
  Lexes.word (w := ['r']) (by decide) (by decide) (by decide) (by decide) (by decide) (by decide)
    lexes_dollar

def towerText (n : Nat) (inner : List Char) : List Char :=
  ['['] ++ inner ++ [']'] ++ (List.replicate n ['.', 'a', ' ']).flatten ++
    (List.replicate n ['*', '$']).flatten ++ (List.replicate n ['+', '$']).flatten ++
    ['=', '$'] ++ (List.replicate n ['a', 'n', 'd', '$']).flatten ++
    (List.replicate n ['o', 'r', '$']).flatten

theorem Lexes.tower {cs : List Char} (lexes : Lexes cs ts) (n : Nat) :
    Lexes (towerText n cs) (towerTokens n ts) := by
  have list := (lexes_open.append lexes).append lexes_close
  have attrs := list.append ((lexes_dot.append lexes_name).repeat n)
  have product := attrs.append ((lexes_star.append lexes_dollar).repeat n)
  have sum := product.append ((lexes_plus.append lexes_dollar).repeat n)
  have comparison := sum.append lexes_equal
  exact (comparison.append (lexes_and.repeat n)).append (lexes_or.repeat n)

def tallText : Nat → List Char
  | 0 => []
  | n + 1 => towerText n (tallText n)

theorem lexes_tallText (n : Nat) : Lexes (tallText n) (tallTokens n) := by
  induction n with
  | zero => exact .nil
  | succ n ih => exact ih.tower n

theorem parse_of_lexes {cs : List Char} (lexes : Lexes cs ts) (d : Derives .expression k n ts e)
    (fits : n ≤ maxDepth) : parse cs = .ok e := by
  rw [parse, lexes.tokenize_eq]
  dsimp only
  rw [ofTokens_of_derives d, if_pos fits]

/-! ## What is accepted -/

/-- What tokens and levels of a phrase are short of two for every node: one for a leaf, and two for the
list above items. -/
def Phrase.slack : Phrase → Nat
  | .expression => 0
  | .items | .arguments => 2
  | _ => 1

/-- Every node takes two tokens, or a token and a level. -/
theorem Derives.two_mul_height_le (d : Derives p k n ts e) :
    2 * e.height ≤ ts.length + n + p.slack := by
  induction d with
  | first chained _ ih =>
    cases chained <;> simpa only [Phrase.slack] using ih
  | next chained d _ d' ih ih' =>
    have spare := chained.spare_eq
    have some_ := d.levels_le.1
    have some' := d'.levels_le.1
    cases chained <;>
      simp only [Phrase.slack, height, List.length_append, List.length_cons] at ih ih' ⊢ <;> omega
  | compared d _ d' ih ih' =>
    have some_ := d.levels_le.1
    have some' := d'.levels_le.1
    simp only [Phrase.spare, Phrase.slack, height, List.length_append, List.length_cons]
      at some_ some' ih ih' ⊢
    omega
  | index _ _ ih ih' | more _ _ ih ih' =>
    simp only [Phrase.slack, height, heights, List.length_append, List.length_cons,
      List.length_nil] at ih ih' ⊢
    omega
  | whole _ ih | affirmed _ ih | negated _ ih | alone _ ih | unsigned _ ih | minus _ ih | bare _ ih
  | attr _ _ ih | call _ _ ih | parens _ ih | list _ ih | last _ ih | listed _ ih =>
    simp only [Phrase.slack, height, heights, List.length_append, List.length_cons,
      List.length_nil] at ih ⊢
    omega
  | literal _ | root | var _ | empty => exact Nat.le_refl 2

theorem Derives.height_le_tallest {levels : Nat} (d : Derives .expression k n ts e)
    (le : n ≤ levels) : e.height ≤ tallest levels := by
  obtain ⟨opened, bound⟩ := d.height_le
  have mono := tallest_mono le
  simp only [Phrase.growth, Phrase.chains, Phrase.free] at opened bound
  omega

/-- So many minus signs in front of the first operand of a comparison. -/
def signedTree (count : Nat) : Expression :=
  leaning .equal (Nat.repeat (unary .negate) count root)

theorem height_signedTree (count : Nat) : (signedTree count).height = count + 2 := by
  rw [signedTree, height_leaning, height_repeat fun _ => by rw [height], height]
  omega

def signedText (count : Nat) : List Char :=
  (List.replicate count ['-']).flatten ++ (['$'] ++ ['=', '$'])

def signedTokens (count : Nat) : List Token :=
  (List.replicate count [Token.minus]).flatten ++ [.dollar, .equal, .dollar]

theorem length_signedTokens (count : Nat) : (signedTokens count).length = count + 3 := by
  simp [signedTokens]

theorem lexes_signedText (count : Nat) : Lexes (signedText count) (signedTokens count) :=
  (lexes_minus.repeat count).append (lexes_dollar.append lexes_equal)

theorem parse_signedText {count : Nat} (fits : count + 1 ≤ maxDepth) :
    parse (signedText count) = .ok (signedTree count) := by
  have signs : Derives .signed 0 count ((List.replicate count [Token.minus]).flatten ++ [.dollar])
      (Nat.repeat (unary .negate) count root) := by
    clear fits
    induction count with
    | zero => exact derives_dollar
    | succ count ih => exact .minus ih
  have sum : Derives .sum 0 count _ _ := .first .sum (.first .product signs)
  have comparison :=
    sum.compared (show comparisonOperator? .equal = some .equal from rfl) derives_dollar_sum
  rw [Nat.max_eq_left (Nat.zero_le count)] at comparison
  have derived := Derives.whole
    (.first .disjunction (.first .conjunction (.affirmed comparison)))
  rw [List.append_assoc] at derived
  exact parse_of_lexes (lexes_signedText count) derived fits

/-- Which bounds keep the trees of accepted texts as low as there are levels: one token more than there
are levels, and seven levels that are open at one time. Without a bound, the trees are at most as high
as towers of all the levels, and one is that high. -/
theorem parse_heights (limit levels : Nat) :
    ((∀ cs tokens e, tokenize cs = .ok tokens → parse cs = .ok e → tokens.length ≤ limit →
        e.height ≤ maxDepth) ↔ limit ≤ maxDepth + 1) ∧
      ((∀ cs tokens e, tokenize cs = .ok tokens → parse cs = .ok e →
        (∃ k, ∃ n ≤ levels, Derives .expression k n tokens e) → e.height ≤ maxDepth) ↔ levels ≤ 7) ∧
      (∀ cs e, parse cs = .ok e → e.height ≤ tallest maxDepth) ∧
      ∃ cs e, parse cs = .ok e ∧ e.height = tallest maxDepth := by
  refine ⟨⟨fun all => ?_, fun le cs tokens e lexed read short => ?_⟩,
    ⟨fun all => ?_, fun few cs tokens e _ _ derived => ?_⟩, fun cs e read => ?_, ?_⟩
  · refine Nat.le_of_not_lt fun more => ?_
    have low := all _ _ _ (lexes_signedText 127).tokenize_eq (parse_signedText (by decide))
      (by rwa [length_signedTokens])
    rw [height_signedTree] at low
    exact absurd low (by decide)
  · obtain ⟨tokens', lexed', read⟩ := parse_eq_ok_iff.mp read
    rw [lexed] at lexed'
    cases lexed'
    obtain ⟨k, n, fits, d⟩ := ofTokens_eq_ok_iff.mp read
    have counted := d.two_mul_height_le
    simp only [Phrase.slack, maxDepth] at *
    omega
  · refine Nat.le_of_not_lt fun more => ?_
    have d : Derives .expression 0 8 (tallTokens 8) (tower 7 (tallItems 7)) :=
      (derives_tallItems 7).tower
    have read := parse_of_lexes (lexes_tallText 8) d (by decide)
    have low := all _ _ _ (lexes_tallText 8).tokenize_eq read ⟨0, 8, more, d⟩
    rw [height_tower, heights_tallItems] at low
    exact absurd low (by decide)
  · obtain ⟨k, n, le, d⟩ := derived
    exact Nat.le_trans (d.height_le_tallest (Nat.le_trans le few)) (by decide)
  · obtain ⟨tokens, _, read⟩ := parse_eq_ok_iff.mp read
    obtain ⟨k, n, fits, d⟩ := ofTokens_eq_ok_iff.mp read
    exact d.height_le_tallest fits
  · have d : Derives .expression 0 maxDepth (tallTokens maxDepth) (tower 127 (tallItems 127)) :=
      (derives_tallItems 127).tower
    refine ⟨tallText maxDepth, _, parse_of_lexes (lexes_tallText maxDepth) d (Nat.le_refl _), ?_⟩
    rw [height_tower, heights_tallItems]
    rfl

/-- With 126 signs, the tree is as high as there are levels. -/
theorem signedText_height_le :
    parse (signedText 126) = .ok (signedTree 126) ∧ (signedTree 126).height ≤ maxDepth := by
  have read : parse (signedText 126) = .ok (signedTree 126) := parse_signedText (by decide)
  have short : (signedTokens 126).length ≤ 129 := by rw [length_signedTokens]
  obtain ⟨low, _⟩ := parse_heights 129 7
  exact ⟨read, low.mpr (Nat.le_refl 129) _ _ _ (lexes_signedText 126).tokenize_eq read short⟩

/-- Behind 127 signs, the comparison takes the tree above the limit. -/
theorem signedText_exceeds :
    parse (signedText 127) = .ok (signedTree 127) ∧ maxDepth < (signedTree 127).height := by
  refine ⟨parse_signedText (by decide), ?_⟩
  rw [height_signedTree]
  decide

end Workflow.Expression
