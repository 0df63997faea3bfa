import Mathlib.Data.List.Chain
import Workflow.Proofs.Expression.Accepted
import Workflow.Proofs.Expression.Lexing
import Workflow.Proofs.Expression.Parts

/-!
Names and strings can be exchanged for others: the grammar does not look at them. So tokens are an
expression with other texts exactly when they are one. A name can also stand for a value.
-/

namespace Workflow

/-- The value with another text, if it is a string. -/
def Value.mapText (onStrings : String → String) : Value → Value
  | .string s => .string (onStrings s)
  | value => value

namespace Expression

variable {onNames onStrings : String → String}

def Token.mapTexts (onNames onStrings : String → String) : Token → Token
  | .name s => .name (onNames s)
  | .string s => .string (onStrings s)
  | token => token

mutual
def mapTexts (onNames onStrings : String → String) : Expression → Expression
  | literal value => literal (value.mapText onStrings)
  | list items => list (mapAllTexts onNames onStrings items)
  | var name => var (onNames name)
  | root => root
  | attr base name => attr (base.mapTexts onNames onStrings) (onNames name)
  | index base position =>
    index (base.mapTexts onNames onStrings) (position.mapTexts onNames onStrings)
  | call function arguments =>
    call (onNames function) (mapAllTexts onNames onStrings arguments)
  | unary op operand => unary op (operand.mapTexts onNames onStrings)
  | binary op left right =>
    binary op (left.mapTexts onNames onStrings) (right.mapTexts onNames onStrings)

def mapAllTexts (onNames onStrings : String → String) : List Expression → List Expression
  | [] => []
  | item :: items => item.mapTexts onNames onStrings :: mapAllTexts onNames onStrings items
end

theorem Token.mapTexts_eq_iff {token token' : Token} (other : token'.isText = false) :
    token.mapTexts onNames onStrings = token' ↔ token = token' := by
  cases token with
  | name | string =>
    constructor <;> rintro rfl <;> cases other
  | _ => exact Iff.rfl

theorem Token.mapTexts_of_not_isText {token : Token} (other : token.isText = false) :
    token.mapTexts onNames onStrings = token :=
  (mapTexts_eq_iff other).mpr rfl

/-- A token stands for a value just if it does so with another text. -/
theorem Token.value?_mapTexts {token : Token} :
    (token.mapTexts onNames onStrings).value? = token.value?.map (Value.mapText onStrings) := by
  cases token with
  | float x =>
    unfold Token.mapTexts Token.value? Value.ofFloat
    dsimp only
    split <;> rfl
  | _ => rfl

theorem isText_of_looseness {token : Token} (binds : token.looseness < 7) : token.isText = false := by
  cases token <;> first | rfl | exact absurd binds (Nat.lt_irrefl 7)

theorem looseness_of_chained {chain operand : Phrase} {operator? : Token → Option BinaryOp}
    {token : Token} {op : BinaryOp} (chained : Chained chain operand operator?)
    (operator : operator? token = some op) : token.looseness < 7 := by
  rw [chained.binds token op operator]
  cases chained <;> decide

theorem looseness_of_compared {token : Token} {op : BinaryOp}
    (operator : comparisonOperator? token = some op) : token.looseness < 7 := by
  rw [binds_comparisonOperator token op operator]
  decide

variable {p : Phrase} {k n : Nat} {ts : List Token} {e : Expression}

/-- A phrase with other texts is a phrase. -/
theorem Derives.mapTexts (d : Derives p k n ts e) :
    Derives p k n (ts.map (Token.mapTexts onNames onStrings)) (e.mapTexts onNames onStrings) := by
  induction d with
  | whole _ ih => exact .whole ih
  | first chained _ ih => exact .first chained ih
  | next chained _ operator _ ih ih' =>
    rw [List.map_append, List.map_cons,
      Token.mapTexts_of_not_isText (isText_of_looseness (looseness_of_chained chained operator))]
    exact .next chained ih operator ih'
  | affirmed _ ih => exact .affirmed ih
  | negated _ ih => exact .negated ih
  | alone _ ih => exact .alone ih
  | compared _ operator _ ih ih' =>
    rw [List.map_append, List.map_cons,
      Token.mapTexts_of_not_isText (isText_of_looseness (looseness_of_compared operator))]
    exact .compared ih operator ih'
  | unsigned _ ih => exact .unsigned ih
  | minus _ ih => exact .minus ih
  | bare _ ih => exact .bare ih
  | attr name _ ih =>
    rw [List.map_append]
    exact .attr (onNames name) ih
  | index _ _ ih ih' =>
    rw [List.map_append, List.map_cons, List.map_append]
    exact .index ih ih'
  | literal stands => exact .literal (by rw [Token.value?_mapTexts, stands]; rfl)
  | root => exact .root
  | var name => exact .var (onNames name)
  | call name _ ih =>
    rw [List.map_cons, List.map_cons, List.map_append]
    exact .call (onNames name) ih
  | parens _ ih =>
    rw [List.map_cons, List.map_append]
    exact .parens ih
  | list _ ih =>
    rw [List.map_cons, List.map_append]
    exact .list ih
  | last _ ih => exact .last ih
  | more _ _ ih ih' =>
    rw [List.map_append, List.map_cons]
    exact .more ih ih'
  | empty => exact .empty
  | listed _ ih => exact .listed ih

/-! ## The same phrase without the exchange -/

/-- Where the tokens with other texts have one that is no text, so have the tokens themselves. -/
theorem map_eq_cons {us : List Token} {token : Token} (other : token.isText = false)
    (mapped : ts.map (Token.mapTexts onNames onStrings) = token :: us) :
    ∃ rest, ts = token :: rest ∧ rest.map (Token.mapTexts onNames onStrings) = us := by
  obtain ⟨token', rest, rfl, same, ends⟩ := List.map_eq_cons_iff.mp mapped
  exact ⟨rest, by rw [(Token.mapTexts_eq_iff other).mp same], ends⟩

/-- Where tokens with other texts fall apart at a token that is no text, so do the tokens themselves. -/
theorem map_eq_joined {us us' : List Token} {token : Token} (other : token.isText = false)
    (mapped : ts.map (Token.mapTexts onNames onStrings) = us ++ token :: us') :
    ∃ first rest, ts = first ++ token :: rest ∧ first.map (Token.mapTexts onNames onStrings) = us ∧
      rest.map (Token.mapTexts onNames onStrings) = us' := by
  obtain ⟨first, behind, rfl, begins, ends⟩ := List.map_eq_append_iff.mp mapped
  obtain ⟨rest, rfl, ends'⟩ := map_eq_cons other ends
  exact ⟨first, rest, rfl, begins, ends'⟩

theorem map_eq_closed {us : List Token} {token : Token} (other : token.isText = false)
    (mapped : ts.map (Token.mapTexts onNames onStrings) = us ++ [token]) :
    ∃ inner, ts = inner ++ [token] ∧ inner.map (Token.mapTexts onNames onStrings) = us := by
  obtain ⟨inner, rest, rfl, within, ends⟩ := map_eq_joined other mapped
  cases List.map_eq_nil_iff.mp ends
  exact ⟨inner, rfl, within⟩

theorem Token.mapTexts_eq_name {token : Token} {s : String}
    (mapped : token.mapTexts onNames onStrings = .name s) : ∃ s', token = .name s' ∧ onNames s' = s := by
  cases token <;> cases mapped
  exact ⟨_, rfl, rfl⟩

theorem map_eq_name {s : String}
    (mapped : ts.map (Token.mapTexts onNames onStrings) = [.name s]) :
    ∃ s', ts = [.name s'] ∧ onNames s' = s := by
  obtain ⟨token, rfl, named⟩ := List.map_eq_singleton_iff.mp mapped
  obtain ⟨s', rfl, same⟩ := Token.mapTexts_eq_name named
  exact ⟨s', rfl, same⟩

theorem mapTexts_eq_list {es : List Expression} (mapped : e.mapTexts onNames onStrings = .list es) :
    ∃ items, e = .list items ∧ mapAllTexts onNames onStrings items = es := by
  cases e <;> cases mapped
  exact ⟨_, rfl, rfl⟩

/-- A phrase that comes from other texts was one before. -/
theorem Derives.of_mapTexts
    (d : Derives p k n (ts.map (Token.mapTexts onNames onStrings)) e) :
    ∃ e', Derives p k n ts e' ∧ e'.mapTexts onNames onStrings = e := by
  generalize mapped : ts.map (Token.mapTexts onNames onStrings) = us at d
  -- Operators and brackets come from themselves only, so the tokens fall apart where their images do.
  induction d generalizing ts with
  | whole _ ih =>
    obtain ⟨e', d, rfl⟩ := ih mapped
    exact ⟨e', .whole d, rfl⟩
  | first chained _ ih =>
    obtain ⟨e', d, rfl⟩ := ih mapped
    exact ⟨e', .first chained d, rfl⟩
  | next chained _ operator _ ih ih' =>
    obtain ⟨first, rest, rfl, begins, ends⟩ :=
      map_eq_joined (isText_of_looseness (looseness_of_chained chained operator)) mapped
    obtain ⟨left, d, rfl⟩ := ih begins
    obtain ⟨right, d', rfl⟩ := ih' ends
    exact ⟨_, .next chained d operator d', rfl⟩
  | affirmed _ ih =>
    obtain ⟨e', d, rfl⟩ := ih mapped
    exact ⟨e', .affirmed d, rfl⟩
  | negated _ ih =>
    obtain ⟨rest, rfl, ends⟩ := map_eq_cons rfl mapped
    obtain ⟨e', d, rfl⟩ := ih ends
    exact ⟨_, .negated d, rfl⟩
  | alone _ ih =>
    obtain ⟨e', d, rfl⟩ := ih mapped
    exact ⟨e', .alone d, rfl⟩
  | compared _ operator _ ih ih' =>
    obtain ⟨first, rest, rfl, begins, ends⟩ :=
      map_eq_joined (isText_of_looseness (looseness_of_compared operator)) mapped
    obtain ⟨left, d, rfl⟩ := ih begins
    obtain ⟨right, d', rfl⟩ := ih' ends
    exact ⟨_, .compared d operator d', rfl⟩
  | unsigned _ ih =>
    obtain ⟨e', d, rfl⟩ := ih mapped
    exact ⟨e', .unsigned d, rfl⟩
  | minus _ ih =>
    obtain ⟨rest, rfl, ends⟩ := map_eq_cons rfl mapped
    obtain ⟨e', d, rfl⟩ := ih ends
    exact ⟨_, .minus d, rfl⟩
  | bare _ ih =>
    obtain ⟨e', d, rfl⟩ := ih mapped
    exact ⟨e', .bare d, rfl⟩
  | attr name _ ih =>
    obtain ⟨first, rest, rfl, begins, ends⟩ := map_eq_joined rfl mapped
    obtain ⟨name', rfl, rfl⟩ := map_eq_name ends
    obtain ⟨base, d, rfl⟩ := ih begins
    exact ⟨_, .attr name' d, rfl⟩
  | index _ _ ih ih' =>
    obtain ⟨first, rest, rfl, begins, ends⟩ := map_eq_joined rfl mapped
    obtain ⟨inner, rfl, within⟩ := map_eq_closed rfl ends
    obtain ⟨base, d, rfl⟩ := ih begins
    obtain ⟨position, d', rfl⟩ := ih' within
    exact ⟨_, .index d d', rfl⟩
  | literal stands =>
    obtain ⟨token, rfl, rfl⟩ := List.map_eq_singleton_iff.mp mapped
    rw [Token.value?_mapTexts] at stands
    obtain ⟨value, stands', rfl⟩ := Option.map_eq_some_iff.mp stands
    exact ⟨_, .literal stands', rfl⟩
  | root =>
    obtain ⟨rest, rfl, ends⟩ := map_eq_cons rfl mapped
    cases List.map_eq_nil_iff.mp ends
    exact ⟨_, .root, rfl⟩
  | var name =>
    obtain ⟨name', rfl, rfl⟩ := map_eq_name mapped
    exact ⟨_, .var name', rfl⟩
  | call name _ ih =>
    obtain ⟨token, arguments, rfl, named, behind⟩ := List.map_eq_cons_iff.mp mapped
    obtain ⟨name', rfl, rfl⟩ := Token.mapTexts_eq_name named
    obtain ⟨rest, rfl, ends⟩ := map_eq_cons rfl behind
    obtain ⟨inner, rfl, within⟩ := map_eq_closed rfl ends
    obtain ⟨_, d, same⟩ := ih within
    obtain ⟨arguments, rfl, rfl⟩ := mapTexts_eq_list same
    exact ⟨_, .call name' d, rfl⟩
  | parens _ ih =>
    obtain ⟨rest, rfl, ends⟩ := map_eq_cons rfl mapped
    obtain ⟨inner, rfl, within⟩ := map_eq_closed rfl ends
    obtain ⟨e', d, rfl⟩ := ih within
    exact ⟨e', .parens d, rfl⟩
  | list _ ih =>
    obtain ⟨rest, rfl, ends⟩ := map_eq_cons rfl mapped
    obtain ⟨inner, rfl, within⟩ := map_eq_closed rfl ends
    obtain ⟨_, d, same⟩ := ih within
    obtain ⟨items, rfl, rfl⟩ := mapTexts_eq_list same
    exact ⟨_, .list d, rfl⟩
  | last _ ih =>
    obtain ⟨e', d, rfl⟩ := ih mapped
    exact ⟨_, .last d, rfl⟩
  | more _ _ ih ih' =>
    obtain ⟨first, rest, rfl, begins, ends⟩ := map_eq_joined rfl mapped
    obtain ⟨e', d, rfl⟩ := ih begins
    obtain ⟨_, d', same⟩ := ih' ends
    obtain ⟨items, rfl, rfl⟩ := mapTexts_eq_list same
    exact ⟨_, .more d d', rfl⟩
  | empty =>
    cases List.map_eq_nil_iff.mp mapped
    exact ⟨_, .empty, rfl⟩
  | listed _ ih =>
    obtain ⟨e', d, rfl⟩ := ih mapped
    exact ⟨e', .listed d, rfl⟩

/-! ## What stands behind numbers -/

/-- Only an operand starts with the token, so the token stands behind none. -/
def Token.startsOperand : Token → Bool
  | .whole _ | .float _ | .string _ | .name _ | .dollar | .kwNot | .kwTrue | .kwFalse | .kwNull => true
  | _ => false

/-- No operand starts with the second token if the first one is a number. -/
def OperandsApart (token token' : Token) : Prop :=
  token.isNumber = true → token'.startsOperand = false

theorem startsOperand_of_isNumber {token : Token} (number : token.isNumber = true) :
    token.startsOperand = true := by
  cases token <;> first | rfl | cases number

/-- The words that no operand starts with. -/
theorem operator_of_ofWord {w : String} (behind : (Token.ofWord w).startsOperand = false) :
    w ∈ ["and", "or", "in"] := by
  unfold Token.ofWord at behind
  split at behind <;> first | decide | cases behind

theorem startsOperand_of_looseness {token : Token} (binds : token.looseness < 7) :
    token.startsOperand = false := by
  cases token <;> first | rfl | exact absurd binds (Nat.lt_irrefl 7)

theorem operandsApart_cons {token : Token} {ts : List Token} (other : token.isNumber = false)
    (apart : ts.IsChain OperandsApart) : (token :: ts).IsChain OperandsApart := by
  refine List.isChain_cons.mpr ⟨fun token' _ number => ?_, apart⟩
  rw [other] at number
  cases number

/-- Two parts with an operator or a bracket between them. -/
theorem operandsApart_joined {token : Token} {ts ts' : List Token}
    (between : token.startsOperand = false) (apart : ts.IsChain OperandsApart)
    (apart' : ts'.IsChain OperandsApart) : (ts ++ token :: ts').IsChain OperandsApart := by
  have other : token.isNumber = false := by
    by_contra number
    rw [startsOperand_of_isNumber (by simpa using number)] at between
    cases between
  refine List.isChain_append.mpr ⟨apart, operandsApart_cons other apart', fun _ _ token' first _ => ?_⟩
  cases first
  exact between

/-- In a phrase, an operator or a bracket stands behind a number. -/
theorem Derives.operandsApart (d : Derives p k n ts e) : ts.IsChain OperandsApart := by
  induction d with
  | whole _ ih | first _ _ ih | affirmed _ ih | alone _ ih | unsigned _ ih | bare _ ih | last _ ih
  | listed _ ih => exact ih
  | next chained _ operator _ ih ih' =>
    exact operandsApart_joined (startsOperand_of_looseness (looseness_of_chained chained operator)) ih ih'
  | negated _ ih | minus _ ih => exact operandsApart_cons rfl ih
  | compared _ operator _ ih ih' =>
    exact operandsApart_joined (startsOperand_of_looseness (looseness_of_compared operator)) ih ih'
  | attr name _ ih => exact operandsApart_joined rfl ih (.singleton _)
  | index _ _ ih ih' => exact operandsApart_joined rfl ih (operandsApart_joined rfl ih' .nil)
  | literal _ | root | var _ => exact .singleton _
  | call name _ ih => exact operandsApart_joined rfl (.singleton _) (operandsApart_joined rfl ih .nil)
  | parens _ ih | list _ ih => exact operandsApart_cons rfl (operandsApart_joined rfl ih .nil)
  | more _ _ ih ih' => exact operandsApart_joined rfl ih ih'
  | empty => exact .nil

/-! ## Names in the place of values -/

/-- Tokens are exchanged: names for names, values for values or names, and all others stay. -/
structure KeepsPhrases (f : Token → Token) : Prop where
  name : ∀ s, ∃ s', f (.name s) = .name s'
  value : ∀ token value, token.value? = some value →
    (∃ value', (f token).value? = some value') ∨ ∃ s, f token = .name s
  other : ∀ token, token.isText = false → token.value? = none → f token = token

theorem KeepsPhrases.between {f : Token → Token} (keeps : KeepsPhrases f) {t : Token}
    (between : t.startsOperand = false) : f t = t := by
  refine keeps.other t ?_ ?_ <;> cases t <;> first | rfl | cases between

theorem Derives.exists_items (d : Derives .items k n ts e) : ∃ es, e = .list es := by
  cases d with
  | first chained | next chained => cases chained
  | last | more => exact ⟨_, rfl⟩

theorem Derives.exists_arguments (d : Derives .arguments k n ts e) : ∃ es, e = .list es := by
  cases d with
  | first chained | next chained => cases chained
  | empty => exact ⟨_, rfl⟩
  | listed inner => exact inner.exists_items

/-- A phrase with its tokens exchanged is a phrase, of another tree. -/
theorem Derives.exists_map {f : Token → Token} (keeps : KeepsPhrases f) (d : Derives p k n ts e) :
    ∃ e', Derives p k n (ts.map f) e' := by
  induction d with
  | whole _ ih =>
    obtain ⟨e', d⟩ := ih
    exact ⟨e', .whole d⟩
  | first chained _ ih =>
    obtain ⟨e', d⟩ := ih
    exact ⟨e', .first chained d⟩
  | next chained _ operator _ ih ih' =>
    obtain ⟨left, d⟩ := ih
    obtain ⟨right, d'⟩ := ih'
    have same := keeps.between (startsOperand_of_looseness (looseness_of_chained chained operator))
    rw [List.map_append, List.map_cons, same]
    exact ⟨_, .next chained d operator d'⟩
  | affirmed _ ih =>
    obtain ⟨e', d⟩ := ih
    exact ⟨e', .affirmed d⟩
  | negated _ ih =>
    obtain ⟨e', d⟩ := ih
    rw [List.map_cons, keeps.other .kwNot rfl rfl]
    exact ⟨_, .negated d⟩
  | alone _ ih =>
    obtain ⟨e', d⟩ := ih
    exact ⟨e', .alone d⟩
  | compared _ operator _ ih ih' =>
    obtain ⟨left, d⟩ := ih
    obtain ⟨right, d'⟩ := ih'
    have same := keeps.between (startsOperand_of_looseness (looseness_of_compared operator))
    rw [List.map_append, List.map_cons, same]
    exact ⟨_, .compared d operator d'⟩
  | unsigned _ ih =>
    obtain ⟨e', d⟩ := ih
    exact ⟨e', .unsigned d⟩
  | minus _ ih =>
    obtain ⟨e', d⟩ := ih
    rw [List.map_cons, keeps.between rfl]
    exact ⟨_, .minus d⟩
  | bare _ ih =>
    obtain ⟨e', d⟩ := ih
    exact ⟨e', .bare d⟩
  | attr name _ ih =>
    obtain ⟨base, d⟩ := ih
    obtain ⟨name', same⟩ := keeps.name name
    rw [List.map_append, List.map_cons, List.map_singleton, keeps.between rfl, same]
    exact ⟨_, .attr name' d⟩
  | index _ _ ih ih' =>
    obtain ⟨base, d⟩ := ih
    obtain ⟨position, d'⟩ := ih'
    rw [List.map_append, List.map_cons, List.map_append, List.map_singleton,
      keeps.between (t := .openBracket) rfl, keeps.between (t := .closeBracket) rfl]
    exact ⟨_, .index d d'⟩
  | literal stands =>
    obtain ⟨value', stands'⟩ | ⟨s, same⟩ := keeps.value _ _ stands
    · exact ⟨_, .literal stands'⟩
    · rw [List.map_singleton, same]
      exact ⟨_, .var s⟩
  | root =>
    rw [List.map_singleton, keeps.other .dollar rfl rfl]
    exact ⟨_, .root⟩
  | var name =>
    obtain ⟨name', same⟩ := keeps.name name
    rw [List.map_singleton, same]
    exact ⟨_, .var name'⟩
  | call name _ ih =>
    obtain ⟨_, d⟩ := ih
    obtain ⟨arguments, rfl⟩ := d.exists_arguments
    obtain ⟨name', same⟩ := keeps.name name
    rw [List.map_cons, List.map_cons, List.map_append, List.map_singleton, same,
      keeps.between (t := .openParen) rfl, keeps.between (t := .closeParen) rfl]
    exact ⟨_, .call name' d⟩
  | parens _ ih =>
    obtain ⟨e', d⟩ := ih
    rw [List.map_cons, List.map_append, List.map_singleton, keeps.between (t := .openParen) rfl,
      keeps.between (t := .closeParen) rfl]
    exact ⟨e', .parens d⟩
  | list _ ih =>
    obtain ⟨_, d⟩ := ih
    obtain ⟨items, rfl⟩ := d.exists_arguments
    rw [List.map_cons, List.map_append, List.map_singleton, keeps.between (t := .openBracket) rfl,
      keeps.between (t := .closeBracket) rfl]
    exact ⟨_, .list d⟩
  | last _ ih =>
    obtain ⟨e', d⟩ := ih
    exact ⟨_, .last d⟩
  | more _ _ ih ih' =>
    obtain ⟨e', d⟩ := ih
    obtain ⟨_, d'⟩ := ih'
    obtain ⟨items, rfl⟩ := d'.exists_items
    rw [List.map_append, List.map_cons, keeps.between rfl]
    exact ⟨_, .more d d'⟩
  | empty => exact ⟨_, .empty⟩
  | listed _ ih =>
    obtain ⟨e', d⟩ := ih
    exact ⟨e', .listed d⟩

end Expression

end Workflow
