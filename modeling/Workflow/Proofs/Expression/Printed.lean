import Workflow.Proofs.Expression.Written

/-!
Tokens as texts. Printed tokens with white space between them are a text of just these tokens,
whichever quotes, equality signs and white space are chosen.
-/

namespace Workflow.Expression

open Text (isBlank)

/-! ## Tokens as texts -/

/-- The characters as they stand between such quotes: a backslash before every backslash and quote. -/
def escaped (quote : Char) (cs : List Char) : List Char :=
  cs.flatMap fun c => if c = '\\' ∨ c = quote then ['\\', c] else [c]

/-- Are the characters a word: a letter or an underscore, and then letters, numerals and underscores? -/
def spellsWord : List Char → Bool
  | [] => false
  | c :: cs => isWordStart c && cs.all isWordPart

/-- How tokens are printed: the quotes of strings, and whether the equality sign is doubled. -/
structure Style where
  quote : Char
  isQuote : quote = '\'' ∨ quote = '"'
  doubled : Bool

namespace Token

/-- A token that a text without doubles holds: numerals have a signed word of 64 bits, and names are
words but not keywords. -/
def IsPrintable : Token → Prop
  | whole n => 0 ≤ n.val ∧ n.val < 0x8000000000000000
  | float _ => False
  | name w => spellsWord w.toList = true ∧ w ∉ keywords
  | _ => True

/-- The text of a token. Doubles are printed as in messages. -/
def printed (style : Style) : Token → List Char
  | whole n => (toString n.val).toList
  | float x => (floatLayout.text x).toList
  | string s => style.quote :: (escaped style.quote s.toList ++ [style.quote])
  | name w => w.toList
  | dollar => ['$']
  | dot => ['.']
  | comma => [',']
  | openParen => ['(']
  | closeParen => [')']
  | openBracket => ['[']
  | closeBracket => [']']
  | plus => ['+']
  | minus => ['-']
  | star => ['*']
  | slash => ['/']
  | equal => if style.doubled then ['=', '='] else ['=']
  | unequal => ['!', '=']
  | less => ['<']
  | atMost => ['<', '=']
  | greater => ['>']
  | atLeast => ['>', '=']
  | kwAnd => "and".toList
  | kwOr => "or".toList
  | kwNot => "not".toList
  | kwIn => "in".toList
  | kwTrue => "true".toList
  | kwFalse => "false".toList
  | kwNull => "null".toList

end Token

/-- A token of a text: how it is printed, and the white space between it and the next one. -/
structure Printed where
  token : Token
  isPrintable : token.IsPrintable
  style : Style
  gap : List Char
  gap_ne_nil : gap ≠ []
  isBlank_of_mem_gap : ∀ c ∈ gap, isBlank c = true

/-- The text of the tokens. There is white space between them, and none at the ends. -/
def source : List Printed → List Char
  | [] => []
  | [last] => last.token.printed last.style
  | item :: next :: items => item.token.printed item.style ++ (item.gap ++ source (next :: items))

/-! ## Strings between quotes -/

section Quotes

variable {quote : Char} (isQuote : quote = '\'' ∨ quote = '"')
include isQuote

theorem quote_ne_backslash : quote ≠ '\\' := by
  obtain rfl | rfl := isQuote <;> decide

theorem unescaped_escaped (cs : List Char) : unescaped (escaped quote cs) = cs := by
  induction cs with
  | nil => rfl
  | cons c cs ih =>
    rw [escaped, List.flatMap_cons, ← escaped]
    split
    next special =>
      have kept : unescape c = c := by
        obtain rfl | rfl := special
        · rfl
        · obtain rfl | rfl := isQuote <;> rfl
      rw [List.cons_append, List.singleton_append, unescaped, kept, ih]
    next plain =>
      rw [List.singleton_append, unescaped_cons fun backslash => plain (.inl backslash), ih]

omit isQuote in
/-- An escaped text can stand in quotes. -/
theorem isQuoted_escaped (cs : List Char) : isQuoted quote false (escaped quote cs) = true := by
  induction cs with
  | nil => rfl
  | cons c cs ih =>
    rw [escaped, List.flatMap_cons, ← escaped]
    split
    next special => simpa [isQuoted] using ih
    next plain =>
      obtain ⟨backslash, differs⟩ := not_or.mp plain
      simpa [isQuoted, backslash, differs] using ih

end Quotes

/-! ## Tokens before white space -/

/-- The text ends, or goes on with white space. -/
def StartsBlank (cs : List Char) : Prop :=
  ∀ c ∈ cs.head?, isBlank c = true

/-- The characters are this token where the text ends behind them or goes on with white space. -/
def LexesApart (cs : List Char) (token : Token) : Prop :=
  ∀ total rest, StartsBlank rest →
    tokensFrom total (cs ++ rest) = (tokensFrom total rest).map (token :: ·)

variable {c : Char} {cs rest : List Char} {token : Token}

theorem lexesApart_of_tokenAt (solid : isBlank c = false)
    (read : ∀ total rest, StartsBlank rest → tokenAt total c (cs ++ rest) = .ok (token, rest)) :
    LexesApart (c :: cs) token := fun total rest blank =>
  tokensFrom_token solid (read total rest blank)

theorem StartsBlank.noWordPart (blank : StartsBlank rest) :
    ∀ c ∈ rest.head?, isWordPart c = false := fun c first =>
  isWordPart_of_isBlank (blank c first)

theorem StartsBlank.noDigit (blank : StartsBlank rest) : ∀ c ∈ rest.head?, c.isDigit = false := by
  intro c first
  by_contra digit
  have part := isWordPart_of_isDigit (by simpa using digit)
  rw [blank.noWordPart c first] at part
  cases part

theorem StartsBlank.noFraction (blank : StartsBlank rest) : fraction? rest = none := by
  cases found : fraction? rest with
  | none => rfl
  | some f =>
    obtain ⟨rfl, _⟩ := fraction?_eq_some_iff.mp found
    exact absurd (blank '.' rfl) (by decide)

/-- The digits of a number stand for it. -/
theorem decimal_toDigits (n : Nat) : decimal (Nat.toDigits 10 n) = n := by
  have same : decimal (Nat.toDigits 10 n) = Nat.ofDigitChars 10 (Nat.toDigits 10 n) 0 := by
    rw [decimal, Nat.ofDigitChars_eq_foldl]
    simp only [Nat.mul_comm 10]
  rw [same, Nat.ofDigitChars_ten_toDigits]

theorem wholeToken_toDigits {n : Whole} (least : 0 ≤ n.val) (greatest : n.val < 0x8000000000000000) :
    wholeToken (Nat.toDigits 10 n.val.toNat) = .ok (.whole n) := by
  have fits : decimal (Nat.toDigits 10 n.val.toNat) < 0x8000000000000000 := by
    rw [decimal_toDigits]
    omega
  rw [wholeToken, dif_pos fits]
  have same : (decimal (Nat.toDigits 10 n.val.toNat) : Int) = n.val := by
    rw [decimal_toDigits, Int.toNat_of_nonneg least]
  simp only [same]

/-- A numeral: no point and no further digit stands behind it. -/
theorem lexesApart_numeral {n : Whole} (least : 0 ≤ n.val) (greatest : n.val < 0x8000000000000000) :
    LexesApart (toString n.val).toList (.whole n) := by
  have text : (toString n.val).toList = Nat.toDigits 10 n.val.toNat := by
    rw [Int.toString_eq_repr, Int.repr_eq_if, if_pos least, Nat.toList_repr]
  have nonempty : Nat.toDigits 10 n.val.toNat ≠ [] := Nat.toDigits_ne_nil
  obtain ⟨c, cs, digits⟩ := List.exists_cons_of_ne_nil nonempty
  have all : ∀ d ∈ c :: cs, d.isDigit = true := by
    rw [← digits]
    exact fun d among => Nat.isDigit_of_mem_toDigits (by decide) (by decide) among
  obtain ⟨first, all⟩ := List.forall_mem_cons.mp all
  have whole := wholeToken_toDigits least greatest
  rw [text, digits]
  rw [digits] at whole
  refine lexesApart_of_tokenAt (isBlank_of_isWordPart (isWordPart_of_isDigit first)) ?_
  intro total rest blank
  obtain ⟨taken, left⟩ := takeWhile_dropWhile_of_stop all blank.noDigit
  rw [tokenAt_digit first, taken, left, blank.noFraction, whole]
  rfl

/-- A string, whatever it holds. -/
theorem lexesApart_string {quote : Char} (isQuote : quote = '\'' ∨ quote = '"') (s : String) :
    LexesApart (quote :: (escaped quote s.toList ++ [quote])) (.string s) := by
  have solid : isBlank quote = false := by
    obtain rfl | rfl := isQuote <;> decide
  refine lexesApart_of_tokenAt solid fun total rest _ => ?_
  have read : readString quote (escaped quote s.toList ++ quote :: rest) = some (s.toList, rest) := by
    rw [readString_of_quoted (quote_ne_backslash isQuote) (isQuoted_escaped s.toList),
      unescaped_escaped isQuote]
  rw [List.append_assoc, List.singleton_append, tokenAt_string isQuote, read]
  simp only [String.ofList_toList]

theorem isDigit_of_isWordStart (start : isWordStart c = true) : c.isDigit = false := by
  by_contra digit
  rw [Bool.not_eq_false] at digit
  have none_ : ∀ n ∈ List.range' '0'.toNat 10, isWordStart (Char.ofNat n) = false := by decide
  obtain ⟨least, greatest⟩ := Char.isDigit_iff_toNat.mp digit
  have other := none_ c.toNat
    (List.mem_range'_1.mpr ⟨least, Nat.lt_of_le_of_lt greatest (by decide)⟩)
  rw [Char.ofNat_toNat, start] at other
  cases other

/-- A word: no part of a word stands behind it. -/
theorem lexesApart_word (w : String) (word : spellsWord w.toList = true) :
    LexesApart w.toList (Token.ofWord w) := by
  cases text : w.toList with
  | nil =>
    rw [text] at word
    cases word
  | cons c cs =>
    rw [text, spellsWord, Bool.and_eq_true, List.all_eq_true] at word
    obtain ⟨start, part⟩ := word
    have quote : ¬(c = '\'' ∨ c = '"') := by
      rintro (rfl | rfl) <;> exact absurd start (by decide)
    refine lexesApart_of_tokenAt (isBlank_of_isWordPart (isWordPart_of_isWordStart start)) ?_
    intro total rest blank
    obtain ⟨taken, left⟩ := takeWhile_dropWhile_of_stop part blank.noWordPart
    rw [tokenAt_word (isDigit_of_isWordStart start) quote start, taken, left, ← text,
      String.ofList_toList]

/-- A word that is no keyword is read as a name. -/
theorem lexesApart_name {w : String} (word : spellsWord w.toList = true) (noKeyword : w ∉ keywords) :
    LexesApart w.toList (.name w) := by
  have lexes := lexesApart_word w word
  obtain name | ⟨keyword, _⟩ := ofWord_cases w
  · rwa [name] at lexes
  · exact absurd keyword noKeyword

theorem plain_of_symbol (symbol : c ∈ symbols) :
    isBlank c = false ∧ c.isDigit = false ∧ ¬(c = '\'' ∨ c = '"') ∧ isWordStart c = false := by
  have plain : symbols.all (fun c => !isBlank c && !c.isDigit && !isWordStart c) = true := by decide
  have quotes : '\'' ∉ symbols ∧ '"' ∉ symbols := by decide
  have here := List.all_eq_true.mp plain c symbol
  simp only [Bool.and_eq_true, Bool.not_eq_true'] at here
  refine ⟨here.1.1, here.1.2, ?_, here.2⟩
  rintro (rfl | rfl)
  · exact quotes.1 symbol
  · exact quotes.2 symbol

/-- An operator or a bracket of one character: nothing stands behind it that makes it a longer one. -/
theorem lexesApart_single (single : Token.ofChar? c = some token) : LexesApart [c] token := by
  obtain ⟨solid, digit, quote, word⟩ := plain_of_symbol (symbol_of_ofChar? single).1
  refine lexesApart_of_tokenAt solid fun total rest blank => ?_
  have symbol : symbolAt c rest = some (token, rest) := by
    cases rest with
    | nil =>
      rw [symbolAt_nil, single]
      rfl
    | cons d rest =>
      have alone : Token.ofPair? c d = none := by
        cases pair : Token.ofPair? c d with
        | none => rfl
        | some longer =>
          have other := (plain_of_symbol (symbols_of_ofPair? pair).1.2).1
          rw [blank d rfl] at other
          cases other
      rw [symbolAt_cons, alone, single]
      rfl
  rw [List.nil_append, tokenAt_symbol digit quote word, symbol]

theorem lexesApart_pair {d : Char} (pair : Token.ofPair? c d = some token) :
    LexesApart [c, d] token := by
  obtain ⟨solid, digit, quote, word⟩ := plain_of_symbol (symbols_of_ofPair? pair).1.1
  refine lexesApart_of_tokenAt solid fun total rest _ => ?_
  rw [List.singleton_append, tokenAt_symbol digit quote word, symbolAt_cons, pair]

/-- A printed token is read back. -/
theorem lexesApart_printed (style : Style) (printable : token.IsPrintable) :
    LexesApart (token.printed style) token := by
  cases token with
  | whole n => exact lexesApart_numeral printable.1 printable.2
  | float x => exact absurd printable id
  | string s => exact lexesApart_string style.isQuote s
  | name w => exact lexesApart_name printable.1 printable.2
  | equal =>
    rw [Token.printed]
    split
    · exact lexesApart_pair rfl
    · exact lexesApart_single rfl
  | unequal | atMost | atLeast => exact lexesApart_pair rfl
  | kwAnd => exact lexesApart_word "and" (by decide)
  | kwOr => exact lexesApart_word "or" (by decide)
  | kwNot => exact lexesApart_word "not" (by decide)
  | kwIn => exact lexesApart_word "in" (by decide)
  | kwTrue => exact lexesApart_word "true" (by decide)
  | kwFalse => exact lexesApart_word "false" (by decide)
  | kwNull => exact lexesApart_word "null" (by decide)
  | _ => exact lexesApart_single rfl

/-! ## Texts of tokens -/

theorem tokensFrom_gap {total : Nat} {gap rest : List Char} (blank : ∀ c ∈ gap, isBlank c = true) :
    tokensFrom total (gap ++ rest) = tokensFrom total rest := by
  induction gap with
  | nil => rfl
  | cons c gap ih =>
    obtain ⟨first, blank⟩ := List.forall_mem_cons.mp blank
    rw [List.cons_append, tokensFrom_blank first, ih blank]

theorem Printed.startsBlank (item : Printed) (rest : List Char) : StartsBlank (item.gap ++ rest) := by
  obtain ⟨c, gap, begins⟩ := List.exists_cons_of_ne_nil item.gap_ne_nil
  intro d first
  rw [begins] at first
  cases first
  exact item.isBlank_of_mem_gap c (by rw [begins]; exact .head _)

/-- The tokens that were printed are read again, one by one. -/
theorem tokensFrom_source (total : Nat) (items : List Printed) :
    tokensFrom total (source items) = .ok (items.map Printed.token) := by
  fun_induction source items with
  | case1 => exact tokensFrom_nil
  | case2 last =>
    have read := lexesApart_printed last.style last.isPrintable total [] nofun
    rw [List.append_nil, tokensFrom_nil] at read
    exact read
  | case3 item next items ih =>
    rw [lexesApart_printed item.style item.isPrintable total _ (item.startsBlank _),
      tokensFrom_gap item.isBlank_of_mem_gap, ih]
    rfl

/-- Reading undoes printing: the text of any tokens, printed in any style and with any white space
between them, has just these tokens. -/
theorem tokenize_source (items : List Printed) :
    tokenize (source items) = .ok (items.map Printed.token) :=
  tokensFrom_source _ items

/-- A string that holds a quote and what looks like operators, printed between such quotes. -/
theorem equation_tokenizes :
    tokenize "a == 'it\\'s = 7'\n\t= 7".toList =
      .ok [.name "a", .equal, .string "it's = 7", .equal, .whole ⟨7, by decide⟩] := by
  let doubled : Style := ⟨'\'', .inl rfl, true⟩
  let single : Style := ⟨'"', .inr rfl, false⟩
  let items : List Printed := [
    ⟨.name "a", ⟨by decide, by decide⟩, doubled, [' '], by decide, List.all_eq_true.mp rfl⟩,
    ⟨.equal, trivial, doubled, [' '], by decide, List.all_eq_true.mp rfl⟩,
    ⟨.string "it's = 7", trivial, doubled, ['\n', '\t'], by decide, List.all_eq_true.mp rfl⟩,
    ⟨.equal, trivial, single, [' '], by decide, List.all_eq_true.mp rfl⟩,
    ⟨.whole ⟨7, by decide⟩, ⟨by decide, by decide⟩, single, [' '], by decide,
      List.all_eq_true.mp rfl⟩]
  have text : source items = "a == 'it\\'s = 7'\n\t= 7".toList := by decide
  rw [← text]
  exact tokenize_source items

end Workflow.Expression
