import Workflow.Expression.Lexing
import Workflow.Proofs.Lists
import Workflow.Proofs.Results

/-!
How the text of an expression is cut into tokens, token by token, and which texts are which tokens
whatever stands behind them.
-/

namespace Workflow.Expression

variable {total : Nat} {c : Char} {cs rest : List Char} {token : Token}

/-! ## Characters -/

def blanks : List Nat :=
  [9, 10, 11, 12, 13, 32, 0x85, 0xA0, 0x1680, 0x2000, 0x2001, 0x2002, 0x2003, 0x2004, 0x2005, 0x2006,
    0x2007, 0x2008, 0x2009, 0x200A, 0x2028, 0x2029, 0x202F, 0x205F, 0x3000]

theorem mem_blanks (blank : Text.isBlank c = true) : c.toNat ∈ blanks := by
  unfold Text.isBlank at blank
  split at blank
  · obtain space | ⟨least, greatest⟩ : c = ' ' ∨ 9 ≤ c.toNat ∧ c.toNat ≤ 13 := by simpa using blank
    · rw [space]
      decide
    · simp only [blanks, List.mem_cons]
      omega
  · simp only [Text.memRanges, Text.blankRanges, List.any_cons, List.any_nil, Bool.or_eq_true,
      Bool.and_eq_true, decide_eq_true_eq, Bool.false_eq_true, or_false] at blank
    simp only [blanks, List.mem_cons]
    omega

theorem isWordPart_of_isBlank (blank : Text.isBlank c = true) : isWordPart c = false := by
  have none_ : ∀ n ∈ blanks, isWordPart (Char.ofNat n) = false := by decide +kernel
  rw [← Char.ofNat_toNat c]
  exact none_ _ (mem_blanks blank)

theorem isBlank_of_isWordPart (part : isWordPart c = true) : Text.isBlank c = false := by
  by_contra blank
  rw [isWordPart_of_isBlank (by simpa using blank)] at part
  cases part

theorem toNat_lt_of_isDigit (digit : c.isDigit = true) : c.toNat < 0x80 :=
  Nat.lt_of_le_of_lt (Char.isDigit_iff_toNat.mp digit).2 (by decide)

theorem isWordPart_of_isDigit (digit : c.isDigit = true) : isWordPart c = true := by
  rw [isWordPart, Text.isNumeric, if_pos (toNat_lt_of_isDigit digit), digit, Bool.or_true, Bool.true_or]

theorem isWordPart_of_isWordStart (start : isWordStart c = true) : isWordPart c = true := by
  unfold isWordStart at start
  unfold isWordPart
  rw [Bool.or_right_comm, start, Bool.true_or]

/-! ## Tokens one by one -/

/-- The token that starts with `c`, and the characters behind it. -/
def tokenAt (total : Nat) (c : Char) (cs : List Char) : Except Malformed (Token × List Char) :=
  (readToken total c cs).map fun (token, behind) => (token, behind.val)

@[simp] theorem tokensFrom_nil : tokensFrom total [] = .ok [] := by
  rw [tokensFrom]

theorem tokensFrom_blank (blank : Text.isBlank c = true) :
    tokensFrom total (c :: cs) = tokensFrom total cs := by
  rw [tokensFrom, if_pos blank]

/-- The tokens of a text are its first token and those of what is left. -/
theorem tokensFrom_cons (solid : Text.isBlank c = false) :
    tokensFrom total (c :: cs) =
      (tokenAt total c cs).bind fun (token, rest) => (tokensFrom total rest).map (token :: ·) := by
  rw [tokensFrom, if_neg (by simp [solid]), tokenAt]
  cases readToken total c cs <;> rfl

theorem tokensFrom_token (solid : Text.isBlank c = false)
    (read : tokenAt total c cs = .ok (token, rest)) :
    tokensFrom total (c :: cs) = (tokensFrom total rest).map (token :: ·) := by
  rw [tokensFrom_cons solid, read]
  rfl

/-! ## Tokens by their first character -/

/-- The operator or bracket that starts with `c`, the longer one where two fit. -/
def symbolAt (c : Char) (cs : List Char) : Option (Token × List Char) :=
  (readSymbol c cs).map fun (token, behind) => (token, behind.val)

theorem symbolAt_nil : symbolAt c [] = (Token.ofChar? c).map fun token => (token, []) := by
  unfold symbolAt readSymbol
  cases Token.ofChar? c <;> rfl

theorem symbolAt_cons {d : Char} :
    symbolAt c (d :: cs) =
      match Token.ofPair? c d with
      | some token => some (token, cs)
      | none => (Token.ofChar? c).map fun token => (token, d :: cs) := by
  unfold symbolAt readSymbol
  dsimp only
  cases Token.ofPair? c d with
  | some token => rfl
  | none => cases Token.ofChar? c <;> rfl

theorem tokenAt_word (digit : c.isDigit = false) (quote : ¬(c = '\'' ∨ c = '"'))
    (word : isWordStart c = true) :
    tokenAt total c cs =
      .ok (Token.ofWord (String.ofList (c :: cs.takeWhile isWordPart)), cs.dropWhile isWordPart) := by
  rw [tokenAt, readToken, if_neg (by simp [digit]), if_neg quote, if_pos word]
  rfl

theorem tokenAt_symbol (digit : c.isDigit = false) (quote : ¬(c = '\'' ∨ c = '"'))
    (word : isWordStart c = false) :
    tokenAt total c cs =
      match symbolAt c cs with
      | none => .error (.unexpectedCharacter c (total - (cs.length + 1)))
      | some lexeme => .ok lexeme := by
  rw [tokenAt, readToken, if_neg (by simp [digit]), if_neg quote, if_neg (by simp [word]), symbolAt]
  cases readSymbol c cs <;> rfl

theorem tokenAt_string (quote : c = '\'' ∨ c = '"') :
    tokenAt total c cs =
      match readString c cs with
      | none => .error .unterminatedString
      | some (text, rest) => .ok (.string (String.ofList text), rest) := by
  have digit : c.isDigit = false := by
    cases quote with
    | inl same => rw [same]; rfl
    | inr same => rw [same]; rfl
  rw [tokenAt, readToken, if_neg (by simp [digit]), if_pos quote]
  split <;> simp [*, Except.map]

/-- The fraction of a numeral: a point with a digit behind it. -/
def fraction? : List Char → Option (Char × List Char)
  | '.' :: d :: cs => if d.isDigit then some (d, cs) else none
  | _ => none

theorem fraction?_eq_some_iff {d : Char} :
    fraction? cs = some (d, rest) ↔ cs = '.' :: d :: rest ∧ d.isDigit = true := by
  constructor
  · intro found
    unfold fraction? at found
    split at found
    · split at found
      next digit =>
        cases found
        exact ⟨rfl, digit⟩
      next => cases found
    · cases found
  · rintro ⟨rfl, digit⟩
    rw [fraction?, if_pos digit]

theorem tokenAt_digit (digit : c.isDigit = true) :
    tokenAt total c cs =
      match fraction? (cs.dropWhile Char.isDigit) with
      | some (d, rest) =>
        .ok (floatToken (c :: cs.takeWhile Char.isDigit) (d :: rest.takeWhile Char.isDigit),
          rest.dropWhile Char.isDigit)
      | none => (wholeToken (c :: cs.takeWhile Char.isDigit)).map
          fun token => (token, cs.dropWhile Char.isDigit) := by
  rw [tokenAt, readToken, if_pos digit, readNumber]
  dsimp only
  split
  next d rest behind =>
    by_cases digit' : d.isDigit = true
    · rw [fraction?_eq_some_iff.mpr ⟨behind, digit'⟩, if_pos digit']
      rfl
    · have none_ : fraction? (cs.dropWhile Char.isDigit) = none := by
        rw [behind, fraction?, if_neg digit']
      rw [none_, if_neg digit']
      cases wholeToken (c :: cs.takeWhile Char.isDigit) with
      | error e => rfl
      | ok token => simp [Except.map, behind]
  next other =>
    have none_ : fraction? (cs.dropWhile Char.isDigit) = none := by
      cases found : fraction? (cs.dropWhile Char.isDigit) with
      | none => rfl
      | some f => exact absurd (fraction?_eq_some_iff.mp found).1 (other f.1 f.2)
    rw [none_]
    cases wholeToken (c :: cs.takeWhile Char.isDigit) <;> rfl

/-! ## What tokens are read from -/

def Token.isNumber : Token → Bool
  | .whole _ | .float _ => true
  | _ => false

def Token.isText : Token → Bool
  | .name _ | .string _ => true
  | _ => false

def Token.isKeyword : Token → Bool
  | .kwAnd | .kwOr | .kwNot | .kwIn | .kwTrue | .kwFalse | .kwNull => true
  | _ => false

/-- As far as a numeral before them can tell, the texts start alike. -/
def StartsAlike (cs cs' : List Char) : Prop :=
  cs'.head? = cs.head? ∧ (cs.head? = some '.' → cs'.tail.head? = cs.tail.head?)

theorem fraction?_eq_none {cs' : List Char} (alike : StartsAlike cs cs') (none_ : fraction? cs = none) :
    fraction? cs' = none := by
  cases found : fraction? cs' with
  | none => rfl
  | some f =>
    obtain ⟨rfl, digit⟩ := fraction?_eq_some_iff.mp found
    obtain ⟨first, second⟩ := alike
    obtain ⟨cs, rfl⟩ := List.head?_eq_some_iff.mp first.symm
    obtain ⟨cs, rfl⟩ := List.head?_eq_some_iff.mp (second rfl).symm
    rw [fraction?_eq_some_iff.mpr ⟨rfl, digit⟩] at none_
    cases none_

/-- Digits, or digits with a fraction behind them: what stands in a numeral behind its first digit. -/
def InNumeral (ds : List Char) : Prop :=
  (∀ d ∈ ds, d.isDigit = true) ∨
    ∃ ds₁ d ds₂, ds = ds₁ ++ '.' :: d :: ds₂ ∧ (∀ d ∈ ds₁, d.isDigit = true) ∧ d.isDigit = true ∧
      ∀ d ∈ ds₂, d.isDigit = true

theorem isNumber_of_wholeToken {ds : List Char} (read : wholeToken ds = .ok token) :
    token.isNumber = true := by
  unfold wholeToken at read
  split at read
  · cases read
    rfl
  · cases read

/-- A numeral is read again before every text that starts alike. -/
theorem number_of_tokenAt (digit : c.isDigit = true) (read : tokenAt total c cs = .ok (token, rest)) :
    token.isNumber = true ∧ ∃ ds, cs = ds ++ rest ∧ InNumeral ds ∧
      ∀ total' rest', StartsAlike rest rest' → tokenAt total' c (ds ++ rest') = .ok (token, rest') := by
  have all (cs : List Char) : ∀ d ∈ cs.takeWhile Char.isDigit, d.isDigit = true :=
    fun d among => List.all_eq_true.mp List.all_takeWhile d among
  rw [tokenAt_digit digit] at read
  split at read
  next d behind found =>
    obtain ⟨point, digit'⟩ := fraction?_eq_some_iff.mp found
    cases read
    refine ⟨rfl, cs.takeWhile Char.isDigit ++ '.' :: d :: behind.takeWhile Char.isDigit, ?_,
      .inr ⟨_, d, _, rfl, all cs, digit', all behind⟩, fun total' rest' alike => ?_⟩
    · rw [List.append_assoc, List.cons_append, List.cons_append, List.takeWhile_append_dropWhile, ← point,
        List.takeWhile_append_dropWhile]
    · have stop : ∀ x ∈ rest'.head?, x.isDigit = false := by
        rw [alike.1]
        exact stop_of_dropWhile
      obtain ⟨whole, left⟩ := takeWhile_dropWhile_of_stop (all cs)
        (show ∀ x ∈ ('.' :: d :: (behind.takeWhile Char.isDigit ++ rest')).head?, x.isDigit = false by
          rintro x ⟨⟩; rfl)
      obtain ⟨fraction, left'⟩ := takeWhile_dropWhile_of_stop (all behind) stop
      rw [List.append_assoc, List.cons_append, List.cons_append, tokenAt_digit digit, whole, left,
        fraction?_eq_some_iff.mpr ⟨rfl, digit'⟩]
      dsimp only
      rw [fraction, left']
  next none_ =>
    obtain ⟨token', whole, same⟩ := map_eq_ok_iff.mp read
    cases same
    refine ⟨isNumber_of_wholeToken whole, cs.takeWhile Char.isDigit,
      List.takeWhile_append_dropWhile.symm, .inl (all cs), fun total' rest' alike => ?_⟩
    have stop : ∀ x ∈ rest'.head?, x.isDigit = false := by
      rw [alike.1]
      exact stop_of_dropWhile
    obtain ⟨taken, left⟩ := takeWhile_dropWhile_of_stop (all cs) stop
    rw [tokenAt_digit digit, taken, left, fraction?_eq_none alike none_, whole]
    rfl

/-- The words that are no names. -/
def keywords : List String :=
  ["and", "or", "not", "in", "true", "false", "null"]

/-- A word is a name or a keyword, and keywords are neither texts nor numbers. -/
theorem ofWord_cases (w : String) :
    Token.ofWord w = .name w ∨
      w ∈ keywords ∧ (Token.ofWord w).isText = false ∧ (Token.ofWord w).isNumber = false := by
  unfold Token.ofWord
  split <;> first | exact .inl rfl | exact .inr ⟨by decide, rfl, rfl⟩

def symbols : List Char :=
  ['=', '!', '<', '>', '+', '-', '*', '/', '.', ',', '(', ')', '[', ']', '$']

theorem symbol_of_ofChar? (read : Token.ofChar? c = some token) :
    c ∈ symbols ∧ token.isText = false ∧ token.isNumber = false ∧ token.isKeyword = false := by
  unfold Token.ofChar? at read
  split at read <;> cases read <;> exact ⟨by decide, rfl, rfl, rfl⟩

theorem symbols_of_ofPair? {d : Char} (read : Token.ofPair? c d = some token) :
    (c ∈ symbols ∧ d ∈ symbols) ∧ token.isText = false ∧ token.isNumber = false ∧
      token.isKeyword = false := by
  unfold Token.ofPair? at read
  split at read <;> cases read <;> exact ⟨by decide, rfl, rfl, rfl⟩

/-- An operator or a bracket is read again before every text that starts with the same character. -/
theorem symbol_of_symbolAt (read : symbolAt c cs = some (token, rest)) :
    (token.isText = false ∧ token.isNumber = false ∧ token.isKeyword = false) ∧ ∃ ds, cs = ds ++ rest ∧
      (∀ d ∈ c :: ds, d ∈ symbols) ∧
      ∀ rest', rest'.head? = rest.head? → symbolAt c (ds ++ rest') = some (token, rest') := by
  cases cs with
  | nil =>
    rw [symbolAt_nil] at read
    obtain ⟨token', single, same⟩ := Option.map_eq_some_iff.mp read
    cases same
    obtain ⟨symbol, plain⟩ := symbol_of_ofChar? single
    refine ⟨plain, [], rfl, by simpa using symbol, fun rest' first => ?_⟩
    rw [List.head?_eq_none_iff.mp first, List.append_nil, symbolAt_nil, single]
    rfl
  | cons d cs =>
    rw [symbolAt_cons] at read
    split at read
    next token' pair =>
      cases read
      obtain ⟨⟨symbol, symbol'⟩, plain⟩ := symbols_of_ofPair? pair
      refine ⟨plain, [d], rfl, by simp [symbol, symbol'], fun rest' _ => ?_⟩
      rw [List.singleton_append, symbolAt_cons, pair]
    next pair =>
      obtain ⟨token', single, same⟩ := Option.map_eq_some_iff.mp read
      cases same
      obtain ⟨symbol, plain⟩ := symbol_of_ofChar? single
      refine ⟨plain, [], rfl, by simpa using symbol, fun rest' first => ?_⟩
      obtain ⟨rest', rfl⟩ := List.head?_eq_some_iff.mp first
      rw [List.nil_append, symbolAt_cons, pair, single]
      rfl

/-! ## Texts that are tokens whatever stands behind them -/

/-- The characters are these tokens, whatever stands behind them. -/
def Lexes (cs : List Char) (ts : List Token) : Prop :=
  ∀ total rest, tokensFrom total (cs ++ rest) = (tokensFrom total rest).map (ts ++ ·)

theorem Lexes.tokenize_eq {ts : List Token} (lexes : Lexes cs ts) : tokenize cs = .ok ts := by
  have read := lexes cs.length []
  rw [List.append_nil, tokensFrom_nil] at read
  simpa [tokenize, Except.map] using read

theorem Lexes.nil : Lexes [] [] := by
  intro total rest
  rw [List.nil_append]
  cases tokensFrom total rest <;> rfl

/-- Texts that are tokens whatever stands behind them can be put together. -/
theorem Lexes.append {cs' : List Char} {ts ts' : List Token} (lexes : Lexes cs ts)
    (lexes' : Lexes cs' ts') : Lexes (cs ++ cs') (ts ++ ts') := by
  intro total rest
  rw [List.append_assoc, lexes, lexes']
  cases tokensFrom total rest <;> simp [Except.map]

theorem Lexes.repeat {ts : List Token} (lexes : Lexes cs ts) (count : Nat) :
    Lexes (List.replicate count cs).flatten (List.replicate count ts).flatten := by
  induction count with
  | zero => exact .nil
  | succ count ih => exact lexes.append ih

/-- A symbol that is part of no longer one. -/
theorem lexes_symbol (solid : Text.isBlank c = false) (digit : c.isDigit = false)
    (quote : ¬(c = '\'' ∨ c = '"')) (word : isWordStart c = false)
    (single : Token.ofChar? c = some token)
    (alone : ∀ d, Token.ofPair? c d = none) : Lexes [c] [token] := by
  intro total rest
  have symbol : symbolAt c rest = some (token, rest) := by
    cases rest with
    | nil => rw [symbolAt_nil, single]; rfl
    | cons d rest => rw [symbolAt_cons, alone, single]; rfl
  have read : tokenAt total c rest = .ok (token, rest) := by
    rw [tokenAt_symbol digit quote word, symbol]
  exact tokensFrom_token solid read

theorem lexes_blank (blank : Text.isBlank c = true) : Lexes [c] [] := by
  intro total rest
  rw [List.singleton_append, tokensFrom_blank blank]
  cases tokensFrom total rest <;> rfl

/-- A word, and a character that ends it. -/
theorem Lexes.word {w : List Char} {d : Char} {ts : List Token} (solid : Text.isBlank c = false)
    (digit : c.isDigit = false) (quote : ¬(c = '\'' ∨ c = '"')) (start : isWordStart c = true)
    (part : w.all isWordPart = true) (ended : isWordPart d = false) (behind : Lexes [d] ts) :
    Lexes (c :: (w ++ [d])) (Token.ofWord (String.ofList (c :: w)) :: ts) := by
  intro total rest
  have read : tokenAt total c (w ++ d :: rest) =
      .ok (Token.ofWord (String.ofList (c :: w)), d :: rest) := by
    obtain ⟨taken, left⟩ := takeWhile_dropWhile_of_stop (List.all_eq_true.mp part)
      (show ∀ x ∈ (d :: rest).head?, isWordPart x = false by rintro x ⟨⟩; exact ended)
    rw [tokenAt_word digit quote start, taken, left]
  have ender : tokensFrom total (d :: rest) = (tokensFrom total rest).map (ts ++ ·) :=
    behind total rest
  rw [List.cons_append, List.append_assoc, List.singleton_append, tokensFrom_token solid read, ender]
  cases tokensFrom total rest <;> rfl

end Workflow.Expression
