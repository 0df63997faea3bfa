import Workflow.Proofs.Expression.Texts

/-!
Expressions as they are written: their strings hold the characters between the quotes, backslashes
included.
-/

namespace Workflow.Expression

/-! ## Texts in quotes -/

/-- The characters that a text in quotes stands for. -/
def unescaped : List Char → List Char
  | [] => []
  | '\\' :: c :: cs => unescape c :: unescaped cs
  | c :: cs => c :: unescaped cs

def unescapedText (s : String) : String :=
  String.ofList (unescaped s.toList)

/-- May the characters stand between such quotes, behind a backslash or not? -/
def isQuoted (quote : Char) : Bool → List Char → Bool
  | escaping, [] => !escaping
  | true, _ :: cs => isQuoted quote false cs
  | false, c :: cs =>
    if c = '\\' then isQuoted quote true cs else c != quote && isQuoted quote false cs

section Quoted

variable {quote c : Char} {cs rest text : List Char}

theorem unescaped_cons (plain : c ≠ '\\') : unescaped (c :: cs) = c :: unescaped cs := by
  rw [unescaped]
  intro d ds same
  exact absurd same plain

theorem readString_cons (plain : c ≠ '\\') :
    readString quote (c :: cs) =
      if c = quote then some ([], cs)
      else (readString quote cs).map fun (text, rest) => (c :: text, rest) := by
  rw [readString]
  intro d ds same
  exact absurd same plain

/-- A string is read up to the first quote that is not escaped. -/
theorem readString_of_quoted (plain : quote ≠ '\\') {raw : List Char}
    (quoted : isQuoted quote false raw = true) :
    readString quote (raw ++ quote :: rest) = some (unescaped raw, rest) := by
  fun_induction unescaped raw with
  | case1 => rw [List.nil_append, readString_cons plain, if_pos rfl]
  | case2 c cs ih =>
    rw [isQuoted, if_pos rfl, isQuoted] at quoted
    simp [readString, ih quoted]
  | case3 c cs single ih =>
    rw [isQuoted] at quoted
    split at quoted
    next backslash =>
      cases cs with
      | nil => cases quoted
      | cons d cs => exact absurd rfl (single d cs backslash)
    next other =>
      obtain ⟨differs, quoted⟩ := Bool.and_eq_true_iff.mp quoted
      rw [List.cons_append, readString_cons other, if_neg (by simpa using differs), ih quoted]
      rfl

/-- What was read as a string stands in quotes. -/
theorem quoted_of_readString (read : readString quote cs = some (text, rest)) :
    ∃ raw, cs = raw ++ quote :: rest ∧ isQuoted quote false raw = true ∧ unescaped raw = text := by
  fun_induction readString quote cs generalizing text with
  | case1 => cases read
  | case2 c cs ih =>
    obtain ⟨⟨text', rest'⟩, read, same⟩ := Option.map_eq_some_iff.mp read
    cases same
    obtain ⟨raw, rfl, quoted, rfl⟩ := ih read
    exact ⟨'\\' :: c :: raw, rfl, by simpa [isQuoted] using quoted, rfl⟩
  | case3 cs single =>
    cases read
    exact ⟨[], rfl, rfl, rfl⟩
  | case4 c cs single other ih =>
    obtain ⟨⟨text', rest'⟩, read, same⟩ := Option.map_eq_some_iff.mp read
    cases same
    have plain : c ≠ '\\' := by
      rintro rfl
      cases cs with
      | nil => cases read
      | cons d cs => exact single d cs rfl rfl
    obtain ⟨raw, rfl, quoted, rfl⟩ := ih read
    exact ⟨c :: raw, rfl, by simpa [isQuoted, plain, other] using quoted, unescaped_cons plain⟩

end Quoted

/-! ## Tokens as they are written -/

/-- The token with a string as it is written: what stands between its quotes. The token comes from the
characters behind the first one up to the last ones. -/
def Token.asWritten (behind rest : List Char) : Token → Token
  | .string _ => .string (String.ofList (behind.take (behind.length - (rest.length + 1))))
  | token => token

/-- The tokens of the end of a text, with strings as they are written. -/
def writtenFrom (total : Nat) : List Char → Except Malformed (List Token)
  | [] => .ok []
  | c :: cs =>
    if Text.isBlank c then writtenFrom total cs
    else
      match readToken total c cs with
      | .error e => .error e
      | .ok (token, ⟨rest, _⟩) => (writtenFrom total rest).map (token.asWritten cs rest :: ·)
termination_by cs => cs.length

section Tokens

variable {total : Nat} {c : Char} {cs rest : List Char} {token : Token}

@[simp] theorem writtenFrom_nil : writtenFrom total [] = .ok [] := by
  rw [writtenFrom]

theorem writtenFrom_blank (blank : Text.isBlank c = true) :
    writtenFrom total (c :: cs) = writtenFrom total cs := by
  rw [writtenFrom, if_pos blank]

theorem writtenFrom_cons (solid : Text.isBlank c = false) :
    writtenFrom total (c :: cs) = (tokenAt total c cs).bind fun (token, rest) =>
      (writtenFrom total rest).map (token.asWritten cs rest :: ·) := by
  rw [writtenFrom, if_neg (by simp [solid]), tokenAt]
  cases readToken total c cs <;> rfl

/-- A token is a numeral, a string, a word or a symbol. -/
theorem tokenAt_cases (read : tokenAt total c cs = .ok (token, rest)) :
    c.isDigit = true ∨
    ((c = '\'' ∨ c = '"') ∧ ∃ raw, cs = raw ++ c :: rest ∧ isQuoted c false raw = true ∧
      token = .string (String.ofList (unescaped raw))) ∨
    (c.isDigit = false ∧ ¬(c = '\'' ∨ c = '"') ∧ isWordStart c = true ∧
      ∃ w, cs = w ++ rest ∧ (∀ d ∈ w, isWordPart d = true) ∧ (∀ d ∈ rest.head?, isWordPart d = false) ∧
        token = Token.ofWord (String.ofList (c :: w))) ∨
    (c.isDigit = false ∧ ¬(c = '\'' ∨ c = '"') ∧ isWordStart c = false ∧
      symbolAt c cs = some (token, rest)) := by
  by_cases digit : c.isDigit = true
  · exact .inl digit
  rw [Bool.not_eq_true] at digit
  by_cases quote : c = '\'' ∨ c = '"'
  · rw [tokenAt_string quote] at read
    split at read
    next => cases read
    next text _ found =>
      cases read
      obtain ⟨raw, whole, quoted, rfl⟩ := quoted_of_readString found
      exact .inr (.inl ⟨quote, raw, whole, quoted, rfl⟩)
  · by_cases word : isWordStart c = true
    · rw [tokenAt_word digit quote word] at read
      cases read
      exact .inr (.inr (.inl ⟨digit, quote, word, _, List.takeWhile_append_dropWhile.symm,
        fun d among => List.all_eq_true.mp List.all_takeWhile d among, stop_of_dropWhile, rfl⟩))
    · rw [Bool.not_eq_true] at word
      rw [tokenAt_symbol digit quote word] at read
      split at read
      next => cases read
      next found =>
        cases read
        exact .inr (.inr (.inr ⟨digit, quote, word, found⟩))

def Token.unescaped : Token → Token :=
  Token.mapTexts id unescapedText

theorem asWritten_of_ne_string (other : ∀ s, token ≠ .string s) : token.asWritten cs rest = token := by
  cases token with
  | string s => exact absurd rfl (other s)
  | _ => rfl

theorem unescaped_of_ne_string (other : ∀ s, token ≠ .string s) : token.unescaped = token := by
  cases token with
  | string s => exact absurd rfl (other s)
  | _ => rfl

theorem asWritten_string {s : String} {raw : List Char} (whole : cs = raw ++ c :: rest) :
    Token.asWritten cs rest (.string s) = .string (String.ofList raw) := by
  rw [Token.asWritten, whole]
  simp

theorem ne_string_of_isNumber (number : token.isNumber = true) : ∀ s, token ≠ .string s := by
  rintro s rfl
  cases number

theorem ne_string_of_not_isText (other : token.isText = false) : ∀ s, token ≠ .string s := by
  rintro s rfl
  cases other

theorem ofWord_ne_string (w : String) : ∀ s, Token.ofWord w ≠ .string s := by
  obtain name | ⟨_, other, _⟩ := ofWord_cases w
  · rw [name]
    nofun
  · exact ne_string_of_not_isText other

/-- Reading the escapes of a token as it is written gives the token that was read. -/
theorem unescaped_asWritten (read : tokenAt total c cs = .ok (token, rest)) :
    (token.asWritten cs rest).unescaped = token := by
  have plain (other : ∀ s, token ≠ .string s) : (token.asWritten cs rest).unescaped = token := by
    rw [asWritten_of_ne_string other, unescaped_of_ne_string other]
  obtain digit | ⟨_, raw, whole, _, rfl⟩ | ⟨_, _, _, w, _, _, _, rfl⟩ | ⟨_, _, _, symbol⟩ :=
    tokenAt_cases read
  · exact plain (ne_string_of_isNumber (number_of_tokenAt digit read).1)
  · rw [asWritten_string whole]
    simp [Token.unescaped, Token.mapTexts, unescapedText]
  · exact plain (ofWord_ne_string _)
  · exact plain (ne_string_of_not_isText (symbol_of_symbolAt symbol).1.1)

/-- The tokens of a text are its tokens as they are written, without their backslashes. -/
theorem tokensFrom_eq_map (total : Nat) (cs : List Char) :
    tokensFrom total cs = (writtenFrom total cs).map (List.map Token.unescaped) := by
  fun_induction writtenFrom total cs with
  | case1 => rw [tokensFrom_nil]; rfl
  | case2 c cs blank ih => rw [tokensFrom_blank blank, ih]
  | case3 c cs solid e failed =>
    rw [tokensFrom_cons (by simpa using solid), tokenAt, failed]
    rfl
  | case4 c cs solid token rest shorter read ih =>
    have found : tokenAt total c cs = .ok (token, rest) := by rw [tokenAt, read]; rfl
    rw [tokensFrom_token (by simpa using solid) found, ih]
    cases writtenFrom total rest with
    | error e => rfl
    | ok tokens => simp [Except.map, unescaped_asWritten found]

end Tokens

/-! ## Expressions as they are written -/

/-- Reads the text of an expression, with strings as they are written. -/
def parseWritten (cs : List Char) : Except Malformed Expression :=
  match writtenFrom cs.length cs with
  | .error e => .error e
  | .ok tokens => ofTokens tokens

/-- An expression as it is written: its tokens, its tree, and the expression that it stands for. -/
theorem written_of_parse {cs : List Char} {e : Expression} (read : parse cs = .ok e) :
    ∃ ts k n w, writtenFrom cs.length cs = .ok ts ∧ n ≤ maxDepth ∧ Derives .expression k n ts w ∧
      parseWritten cs = .ok w ∧ w.mapTexts id unescapedText = e := by
  obtain ⟨tokens, lexed, read⟩ := parse_eq_ok_iff.mp read
  rw [tokenize, tokensFrom_eq_map] at lexed
  obtain ⟨ts, written, rfl⟩ := map_eq_ok_iff.mp lexed
  obtain ⟨k, n, fits, d⟩ := ofTokens_eq_ok_iff.mp read
  obtain ⟨w, d, same⟩ := d.of_mapTexts
  refine ⟨ts, k, n, w, written, fits, d, ?_, same⟩
  rw [parseWritten, written]
  exact ofTokens_eq_ok_iff.mpr ⟨k, n, fits, d⟩

/-- An expression with other names, and with other strings between its quotes. -/
theorem parse_of_written {cs : List Char} {ts : List Token} {k n : Nat} {w : Expression}
    {onNames onStrings : String → String}
    (written : writtenFrom cs.length cs = .ok (ts.map (Token.mapTexts onNames onStrings)))
    (fits : n ≤ maxDepth) (d : Derives .expression k n ts w) :
    parse cs = .ok (w.mapTexts onNames (unescapedText ∘ onStrings)) := by
  have tokens : tokenize cs =
      .ok (ts.map (Token.mapTexts onNames (unescapedText ∘ onStrings))) := by
    rw [tokenize, tokensFrom_eq_map, written, Except.map, List.map_map]
    refine congrArg Except.ok (List.map_congr_left fun token _ => ?_)
    cases token <;> rfl
  exact parse_eq_ok_iff.mpr ⟨_, tokens, ofTokens_eq_ok_iff.mpr ⟨k, n, fits, d.mapTexts⟩⟩

end Workflow.Expression
