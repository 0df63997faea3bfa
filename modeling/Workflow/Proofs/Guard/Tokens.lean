import Workflow.Expression.Variables
import Workflow.Proofs.Expression.Written
import Workflow.Proofs.Guard.Words

/-!
The tokens of an expression in which a word is replaced: names and strings have it replaced, a keyword
for a value becomes a name if it is the word, and all other tokens are the same.
-/

namespace Workflow.Composition

open Text (isWord isBlank)
open Expression (Token Malformed isWordPart isWordStart isQuoted tokenAt writtenFrom symbols blanks mem_blanks
  toNat_lt_of_isDigit isWordPart_of_isDigit isWordPart_of_isWordStart)

/-! ## Characters that are in no word -/

theorem isWord_of_isBlank {c : Char} (blank : isBlank c = true) : isWord c = false := by
  have none_ : ∀ n ∈ blanks, isWord (Char.ofNat n) = false := by decide +kernel
  rw [← Char.ofNat_toNat c]
  exact none_ _ (mem_blanks blank)

theorem isWord_of_symbol {c : Char} (symbol : c ∈ symbols) : isWord c = false := by
  have none_ : symbols.all (fun d => !isWord d) = true := by decide
  simpa using List.all_eq_true.mp none_ c symbol

theorem isWord_of_quote {c : Char} (quote : c = '\'' ∨ c = '"') : isWord c = false := by
  obtain rfl | rfl := quote <;> decide

theorem isWord_of_isDigit {c : Char} (digit : c.isDigit = true) : isWord c = true := by
  rw [isWord, if_pos (toNat_lt_of_isDigit digit), digit, Bool.true_or, Bool.or_true]

/-- The names of the functions that read the context are words without underscores. -/
theorem plain_of_readsContext {function : String} (reads : Expression.readsContext function = true) :
    function.toList ≠ [] ∧ (∀ c ∈ function.toList, isWord c = true) ∧ '_' ∉ function.toList := by
  have plain : ∀ f ∈ ["ctx", "len", "str"],
      f.toList ≠ [] ∧ f.toList.all isWord = true ∧ '_' ∉ f.toList := by
    decide
  obtain ⟨nonempty, word, free⟩ :=
    plain function (by simpa [Expression.readsContext, or_assoc] using reads)
  exact ⟨nonempty, List.all_eq_true.mp word, free⟩

namespace Renaming

/-- What may stand behind the digits of a number in one word with them: nothing, or an operator. -/
def behindDigits : List String :=
  ["", "and", "or", "in"]

/-- The word that is replaced is neither an operator nor a number, nor the one behind the other, and
what replaces it can be part of a name. -/
structure OfName (r : Renaming) : Prop where
  noNot : String.ofList r.name ≠ "not"
  noOperator : String.ofList (r.name.dropWhile Char.isDigit) ∉ behindDigits
  isWordPart_of_mem_suffix : ∀ c ∈ r.suffix, isWordPart c = true

variable (r : Renaming)

def text (s : String) : String :=
  String.ofList (r.apply false s.toList)

/-- The token with the word replaced. A value is written as a keyword, which may be the word. -/
def token : Token → Token
  | .kwTrue => .ofWord (r.text "true")
  | .kwFalse => .ofWord (r.text "false")
  | .kwNull => .ofWord (r.text "null")
  | t => t.mapTexts r.text r.text

variable {r} {inside : Bool} {c d : Char} {w cs rest ds : List Char} {total : Nat} {t : Token}
  {ts : List Token}

/-! ## Numerals -/

/-- The word is not what a number starts. -/
theorem OfName.ne_digits (named : r.OfName) (digits : ∀ d ∈ ds, d.isDigit = true)
    (behind : String.ofList w ∈ behindDigits) : ds ++ w ≠ r.name := by
  intro same
  have none_ : ∀ s ∈ behindDigits, s.toList.dropWhile Char.isDigit = s.toList := by decide
  have rest : w.dropWhile Char.isDigit = w := by simpa using none_ _ behind
  refine named.noOperator ?_
  rwa [← same, List.dropWhile_append_of_pos digits, rest]

/-- Digits stay, unless they are the start of the word. -/
theorem apply_digits (digits : ∀ d ∈ c :: ds, d.isDigit = true)
    (other : c :: ds ++ rest.takeWhile isWord ≠ r.name) :
    r.apply inside (c :: (ds ++ rest)) = c :: (ds ++ r.apply true rest) := by
  have word : ∀ d ∈ c :: ds, isWord d = true := fun d among => isWord_of_isDigit (digits d among)
  rw [r.apply_cons, word c List.mem_cons_self,
    r.apply_inside fun d among => word d (List.mem_cons_of_mem c among)]
  refine .inr fun rest' same outside => other ?_
  have all : ∀ d ∈ c :: ds ++ rest.takeWhile isWord, isWord d = true := by
    intro d among
    obtain here | behind := List.mem_append.mp among
    · exact word d here
    · exact List.all_eq_true.mp List.all_takeWhile d behind
  have ended : StartsOutside (rest.dropWhile isWord) := stop_of_dropWhile
  refine word_inj all r.isWord_of_mem_name ended outside ?_
  rwa [List.append_assoc, List.takeWhile_append_dropWhile]

/-- A numeral stays, for the word is neither digits nor digits with an operator behind them. -/
theorem apply_numeral (named : r.OfName) (digit : c.isDigit = true) (numeral : Expression.InNumeral ds)
    (behind : String.ofList (rest.takeWhile isWord) ∈ behindDigits) :
    r.apply inside (c :: (ds ++ rest)) = c :: (ds ++ r.apply true rest) := by
  obtain all | ⟨ds₁, d, ds₂, rfl, all, digit', all'⟩ := numeral
  · have digits : ∀ d ∈ c :: ds, d.isDigit = true := List.forall_mem_cons.mpr ⟨digit, all⟩
    exact apply_digits digits (named.ne_digits digits behind)
  · have digits : ∀ d ∈ c :: ds₁, d.isDigit = true := List.forall_mem_cons.mpr ⟨digit, all⟩
    have digits' : ∀ e ∈ d :: ds₂, e.isDigit = true := List.forall_mem_cons.mpr ⟨digit', all'⟩
    have point : String.ofList (('.' :: (d :: ds₂ ++ rest)).takeWhile isWord) ∈ behindDigits := by
      rw [List.takeWhile_cons_of_neg (by decide)]
      decide
    rw [List.append_assoc, List.cons_append, apply_digits digits (named.ne_digits digits point),
      r.apply_other (by decide), List.cons_append,
      apply_digits digits' (named.ne_digits digits' behind)]
    simp

theorem startsAlike_apply (inside : Bool) (cs : List Char) :
    Expression.StartsAlike cs (r.apply inside cs) := by
  refine ⟨r.head?_apply inside cs, fun first => ?_⟩
  obtain ⟨cs, rfl⟩ := List.head?_eq_some_iff.mp first
  rw [r.apply_other (by decide)]
  exact r.head?_apply false cs

/-! ## Strings -/

theorem isQuoted_word {quote : Char} {escaping : Bool} (other : isWord quote = false)
    (nonempty : w ≠ []) (word : ∀ c ∈ w, isWord c = true) :
    isQuoted quote escaping (w ++ cs) = isQuoted quote false cs := by
  induction w generalizing escaping with
  | nil => exact absurd rfl nonempty
  | cons c w ih =>
    rw [List.forall_mem_cons] at word
    have here : isQuoted quote escaping (c :: (w ++ cs)) = isQuoted quote false (w ++ cs) := by
      have backslash : c ≠ '\\' := by
        rintro rfl
        exact absurd word.1 (by decide)
      have differs : c ≠ quote := by
        rintro rfl
        rw [other] at word
        cases word.1
      cases escaping with
      | true => rfl
      | false => simp [isQuoted, backslash, differs]
    rw [List.cons_append, here]
    cases w with
    | nil => rfl
    | cons d w => exact ih (List.cons_ne_nil d w) word.2

theorem word_ne_nil (nonempty : w ≠ []) : r.word w ≠ [] := by
  unfold Renaming.word
  split
  · simp [r.name_ne_nil]
  · exact nonempty

/-- A text in quotes stays one. -/
theorem isQuoted_apply {quote : Char} {escaping : Bool} (other : isWord quote = false) :
    isQuoted quote escaping (r.apply inside cs) = isQuoted quote escaping cs := by
  induction cs using words_induction generalizing inside escaping with
  | nil => rw [apply_nil]
  | other c cs between ih =>
    rw [r.apply_other between]
    cases escaping <;> simp [isQuoted, ih]
  | word w cs nonempty word outside ih =>
    rw [isQuoted_word other nonempty word]
    cases inside with
    | true => rw [r.apply_inside word, isQuoted_word other nonempty word, ih]
    | false =>
      rw [r.apply_word nonempty word outside,
        isQuoted_word other (word_ne_nil nonempty) (r.isWord_of_mem_word word), ih]

/-! ## Words -/

theorem mem_apply (among : d ∈ r.apply inside cs) : d ∈ cs ∨ d ∈ r.suffix := by
  induction cs using words_induction generalizing inside with
  | nil =>
    rw [apply_nil] at among
    cases among
  | other c cs between ih =>
    rw [r.apply_other between] at among
    cases among with
    | head => exact .inl (.head _)
    | tail _ among => exact (ih among).imp_left (List.mem_cons_of_mem c)
  | word w cs nonempty word outside ih =>
    have split {w' : List Char} (whole : r.apply inside (w ++ cs) = w' ++ r.apply true cs)
        (first : d ∈ w' → d ∈ w ∨ d ∈ r.suffix) : d ∈ w ++ cs ∨ d ∈ r.suffix := by
      rw [whole, List.mem_append] at among
      rw [List.mem_append]
      obtain here | behind := among
      · exact (first here).imp_left .inl
      · exact (ih behind).imp_left .inr
    cases inside with
    | true => exact split (r.apply_inside word) .inl
    | false =>
      refine split (r.apply_word nonempty word outside) fun here => ?_
      unfold Renaming.word at here
      split at here
      next same => rwa [same, ← List.mem_append]
      next => exact .inl here

/-- A name stays one, since its new characters can be part of it. -/
theorem isWordPart_of_mem_apply (named : r.OfName) (part : ∀ d ∈ cs, isWordPart d = true) :
    ∀ d ∈ r.apply inside cs, isWordPart d = true := by
  intro d among
  exact (mem_apply among).elim (part d) (named.isWordPart_of_mem_suffix d)

theorem isWord_of_keyword {s : String} (keyword : s ∈ Expression.keywords) :
    s.toList ≠ [] ∧ ∀ c ∈ s.toList, isWord c = true := by
  have plain : ∀ k ∈ Expression.keywords, k.toList ≠ [] ∧ k.toList.all isWord = true := by
    decide
  exact (plain s keyword).imp_right List.all_eq_true.mp

theorem text_of_word (nonempty : w ≠ []) (word : ∀ c ∈ w, isWord c = true) (other : w ≠ r.name) :
    r.text (String.ofList w) = String.ofList w := by
  have kept : r.apply false w = w := by
    simpa [Renaming.word, other] using r.apply_word nonempty word startsOutside_nil
  rw [Renaming.text, String.toList_ofList, kept]

/-- With the word replaced in it, a word is a name, or it has stayed as it is. -/
theorem ofWord_text (s : String) : Token.ofWord (r.text s) = .name (r.text s) ∨ r.text s = s := by
  refine (Expression.ofWord_cases (r.text s)).imp_right fun ⟨keyword, _⟩ => ?_
  have plain : ∀ k ∈ Expression.keywords, '_' ∉ k.toList := by decide
  have free := plain _ keyword
  rw [Renaming.text, String.toList_ofList] at free
  rw [Renaming.text, r.apply_eq_self free, String.ofList_toList]

theorem token_eq_self (other : t.isText = false) (other' : t.isKeyword = false) : r.token t = t := by
  cases t <;> first
    | rfl
    | exact absurd other.symm Bool.false_ne_true
    | exact absurd other'.symm Bool.false_ne_true

/-- If the word is no value, names and strings are all that changes. -/
theorem token_eq_mapTexts (noValue : String.ofList r.name ∉ ["true", "false", "null"]) :
    r.token = Token.mapTexts r.text r.text := by
  have plain : ∀ k ∈ ["true", "false", "null"], k ∈ Expression.keywords := by decide
  have kept (s : String) (value : s ∈ ["true", "false", "null"]) : r.text s = s := by
    obtain ⟨nonempty, word⟩ := isWord_of_keyword (plain s value)
    have other : s.toList ≠ r.name := by
      intro same
      rw [← same, String.ofList_toList] at noValue
      exact noValue value
    simpa using text_of_word nonempty word other
  funext t
  cases t with
  | kwTrue => rw [token, kept "true" (by decide)]; rfl
  | kwFalse => rw [token, kept "false" (by decide)]; rfl
  | kwNull => rw [token, kept "null" (by decide)]; rfl
  | _ => rfl

/-- A word with the word replaced is the token of the word, with the word replaced. -/
theorem token_ofWord (named : r.OfName) (s : String) :
    Token.ofWord (r.text s) = r.token (Token.ofWord s) := by
  have operator (keyword : s ∈ Expression.keywords) (other : s.toList ≠ r.name) : r.text s = s := by
    obtain ⟨nonempty, word⟩ := isWord_of_keyword keyword
    simpa using text_of_word nonempty word other
  have binary (keyword : s ∈ Expression.keywords) (behind : s ∈ behindDigits) : r.text s = s := by
    refine operator keyword fun same => ?_
    have noDigits : ([] : List Char) ++ s.toList ≠ r.name :=
      named.ne_digits (List.forall_mem_nil _) (by rwa [String.ofList_toList])
    exact noDigits same
  obtain name | ⟨keyword, _⟩ := Expression.ofWord_cases s
  · have text : r.token (.name s) = .name (r.text s) := rfl
    rw [name, text]
    obtain name' | same := ofWord_text (r := r) s
    · exact name'
    · rw [same, name]
  · simp only [Expression.keywords, List.mem_cons, List.not_mem_nil, or_false] at keyword
    obtain rfl | rfl | rfl | rfl | rfl | rfl | rfl := keyword
    · rw [binary (by decide) (by decide)]; rfl
    · rw [binary (by decide) (by decide)]; rfl
    · rw [operator (by decide) fun same => named.noNot (by rw [← same]; rfl)]; rfl
    · rw [binary (by decide) (by decide)]; rfl
    · rfl
    · rfl
    · rfl

/-- A word is read as the token with the word replaced, also behind a number if it may stand there. -/
theorem ofWord_apply (named : r.OfName)
    (apart : inside = true → (Token.ofWord (String.ofList w)).startsOperand = false) :
    Token.ofWord (String.ofList (r.apply inside w)) = r.token (Token.ofWord (String.ofList w)) := by
  cases inside with
  | false =>
    have same := token_ofWord named (String.ofList w)
    rwa [Renaming.text, String.toList_ofList] at same
  | true =>
    have behind := Expression.operator_of_ofWord (apart rfl)
    have stays : ∀ s ∈ ["and", "or", "in"], r.token (Token.ofWord s) = Token.ofWord s := by
      simp only [List.forall_mem_cons]
      exact ⟨rfl, rfl, rfl, List.forall_mem_nil _⟩
    have plain : ∀ s ∈ ["and", "or", "in"], s ∈ Expression.keywords := by decide
    have word := (isWord_of_keyword (plain _ behind)).2
    rw [String.toList_ofList] at word
    have whole : r.apply true (w ++ []) = w ++ r.apply true [] := r.apply_inside word
    rw [stays _ behind, show r.apply true w = w by simpa using whole]

/-! ## Tokens -/

/-- A character of a word starts a number, or a word that ends where its token does. -/
theorem tokenAt_of_isWord (word : isWord d = true) (read : writtenFrom total (d :: cs) = .ok ts) :
    ∃ t rest ts', ts = t.asWritten cs rest :: ts' ∧ writtenFrom total rest = .ok ts' ∧
      (d.isDigit = true ∧ t.isNumber = true ∨
        isWordStart d = true ∧ ∃ w, cs = w ++ rest ∧ (∀ c ∈ rest.head?, isWordPart c = false) ∧
          t = Token.ofWord (String.ofList (d :: w))) := by
  have solid : isBlank d = false := by
    by_contra blank
    rw [isWord_of_isBlank (by simpa using blank)] at word
    cases word
  rw [Expression.writtenFrom_cons solid] at read
  cases found : tokenAt total d cs with
  | error e =>
    rw [found] at read
    cases read
  | ok lexeme =>
    obtain ⟨t, rest⟩ := lexeme
    rw [found] at read
    obtain ⟨ts, read', rfl⟩ := map_eq_ok_iff.mp read
    refine ⟨t, rest, ts, rfl, read', ?_⟩
    obtain digit | ⟨quote, _⟩ | ⟨_, _, start, w, whole, _, stop, same⟩ | ⟨_, _, _, symbol⟩ :=
      Expression.tokenAt_cases found
    · exact .inl ⟨digit, (Expression.number_of_tokenAt digit found).1⟩
    · rw [isWord_of_quote quote] at word
      cases word
    · exact .inr ⟨start, w, whole, stop, same⟩
    · obtain ⟨_, ds, _, all, _⟩ := Expression.symbol_of_symbolAt symbol
      rw [isWord_of_symbol (all d (.head _))] at word
      cases word

/-- A word ends where no token goes on with it. -/
theorem startsOutside_of_stop (read : writtenFrom total cs = .ok ts)
    (stop : ∀ d ∈ cs.head?, isWordPart d = false) : StartsOutside cs := by
  intro d first
  by_contra word
  obtain ⟨cs, rfl⟩ := List.head?_eq_some_iff.mp first
  have part : isWordPart d = true := by
    obtain ⟨_, _, _, _, _, ⟨digit, _⟩ | ⟨start, _⟩⟩ := tokenAt_of_isWord (by simpa using word) read
    · exact isWordPart_of_isDigit digit
    · exact isWordPart_of_isWordStart start
  rw [stop d first] at part
  cases part

theorem startsOperand_asWritten : (t.asWritten cs rest).startsOperand = t.startsOperand := by
  cases t <;> rfl

/-- Only an operator can go on with the word that the digits of a number begin. -/
theorem takeWhile_of_writtenFrom (read : writtenFrom total cs = .ok ts)
    (apart : ∀ t ∈ ts.head?, t.startsOperand = false) :
    String.ofList (cs.takeWhile isWord) ∈ behindDigits := by
  have alone (ended : cs.takeWhile isWord = []) :
      String.ofList (cs.takeWhile isWord) ∈ behindDigits := by
    rw [ended]
    decide
  cases cs with
  | nil => exact alone rfl
  | cons d cs =>
    by_cases word : isWord d = true
    · obtain ⟨t, rest, ts, rfl, read', token⟩ := tokenAt_of_isWord word read
      have other : t.startsOperand = false := startsOperand_asWritten.symm.trans (apart _ rfl)
      obtain ⟨_, number⟩ | ⟨_, w, rfl, stop, rfl⟩ := token
      · rw [Expression.startsOperand_of_isNumber number] at other
        cases other
      · have behind := Expression.operator_of_ofWord other
        have plain : ∀ s ∈ ["and", "or", "in"], s ∈ Expression.keywords ∧ s ∈ behindDigits := by
          decide
        obtain ⟨keyword, among⟩ := plain _ behind
        have all := (isWord_of_keyword keyword).2
        rw [String.toList_ofList] at all
        rw [← List.cons_append, (takeWhile_dropWhile_of_stop all (startsOutside_of_stop read' stop)).1]
        exact among
    · exact alone (List.takeWhile_cons_of_neg word)

theorem token_of_isNumber (number : t.isNumber = true) : r.token t = t := by
  cases t <;> first | rfl | cases number

/-- A token is read again, with the word replaced. Only behind a number the next one may start inside a
word. -/
theorem tokenAt_apply (named : r.OfName) (read : tokenAt total c cs = .ok (t, rest))
    (ended : (∀ d ∈ rest.head?, isWordPart d = false) → StartsOutside rest)
    (behind : t.isNumber = true → String.ofList (rest.takeWhile isWord) ∈ behindDigits)
    (apart : inside = true → t.startsOperand = false) (total' : Nat) :
    ∃ cs' t' inside', r.apply inside (c :: cs) = c :: cs' ∧
      tokenAt total' c cs' = .ok (t', r.apply inside' rest) ∧
      t'.asWritten cs' (r.apply inside' rest) = r.token (t.asWritten cs rest) ∧
      (inside' = true → t.isNumber = true) := by
  obtain digit | ⟨quote, raw, rfl, quoted, rfl⟩ | ⟨digit, quote, start, w, rfl, part, stop, rfl⟩ |
    ⟨digit, quote, start, symbol⟩ := Expression.tokenAt_cases read
  · obtain ⟨number, ds, rfl, numeral, again⟩ := Expression.number_of_tokenAt digit read
    have other := Expression.ne_string_of_isNumber number
    refine ⟨ds ++ r.apply true rest, t, true, apply_numeral named digit numeral (behind number),
      again total' _ (startsAlike_apply true rest), ?_, fun _ => number⟩
    rw [Expression.asWritten_of_ne_string other, Expression.asWritten_of_ne_string other,
      token_of_isNumber number]
  · have other := isWord_of_quote quote
    have plain : c ≠ '\\' := by
      rintro rfl
      exact absurd quote (by decide)
    have quoted' : isQuoted c false (r.apply false raw) = true := by rwa [isQuoted_apply other]
    refine ⟨r.apply false raw ++ c :: r.apply false rest,
      .string (String.ofList (Expression.unescaped (r.apply false raw))), false, ?_, ?_, ?_, nofun⟩
    · rw [r.apply_other other, r.apply_append (startsOutside_cons.mpr other), r.apply_other other]
    · rw [Expression.tokenAt_string quote, Expression.readString_of_quoted plain quoted']
    · rw [Expression.asWritten_string rfl, Expression.asWritten_string rfl]
      simp [Renaming.token, Token.mapTexts, Renaming.text]
  · -- The token ends where the word ends: by `ended`, a character of the word would be part of it.
    have outside : StartsOutside rest := ended stop
    obtain ⟨w', begins⟩ : ∃ w', r.apply inside (c :: w) = c :: w' :=
      List.head?_eq_some_iff.mp (r.head?_apply inside (c :: w))
    have part' : ∀ d ∈ w', isWordPart d = true := by
      have all : ∀ d ∈ r.apply inside (c :: w), isWordPart d = true := isWordPart_of_mem_apply named
        (List.forall_mem_cons.mpr ⟨isWordPart_of_isWordStart start, part⟩)
      rw [begins] at all
      exact (List.forall_mem_cons.mp all).2
    obtain ⟨taken, left⟩ := takeWhile_dropWhile_of_stop part'
      (show ∀ d ∈ (r.apply false rest).head?, isWordPart d = false by rwa [r.head?_apply])
    have same := ofWord_apply named apart
    rw [begins] at same
    refine ⟨w' ++ r.apply false rest, Token.ofWord (String.ofList (c :: w')), false, ?_, ?_, ?_, nofun⟩
    · rw [← List.cons_append, r.apply_append outside, begins, List.cons_append]
    · rw [Expression.tokenAt_word digit quote start, taken, left]
    · rw [Expression.asWritten_of_ne_string (Expression.ofWord_ne_string _),
        Expression.asWritten_of_ne_string (Expression.ofWord_ne_string _), same]
  · obtain ⟨⟨plain, _, noKeyword⟩, ds, rfl, all, again⟩ := Expression.symbol_of_symbolAt symbol
    have other := Expression.ne_string_of_not_isText plain
    refine ⟨ds ++ r.apply false rest, t, false,
      r.apply_others fun d among => isWord_of_symbol (all d among), ?_, ?_, nofun⟩
    · rw [Expression.tokenAt_symbol digit quote start, again _ (r.head?_apply false rest)]
    · rw [Expression.asWritten_of_ne_string other, Expression.asWritten_of_ne_string other,
        token_eq_self plain noKeyword]

/-- The tokens of an expression with the word replaced, where no operand starts right behind a number. -/
theorem writtenFrom_apply (named : r.OfName) (read : writtenFrom total cs = .ok ts)
    (apart : ts.IsChain Expression.OperandsApart)
    (first : inside = true → ∀ t ∈ ts.head?, t.startsOperand = false) (total' : Nat) :
    writtenFrom total' (r.apply inside cs) = .ok (ts.map r.token) := by
  fun_induction writtenFrom total cs generalizing ts inside with
  | case1 =>
    cases read
    rw [apply_nil, Expression.writtenFrom_nil]
    rfl
  | case2 c cs blank ih =>
    rw [r.apply_other (isWord_of_isBlank blank), Expression.writtenFrom_blank blank]
    exact ih read apart fun within => by cases within
  | case3 => cases read
  | case4 c cs solid t rest shorter found ih =>
    obtain ⟨ts, read', rfl⟩ := map_eq_ok_iff.mp read
    obtain ⟨apart, apart'⟩ := List.isChain_cons.mp apart
    have found : tokenAt total c cs = .ok (t, rest) := by rw [tokenAt, found]; rfl
    have here : inside = true → t.startsOperand = false := fun within =>
      startsOperand_asWritten.symm.trans (first within _ rfl)
    have next (number : t.isNumber = true) : ∀ t' ∈ ts.head?, t'.startsOperand = false := by
      rw [Expression.asWritten_of_ne_string (Expression.ne_string_of_isNumber number)] at apart
      exact fun t' first' => apart t' first' number
    obtain ⟨cs', t', inside', text, found', same, number⟩ :=
      tokenAt_apply named found (startsOutside_of_stop read')
        (fun number => takeWhile_of_writtenFrom read' (next number)) here total'
    rw [text, Expression.writtenFrom_cons (by simpa using solid), found', List.map_cons, ← same]
    simp only [Except.bind, ih read' apart' fun within => next (number within)]
    rfl

/-- Nothing stands in front of a whole text, so only its own tokens have to stand apart. -/
theorem written_apply (named : r.OfName) (read : writtenFrom total cs = .ok ts)
    (apart : ts.IsChain Expression.OperandsApart) (total' : Nat) :
    writtenFrom total' (r.apply false cs) = .ok (ts.map r.token) :=
  writtenFrom_apply named read apart (fun within => absurd within Bool.false_ne_true) total'

end Renaming

end Workflow.Composition
