import Workflow.Proofs.Expression.Lexing
import Workflow.Proofs.Lists
import Workflow.Template.Lexing

/-!
The inside of a print, one token at a time. White space ends every token, so what stands there is
read in the same way whether the text ends or goes on behind white space, and white space around it
is not read at all.
-/

namespace Workflow.Template

open Text (isBlank)

variable {b c quote : Char} {cs more : List Char}

/-! ## White space ends what stands in front of it -/

/-- To look at the white space there is, character by character. -/
theorem of_isBlank {p : Char → Bool} (all : ∀ n ∈ Expression.blanks, p (Char.ofNat n) = true)
    (blank : isBlank b = true) : p b = true := by
  rw [← Char.ofNat_toNat b]
  exact all _ (Expression.mem_blanks blank)

theorem isBlank_of_isInnerSpace (space : isInnerSpace c = true) : isBlank c = true := by
  simp only [isInnerSpace, Bool.or_eq_true, beq_iff_eq] at space
  obtain (((rfl | rfl) | rfl) | rfl) | rfl := space <;> decide

theorem isNamePart_of_isBlank (blank : isBlank b = true) : isNamePart b = false := by
  have none_ := of_isBlank (p := fun b => !isNamePart b) (by decide +kernel) blank
  simpa using none_

/-- White space is not the second character of a sign, and it ends no string and no marker. -/
theorem plain_of_isBlank (blank : isBlank b = true) : b ∉ ['/', '*', '=', '\'', '"', '\x7d'] :=
  of_decide_eq_true <| of_isBlank (p := fun b => decide (b ∉ ['/', '*', '=', '\'', '"', '\x7d']))
    (by decide +kernel) blank

/-- Text that may follow a token without changing how the token is read: it starts with white space, and
no string goes on in it. -/
structure Apart (more : List Char) : Prop where
  blank : ∀ b ∈ more.head?, isBlank b = true
  unquoted : ∀ quote ∈ ['\'', '"'], quote ∉ more

theorem Apart.nil : Apart [] where
  blank b first := absurd first (Option.not_mem_none b)
  unquoted _ _ := List.not_mem_nil

theorem Apart.of_blank (blank : ∀ b ∈ more, isBlank b = true) : Apart more where
  blank b first := blank b (List.mem_of_mem_head? first)
  unquoted quote marks inside := by
    refine plain_of_isBlank (blank quote inside) ?_
    obtain rfl | rfl := List.mem_pair.mp marks <;> decide

namespace Apart

variable (apart : Apart more)

include apart

theorem stops_name : ∀ b ∈ more.head?, isNamePart b = false := fun b first =>
  isNamePart_of_isBlank (apart.blank b first)

theorem stops_digits (base : Nat) : ∀ b ∈ more.head?, isDigitOf base b = false := by
  intro b first
  have none_ := of_isBlank (p := fun b => b != '_' && !b.isDigit && !('a' ≤ b && b ≤ 'f') &&
    !('A' ≤ b && b ≤ 'F')) (by decide +kernel) (apart.blank b first)
  simp only [Bool.and_eq_true, bne_iff_ne, Bool.not_eq_true'] at none_
  simp [isDigitOf, none_]

theorem stops_decimal (place : Place) : ∀ b ∈ more.head?, place.next? b = none := by
  intro b first
  have none_ := of_isBlank (p := fun b => (Place.whole.next? b).isNone &&
    (Place.fraction.next? b).isNone && (Place.exponentSign.next? b).isNone &&
    (Place.exponent.next? b).isNone) (by decide +kernel) (apart.blank b first)
  simp only [Bool.and_eq_true, Option.isNone_iff_eq_none] at none_
  cases place <;> simp [none_]

end Apart

/-! ## Strings and numerals in front of further text -/

theorem readString_eq_none (absent : quote ∉ cs) : readString quote cs = none := by
  fun_induction readString quote cs with
  | case1 => rfl
  | case2 c cs ih => rw [ih (by simp_all)]; rfl
  | case3 cs => simp at absent
  | case4 c cs _ _ ih => rw [ih (by simp_all)]; rfl

theorem readString_cons (plain : c ≠ '\\') (differs : c ≠ quote) (cs : List Char) :
    readString quote (c :: cs) = (readString quote cs).map fun found => (c :: found.1, found.2) := by
  rw [readString, if_neg differs]
  exact fun _ _ same => absurd same plain

/-- A string that ends is read alike, whatever stands behind the text, unless its quote does. -/
theorem readString_append (unescaped : quote ≠ '\\') (absent : quote ∉ more) (cs : List Char) :
    readString quote (cs ++ more) =
      (readString quote cs).map fun found => (found.1, found.2 ++ more) := by
  fun_induction readString quote cs with
  | case1 => exact readString_eq_none absent
  | case2 c cs ih =>
    rw [List.cons_append, List.cons_append, readString, ih, Option.map_map, Option.map_map]
    rfl
  | case3 cs => cases cs <;> simp [readString, unescaped]
  | case4 c cs single differs ih =>
    cases cs with
    | nil =>
      refine (readString_eq_none ?_).trans rfl
      simpa [Ne.symm differs] using absent
    | cons d cs =>
      have plain : c ≠ '\\' := fun same => single d cs same rfl
      rw [List.cons_append, readString_cons plain differs, ih, Option.map_map, Option.map_map]
      rfl

/-- A numeral is read alike before text that stands apart. -/
theorem readDecimal_append (apart : Apart more) (place : Place) (cs : List Char) :
    readDecimal place (cs ++ more) =
      ((readDecimal place cs).1, (readDecimal place cs).2.1, (readDecimal place cs).2.2 ++ more) := by
  fun_induction readDecimal place cs with
  | case1 place =>
    cases more with
    | nil => rfl
    | cons b more => simp [readDecimal, apart.stops_decimal place b rfl]
  | case2 place c cs stops => simp [readDecimal, stops]
  | case3 place c cs place' goes text last rest read ih =>
    rw [read] at ih
    simp [readDecimal, goes, ih]

/-- The base that the start of a numeral tells. -/
def base? : List Char → Option Nat
  | '0' :: x :: _ =>
    if x = 'b' || x = 'B' then some 2
    else if x = 'o' || x = 'O' then some 8
    else if x = 'x' || x = 'X' then some 16
    else none
  | _ => none

theorem readNumber_of_base {base : Nat} (told : base? cs = some base) :
    readNumber cs =
      (if ((cs.drop 2).takeWhile (isDigitOf base)).getLast? == some '_' then .damaged false
        else wholeToken base (((cs.drop 2).takeWhile (isDigitOf base)).filter (· != '_')),
      (cs.drop 2).dropWhile (isDigitOf base)) := by
  fun_cases readNumber cs with
  | case1 _ base' told' =>
    cases told.symm.trans told'
    rfl
  | case2 _ untold => cases told.symm.trans untold

theorem readNumber_of_decimal (untold : base? cs = none) :
    readNumber cs =
      (if (readDecimal .whole cs).1.getLast? == some '_' then .damaged false
        else if (readDecimal .whole cs).2.1 = .whole then
          wholeToken 10 ((readDecimal .whole cs).1.filter (· != '_'))
        else floatToken ((readDecimal .whole cs).1.filter (· != '_')),
      (readDecimal .whole cs).2.2) := by
  fun_cases readNumber cs with
  | case1 _ base told => cases untold.symm.trans told
  | case2 _ _ _ _ _ read => rw [read]

theorem base?_eq_none (notZero : c ≠ '0') : base? (c :: cs) = none := by
  simp [base?, notZero]

theorem base?_singleton (c : Char) : base? [c] = none := by
  simp [base?]

theorem base?_append (apart : Apart more) (cs : List Char) :
    base? (c :: (cs ++ more)) = base? (c :: cs) := by
  by_cases zero : c = '0'
  · subst zero
    cases cs with
    | cons x cs => rfl
    | nil =>
      cases more with
      | nil => rfl
      | cons b more =>
        have none_ := of_isBlank (p := fun b => (base? ['0', b]).isNone) (by decide +kernel)
          (apart.blank b rfl)
        exact Option.isNone_iff_eq_none.mp none_
  · rw [base?_eq_none zero, base?_eq_none zero]

/-- A numeral of any base is read alike with more text behind it that starts apart. -/
theorem readNumber_append (apart : Apart more) (cs : List Char) :
    readNumber (c :: (cs ++ more)) = ((readNumber (c :: cs)).1, (readNumber (c :: cs)).2 ++ more) := by
  cases told : base? (c :: cs) with
  | none =>
    rw [readNumber_of_decimal told, readNumber_of_decimal ((base?_append apart cs).trans told),
      ← List.cons_append, readDecimal_append apart]
  | some base =>
    rw [readNumber_of_base told, readNumber_of_base ((base?_append apart cs).trans told)]
    cases cs with
    | nil => cases (base?_singleton c).symm.trans told
    | cons x cs =>
      obtain ⟨digits, rest⟩ := takeWhile_append_of_stop (l := cs) (apart.stops_digits base)
      simp only [List.cons_append, List.drop_succ_cons, List.drop_zero, digits, rest]

/-! ## The next token -/

/-- What the inside of a print starts with. -/
inductive Scan where
  /-- White space, and what stands behind it. -/
  | space (rest : List Char)
  /-- A token, how it changes the number of open brackets, and what stands behind it. -/
  | token (t : Token) (change : Int) (rest : List Char)
  /-- Nothing that can be read. -/
  | damaged (escape : Bool)

namespace Scan

/-- The scan of a text that goes on with more. -/
def before (more : List Char) : Scan → Scan
  | space rest => space (rest ++ more)
  | token t change rest => token t change (rest ++ more)
  | damaged escape => damaged escape

/-- What stands behind the token or the white space. -/
def rest : Scan → List Char
  | space rest => rest
  | token _ _ rest => rest
  | damaged _ => []

/-- The tokens of the text, given those of what is left. -/
def tokens (n : Int) (next : Int → List Char → List Token) : Scan → List Token
  | space rest => next n rest
  | token t change rest => t :: next (n + change) rest
  | damaged escape => [.damaged escape]

/-- The scan of a string, from what is read behind its opening quote. -/
def ofString : Option (List Char × List Char) → Scan
  | none => damaged false
  | some (written, rest) =>
    match unescape none written with
    | none => damaged true
    | some text => token (.string (String.ofList text)) 0 rest

def ofNumber : Token × List Char → Scan
  | (.damaged escape, _) => damaged escape
  | (t, rest) => token t 0 rest

end Scan

/-- Scans the text inside of a print that starts with the character. -/
def scan (c : Char) (cs : List Char) : Scan :=
  if isInnerSpace c then .space cs
  else if pairSigns.contains ((c :: cs).take 2) then
    .token (.sign (String.ofList ((c :: cs).take 2))) 0 ((c :: cs).drop 2)
  else if singleSigns.contains c then .token (.sign (String.singleton c)) (bracketChange c) cs
  else if c = '\'' || c = '"' then .ofString (readString c cs)
  else if c.isDigit then .ofNumber (readNumber (c :: cs))
  else if isNameStart c then
    .token (.word (String.ofList (c :: cs.takeWhile isNamePart))) 0 (cs.dropWhile isNamePart)
  else .damaged false

/-- With so many brackets open the print does not end at the start of the text. -/
def GoesOn (n : Int) (cs : List Char) : Prop :=
  n = 0 → readEnd false cs = none

/-- Where the print does not end, its tokens are those that are scanned one by one. -/
theorem tokens_inside {n : Int} (goesOn : GoesOn n (c :: cs)) (fuel : Nat) :
    tokens (fuel + 1) (.inside false n) (c :: cs) =
      (scan c cs).tokens n fun n => tokens fuel (.inside false n) := by
  have none_ : (if n = 0 then readEnd false (c :: cs) else none) = none := by
    split
    next zero => exact goesOn zero
    next => rfl
  rw [tokens, none_]
  dsimp only
  unfold scan
  split_ifs
  · rfl
  · simp only [Scan.tokens, Int.add_zero]
  · rfl
  · cases readString c cs with
    | none => rfl
    | some found =>
      cases text : unescape none found.1 with
      | none => simp only [Scan.ofString, text, Scan.tokens]
      | some text => simp only [Scan.ofString, text, Scan.tokens, Int.add_zero]
  · obtain ⟨t, rest⟩ := readNumber (c :: cs)
    cases t <;> simp only [Scan.ofNumber, Scan.tokens, Int.add_zero]
  · simp only [Scan.tokens, Int.add_zero]
  · rfl

/-- Outside of all brackets the end of a print is seen. -/
theorem tokens_end {drops : Bool} {rest : List Char} (ends : readEnd false cs = some (drops, rest))
    (fuel : Nat) :
    tokens (fuel + 1) (.inside false 0) cs = .closePrint :: tokens fuel (.outside drops) rest := by
  cases cs with
  | nil => cases ends
  | cons c cs =>
    rw [tokens, if_pos rfl, ends]
    rfl

/-! ## Scanning in front of further text, and white space -/

theorem not_pair_of_isBlank (blank : isBlank b = true) (c : Char) : [c, b] ∉ pairSigns := by
  intro pair
  have plain := plain_of_isBlank blank
  simp only [pairSigns, List.mem_cons, List.cons.injEq, and_true, List.not_mem_nil, or_false]
    at pair plain
  tauto

theorem Scan.ofString_before (found : Option (List Char × List Char)) (more : List Char) :
    Scan.ofString (found.map fun p => (p.1, p.2 ++ more)) = (Scan.ofString found).before more := by
  cases found with
  | none => rfl
  | some found =>
    cases text : unescape none found.1 with
    | none => simp only [Option.map_some, Scan.ofString, text, Scan.before]
    | some text => simp only [Option.map_some, Scan.ofString, text, Scan.before]

theorem Scan.ofNumber_before (t : Token) (rest more : List Char) :
    Scan.ofNumber (t, rest ++ more) = (Scan.ofNumber (t, rest)).before more := by
  cases t <;> rfl

/-- Further text behind white space changes nothing. -/
theorem scan_append (apart : Apart more) (c : Char) (cs : List Char) :
    scan c (cs ++ more) = (scan c cs).before more := by
  have single : ¬pairSigns.contains [c] := by simp [pairSigns]
  -- A sign at the end of the text does not become a pair with the white space behind it.
  have pair : pairSigns.contains ((c :: (cs ++ more)).take 2) =
      pairSigns.contains ((c :: cs).take 2) := by
    cases cs with
    | cons d cs => rfl
    | nil =>
      cases more with
      | nil => rfl
      | cons b more =>
        have double := not_pair_of_isBlank (apart.blank b rfl) c
        rw [List.nil_append, List.take_succ_cons, List.take_succ_cons, List.take_zero,
          List.take_succ_cons, List.take_nil, Bool.eq_false_iff.mpr single, Bool.eq_false_iff]
        exact fun inside => double (List.contains_iff_mem.mp inside)
  unfold scan
  rw [pair]
  split_ifs with _ isPair _ quote
  · rfl
  · cases cs with
    | nil => exact absurd isPair single
    | cons d cs => rfl
  · rfl
  · have marks : c = '\'' ∨ c = '"' := by simpa using quote
    have unescaped : c ≠ '\\' := by obtain rfl | rfl := marks <;> decide
    have unquoted := apart.unquoted c (List.mem_pair.mpr marks)
    rw [readString_append unescaped unquoted, Scan.ofString_before]
  · rw [readNumber_append apart, Scan.ofNumber_before]
  · obtain ⟨name, rest⟩ := takeWhile_append_of_stop (l := cs) apart.stops_name
    rw [name, rest]
    rfl
  · rfl

/-- White space is passed over, or it cannot be read. -/
theorem scan_blank (blank : isBlank c = true) (cs : List Char) :
    scan c cs = .space cs ∨ scan c cs = .damaged false := by
  have plain := of_isBlank (p := fun b => isInnerSpace b || !(b == '!' || singleSigns.contains b ||
    b == '\'' || b == '"' || b.isDigit || isNameStart b)) (by decide +kernel) blank
  unfold scan
  by_cases space : isInnerSpace c = true
  · exact .inl (if_pos space)
  · simp only [space, Bool.false_or, Bool.not_eq_true', Bool.or_eq_false_iff, beq_eq_false_iff_ne]
      at plain
    obtain ⟨⟨⟨⟨⟨notBang, notSingle⟩, notQuote⟩, notDouble⟩, notDigit⟩, notName⟩ := plain
    have notPair : ¬pairSigns.contains ((c :: cs).take 2) := by
      simp only [singleSigns, List.contains_eq_mem, decide_eq_false_iff_not, List.mem_cons, not_or]
        at notSingle
      cases cs <;> simp [pairSigns, notBang, notSingle]
    have unquoted : ¬((c = '\'' || c = '"') = true) := by simp [notQuote, notDouble]
    rw [if_neg space, if_neg notPair, if_neg (Bool.eq_false_iff.mp notSingle), if_neg unquoted,
      if_neg (Bool.eq_false_iff.mp notDigit), if_neg (Bool.eq_false_iff.mp notName)]
    exact .inr rfl

theorem Scan.ofString_ne_space (found : Option (List Char × List Char)) (rest : List Char) :
    Scan.ofString found ≠ .space rest := by
  cases found with
  | none => nofun
  | some found =>
    cases text : unescape none found.1 <;> simp [Scan.ofString, text]

theorem Scan.ofNumber_ne_space (read : Token × List Char) (rest : List Char) :
    Scan.ofNumber read ≠ .space rest := by
  obtain ⟨t, behind⟩ := read
  cases t <;> nofun

/-- Only white space is passed over, one character at a time. -/
theorem scan_eq_space {rest : List Char} (passed : scan c cs = .space rest) :
    isBlank c = true ∧ rest = cs := by
  unfold scan at passed
  split_ifs at passed with space
  · cases passed
    exact ⟨isBlank_of_isInnerSpace space, rfl⟩
  · exact absurd passed (Scan.ofString_ne_space _ _)
  · exact absurd passed (Scan.ofNumber_ne_space _ _)

theorem length_readString_le {found : List Char × List Char} (read : readString quote cs = some found) :
    found.2.length ≤ cs.length := by
  fun_induction readString quote cs generalizing found with
  | case1 => cases read
  | case2 c cs ih =>
    obtain ⟨inner, read', rfl⟩ := Option.map_eq_some_iff.mp read
    exact (ih read').trans (by simp; omega)
  | case3 cs =>
    cases read
    simp
  | case4 c cs _ _ ih =>
    obtain ⟨inner, read', rfl⟩ := Option.map_eq_some_iff.mp read
    exact (ih read').trans (by simp)

theorem length_readDecimal_le (place : Place) (cs : List Char) :
    (readDecimal place cs).2.2.length ≤ cs.length := by
  fun_induction readDecimal place cs with
  | case1 => exact Nat.le_refl _
  | case2 => exact Nat.le_refl _
  | case3 place c cs place' goes text last rest read ih =>
    rw [read] at ih
    exact ih.trans (Nat.le_succ _)

theorem length_readNumber_le (digit : c.isDigit = true) (cs : List Char) :
    (readNumber (c :: cs)).2.length ≤ cs.length := by
  cases told : base? (c :: cs) with
  | some base =>
    rw [readNumber_of_base told]
    refine (List.dropWhile_sublist _).length_le.trans ?_
    simp
  | none =>
    rw [readNumber_of_decimal told]
    simp only [readDecimal, Place.next?, digit, if_true]
    exact length_readDecimal_le _ _

theorem Scan.length_rest_ofNumber_le (read : Token × List Char) :
    (Scan.ofNumber read).rest.length ≤ read.2.length := by
  obtain ⟨t, behind⟩ := read
  cases t <;> simp [Scan.ofNumber, Scan.rest]

/-- A scan never gives text back. -/
theorem length_le_of_scan {s : Scan} (scanned : scan c cs = s) : s.rest.length ≤ cs.length := by
  rw [← scanned]
  unfold scan
  split_ifs with _ _ _ quote digit
  · exact Nat.le_refl _
  · simp [Scan.rest]
  · exact Nat.le_refl _
  · cases read : readString c cs with
    | none => exact Nat.zero_le _
    | some found =>
      have short := length_readString_le read
      cases text : unescape none found.1 <;> simp [Scan.ofString, text, Scan.rest, short]
  · exact (Scan.length_rest_ofNumber_le _).trans (length_readNumber_le digit cs)
  · exact (List.dropWhile_sublist _).length_le
  · exact Nat.zero_le _

theorem readEnd_eq_none_iff :
    readEnd false cs = none ↔ ∀ rest, skipControl cs ≠ '\x7d' :: '\x7d' :: rest := by
  unfold readEnd
  split <;> simp_all

theorem skipControl_append (c : Char) (cs more : List Char) :
    skipControl (c :: (cs ++ more)) = skipControl (c :: cs) ++ more := by
  by_cases minus : c = '-'
  · rw [minus]
    rfl
  · by_cases plus : c = '+'
    · rw [plus]
      rfl
    · simp [skipControl, minus, plus]

/-- A print ends in front of further text just where it ends without it. -/
theorem goesOn_append {n : Int} (apart : Apart more) :
    GoesOn n (c :: (cs ++ more)) ↔ GoesOn n (c :: cs) := by
  refine imp_congr_right fun _ => ?_
  have other : ∀ rest, more ≠ '\x7d' :: rest := by
    rintro rest rfl
    exact plain_of_isBlank (apart.blank _ rfl) (by decide)
  rw [readEnd_eq_none_iff, readEnd_eq_none_iff, skipControl_append]
  cases skipControl (c :: cs) with
  | nil => simp [other]
  | cons x front =>
    cases front with
    | nil => simp [other]
    | cons y front => simp

/-! ## Runs of tokens -/

/-- With so many open brackets, the text is the tokens and leaves so many brackets open; nothing in it
ends the print. -/
inductive Scans : Int → List Char → Int → List Token → Prop
  | nil {n : Int} : Scans n [] n []
  | space {n n' : Int} {c : Char} {cs rest : List Char} {ts : List Token}
    (goesOn : GoesOn n (c :: cs)) (scanned : scan c cs = .space rest)
    (behind : Scans n rest n' ts) : Scans n (c :: cs) n' ts
  | token {n n' change : Int} {c : Char} {cs rest : List Char} {t : Token} {ts : List Token}
    (goesOn : GoesOn n (c :: cs)) (scanned : scan c cs = .token t change rest)
    (behind : Scans (n + change) rest n' ts) : Scans n (c :: cs) n' (t :: ts)

/-- Words, literals and signs, which expressions are made of. -/
def Token.isInner : Token → Bool
  | .word _ | .string _ | .int _ | .float _ | .sign _ => true
  | _ => false

section Runs

variable {n n' n'' : Int} {ts us : List Token} {fuel : Nat}

/-- Text whose tokens are all of them words, literals and signs is read to its end. -/
theorem scans_of_inner (enough : cs.length < fuel)
    (inner : ∀ t ∈ tokens fuel (.inside false n) cs, t.isInner = true) :
    ∃ n', Scans n cs n' (tokens fuel (.inside false n) cs) := by
  induction fuel generalizing n cs with
  | zero => omega
  | succ fuel ih =>
    cases cs with
    | nil => exact ⟨n, .nil⟩
    | cons c cs =>
      have enough : cs.length < fuel := Nat.lt_of_succ_lt_succ enough
      by_cases goesOn : GoesOn n (c :: cs)
      · rw [tokens_inside goesOn] at inner ⊢
        cases scanned : scan c cs with
        | space rest =>
          have short : rest.length ≤ cs.length := length_le_of_scan scanned
          rw [scanned] at inner
          obtain ⟨n', scans⟩ := ih (short.trans_lt enough) inner
          exact ⟨n', .space goesOn scanned scans⟩
        | token t change rest =>
          have short : rest.length ≤ cs.length := length_le_of_scan scanned
          rw [scanned] at inner
          obtain ⟨n', scans⟩ := ih (short.trans_lt enough) fun u inside => inner u (.tail t inside)
          exact ⟨n', .token goesOn scanned scans⟩
        | damaged escape =>
          rw [scanned] at inner
          cases inner _ (.head _)
      · obtain ⟨rfl, ends⟩ := Classical.not_imp.mp goesOn
        obtain ⟨⟨drops, rest⟩, ends⟩ := Option.ne_none_iff_exists'.mp ends
        rw [tokens_end ends] at inner
        cases inner _ (.head _)

/-- What has been scanned are the tokens in front of those of the text behind it. -/
theorem Scans.tokens_append (scans : Scans n cs n' ts) (apart : Apart more)
    (enough : (cs ++ more).length < fuel) :
    ∃ fuel', more.length < fuel' ∧ tokens fuel (.inside false n) (cs ++ more) =
      ts ++ tokens fuel' (.inside false n') more := by
  induction scans generalizing fuel with
  | nil => exact ⟨fuel, enough, rfl⟩
  | @space n n' c cs rest ts goesOn scanned behind ih =>
    have short : rest.length ≤ cs.length := length_le_of_scan scanned
    rw [List.cons_append, List.length_cons, List.length_append] at enough
    obtain ⟨fuel, rfl⟩ := Nat.exists_eq_succ_of_ne_zero (Nat.ne_zero_of_lt enough)
    rw [List.cons_append, tokens_inside ((goesOn_append apart).mpr goesOn), scan_append apart, scanned]
    exact ih (by rw [List.length_append]; omega)
  | @token n n' change c cs rest t ts goesOn scanned behind ih =>
    have short : rest.length ≤ cs.length := length_le_of_scan scanned
    rw [List.cons_append, List.length_cons, List.length_append] at enough
    obtain ⟨fuel, rfl⟩ := Nat.exists_eq_succ_of_ne_zero (Nat.ne_zero_of_lt enough)
    rw [List.cons_append, tokens_inside ((goesOn_append apart).mpr goesOn), scan_append apart, scanned]
    have enough : (rest ++ more).length < fuel := by
      rw [List.length_append]
      omega
    obtain ⟨fuel', enough', same⟩ := ih enough
    exact ⟨fuel', enough', congrArg (List.cons t) same⟩

theorem Scans.tokenizeExpression (scans : Scans 0 cs n ts) : tokenizeExpression cs = ts := by
  have enough : (cs ++ []).length < cs.length + 1 := by simp
  obtain ⟨fuel, -, same⟩ := scans.tokens_append Apart.nil enough
  rw [List.append_nil] at same
  rw [Template.tokenizeExpression, same]
  cases fuel <;> simp [tokens]

/-- Texts that stand apart are scanned one after the other. -/
theorem Scans.append (scans : Scans n cs n' ts) (apart : Apart more) (scans' : Scans n' more n'' us) :
    Scans n (cs ++ more) n'' (ts ++ us) := by
  induction scans with
  | nil => exact scans'
  | @space _ _ c cs rest ts goesOn scanned behind ih =>
    have scanned' : scan c (cs ++ more) = (Scan.space rest).before more := scanned ▸ scan_append apart c cs
    exact .space ((goesOn_append apart).mpr goesOn) scanned' (ih scans')
  | @token _ _ change c cs rest t ts goesOn scanned behind ih =>
    have scanned' : scan c (cs ++ more) = (Scan.token t change rest).before more :=
      scanned ▸ scan_append apart c cs
    exact .token ((goesOn_append apart).mpr goesOn) scanned' (ih scans')

/-! ## White space around a run -/

theorem Scans.trimStart (scans : Scans n cs n' ts) : Scans n (Text.trimStart cs) n' ts := by
  induction scans with
  | nil => exact .nil
  | @space _ _ c cs rest ts goesOn scanned behind ih =>
    obtain ⟨blank, rfl⟩ := scan_eq_space scanned
    rwa [Text.trimStart, List.dropWhile_cons_of_pos blank]
  | @token _ _ change c cs rest t ts goesOn scanned behind ih =>
    rw [Text.trimStart, List.dropWhile_cons_of_neg]
    · exact .token goesOn scanned behind
    · intro blank
      obtain passed | stuck := scan_blank blank cs
      · cases scanned.symm.trans passed
      · cases scanned.symm.trans stuck

/-- White space alone has no tokens. -/
theorem Scans.of_blank (scans : Scans n cs n' ts) (blank : ∀ c ∈ cs, isBlank c = true) :
    n' = n ∧ ts = [] := by
  induction scans with
  | nil => exact ⟨rfl, rfl⟩
  | space goesOn scanned behind ih =>
    obtain ⟨-, rfl⟩ := scan_eq_space scanned
    exact ih fun c inside => blank c (.tail _ inside)
  | token goesOn scanned behind ih =>
    obtain passed | stuck := scan_blank (blank _ (.head _)) _
    · cases scanned.symm.trans passed
    · cases scanned.symm.trans stuck

/-- No string or numeral of a run reaches into the white space at its end. -/
theorem Scans.of_append_blank (scans : Scans n (cs ++ more) n' ts)
    (blank : ∀ c ∈ more, isBlank c = true) : Scans n cs n' ts := by
  have apart := Apart.of_blank blank
  generalize whole : cs ++ more = all at scans
  induction scans generalizing cs with
  | nil =>
    obtain ⟨rfl, -⟩ := List.append_eq_nil_iff.mp whole
    exact .nil
  | @space n n' c all rest ts goesOn scanned behind ih =>
    cases cs with
    | nil =>
      obtain ⟨rfl, rfl⟩ := (Scans.space goesOn scanned behind).of_blank (whole ▸ blank)
      exact .nil
    | cons d cs =>
      rw [List.cons_append] at whole
      obtain ⟨rfl, rfl⟩ := List.cons.inj whole
      have goesOn' := (goesOn_append apart).mp goesOn
      obtain ⟨space, rfl⟩ := scan_eq_space scanned
      obtain passed | stuck := scan_blank space cs
      · exact .space goesOn' passed (ih rfl)
      · rw [scan_append apart, stuck] at scanned
        cases scanned
  | @token n n' change c all rest t ts goesOn scanned behind ih =>
    cases cs with
    | nil =>
      obtain ⟨-, none_⟩ := (Scans.token goesOn scanned behind).of_blank (whole ▸ blank)
      cases none_
    | cons d cs =>
      rw [List.cons_append] at whole
      obtain ⟨rfl, rfl⟩ := List.cons.inj whole
      have goesOn' := (goesOn_append apart).mp goesOn
      rw [scan_append apart] at scanned
      cases scanned' : scan d cs with
      | space rest' =>
        rw [scanned'] at scanned
        cases scanned
      | damaged escape =>
        rw [scanned'] at scanned
        cases scanned
      | token t' change' rest' =>
        rw [scanned'] at scanned
        cases scanned
        exact .token goesOn' scanned' (ih rfl)

theorem Scans.trim (scans : Scans n cs n' ts) : Scans n (Text.trim cs) n' ts := by
  have whole : Text.trim cs ++ ((Text.trimStart cs).reverse.takeWhile isBlank).reverse =
      Text.trimStart cs := by
    rw [Text.trim, Text.trimEnd, ← List.reverse_append, List.takeWhile_append_dropWhile,
      List.reverse_reverse]
  refine Scans.of_append_blank (whole ▸ scans.trimStart) fun c inside => ?_
  exact List.all_eq_true.mp List.all_takeWhile c (List.mem_reverse.mp inside)

end Runs

end Workflow.Template
