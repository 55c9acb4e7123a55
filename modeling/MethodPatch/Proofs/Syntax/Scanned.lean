/-
**The characters of a text that is scanned.**

The scanner goes through a text from gap to token and from token to gap. Which characters a token takes
is told by its kind: a number takes letters, digits, points and signs, a word takes those of names, a
punctuator its spelling, and a literal what stands between two quotes.

* `Token.WrittenAs`: how tokens are written;
* `Scan.scanToken_writtenAs`: what is scanned as a token is a way to write it;
* `gaps`, `Interleaved`: the blanks and comments of a text, and the tokens between them;
* `lexemes_interleaved`: **a text without faults is made of its gaps and its tokens.**
-/

import Mathlib.Data.List.TakeWhile
import MethodPatch.Proofs.Syntax.Spelling

namespace MethodPatch

/-! ### How tokens are written -/

/-- Characters of numbers. -/
def isNumeral (c : Char) : Bool :=
  Text.isDigitOf 16 c || c ∈ ['_', '.', '+', '-', 'x', 'X', 'l', 'L']

/-- Characters between two quotes: one behind a backslash is any, and the others are neither the quote
nor a backslash. -/
inductive Quoted (quote : Char) : List Char → Prop
  | nil : Quoted quote []
  | char {c : Char} {rest : List Char} (noQuote : c ≠ quote) (noBackslash : c ≠ '\\')
    (behind : Quoted quote rest) : Quoted quote (c :: rest)
  | escape {c : Char} {rest : List Char} (behind : Quoted quote rest) :
    Quoted quote ('\\' :: c :: rest)

namespace Token

/-- Whether a token is a number. -/
def isNumber : Token → Bool
  | .int _ | .long _ | .float _ | .double _ => true
  | _ => false

/-- Whether a token is a name or a keyword. -/
def isWord : Token → Bool
  | .name _ | .keyword _ => true
  | _ => false

/-- A token can be written with some characters. -/
inductive WrittenAs : Token → List Char → Prop
  | number {token : Token} {text : List Char} (isNumber : token.isNumber = true)
    (all : ∀ c ∈ text, isNumeral c = true) : WrittenAs token text
  | word {token : Token} {text : List Char} (isWord : token.isWord = true)
    (all : ∀ c ∈ text, Scan.isNameRest c = true) : WrittenAs token text
  | punct (mark : Punct) : WrittenAs (.punct mark) mark.spelling.toList
  | string (text : String) {body : List Char} (quoted : Quoted '"' body) :
    WrittenAs (.string text) ('"' :: (body ++ ['"']))
  | char (unit : Text.Unit16) {body : List Char} (quoted : Quoted '\'' body) :
    WrittenAs (.char unit) ('\'' :: (body ++ ['\'']))

/-- No text is read as the end of one. -/
theorem WrittenAs.ne_endOfInput {token : Token} {text : List Char} (written : token.WrittenAs text) :
    token ≠ .endOfInput := by
  rintro rfl
  cases written with
  | number isNumber => cases isNumber
  | word isWord => cases isWord

end Token

namespace Scan

/-! ### Numbers -/

/-- The first characters of a text, so many, belong to numbers. -/
def Numerals (text : List Char) (length : Nat) : Prop := ∀ c ∈ text.take length, isNumeral c = true

theorem isNumeral_of_isDigitOf {radix : Nat} {c : Char} (small : radix ≤ 16)
    (isDigit : Text.isDigitOf radix c = true) : isNumeral c = true := by
  have below := of_decide_eq_true isDigit
  have isHex : Text.isDigitOf 16 c = true := decide_eq_true (Nat.lt_of_lt_of_le below small)
  rw [isNumeral, isHex, Bool.true_or]

theorem isNumeral_of_isDigit {c : Char} (isDigit : c.isDigit = true) : isNumeral c = true :=
  isNumeral_of_isDigitOf (by decide : 10 ≤ 16) (decide_eq_true (digitValue_lt isDigit))

namespace Numerals

variable {text rest : List Char} {first second radix : Nat} {c : Char}

theorem zero (text : List Char) : Numerals text 0 := by
  rintro _ ⟨⟩

theorem add (here : Numerals text first) (behind : Numerals (text.drop first) second) :
    Numerals text (first + second) := by
  intro c isTaken
  rw [List.take_add] at isTaken
  rcases List.mem_append.mp isTaken with isHere | isBehind
  · exact here c isHere
  · exact behind c isBehind

theorem one (isOne : isNumeral c = true) : Numerals (c :: rest) 1 := by
  intro other isTaken
  obtain rfl := List.mem_singleton.mp isTaken
  exact isOne

theorem cons (isOne : isNumeral c = true) (behind : Numerals rest first) :
    Numerals (c :: rest) (first + 1) := by
  intro other isTaken
  rcases List.mem_cons.mp isTaken with rfl | isBehind
  · exact isOne
  · exact behind other isBehind

/-- A run of digits. -/
theorem run (text : List Char) (small : radix ≤ 16) :
    Numerals text (digitRun radix text).length := by
  intro c isTaken
  rw [digitRun, ← List.prefix_iff_eq_take.mp (List.takeWhile_prefix _)] at isTaken
  have isDigit := List.mem_takeWhile_imp isTaken
  rcases Bool.or_eq_true_iff.mp isDigit with isDigit | isLine
  · exact isNumeral_of_isDigitOf small isDigit
  · obtain rfl := of_decide_eq_true isLine
    decide

end Numerals

theorem wholeNumber_isNumber {digits : List Nat} {radix : Nat} {isLong : Bool} {token : Token}
    (whole : wholeNumber digits radix isLong = .ok token) : token.isNumber = true := by
  unfold wholeNumber at whole
  dsimp only at whole
  generalize (if radix = 10 then _ else _ : Nat) = largest at whole
  split at whole
  · cases whole
  · cases whole
    cases isLong <;> rfl

theorem isNumeral_of_isLongSuffix {c : Char} (isSuffix : isLongSuffix c = true) :
    isNumeral c = true := by
  simp only [isLongSuffix, Bool.or_eq_true, decide_eq_true_eq] at isSuffix
  rcases isSuffix with rfl | rfl <;> decide

theorem scanRadix_numerals {radix length : Nat} {text : List Char} {token : Token}
    (small : radix ≤ 16) (scanned : scanRadix radix text = (.ok token, length)) :
    token.isNumber = true ∧ Numerals text length := by
  have run := Numerals.run text small
  unfold scanRadix at scanned
  dsimp only at scanned
  split at scanned
  · cases scanned
  · split at scanned
    · next behind =>
      split at scanned
      · next isSuffix =>
        obtain ⟨whole, rfl⟩ := Prod.mk.inj scanned
        refine ⟨wholeNumber_isNumber whole, run.add ?_⟩
        rw [behind]
        exact .one (isNumeral_of_isLongSuffix isSuffix)
      · obtain ⟨whole, rfl⟩ := Prod.mk.inj scanned
        exact ⟨wholeNumber_isNumber whole, run⟩
    · obtain ⟨whole, rfl⟩ := Prod.mk.inj scanned
      exact ⟨wholeNumber_isNumber whole, run⟩

theorem scanMantissa_numerals (first : Char) (text : List Char) :
    Numerals text (scanMantissa first text).length := by
  have run := Numerals.run text (by decide : 10 ≤ 16)
  unfold scanMantissa
  dsimp only
  split
  · exact run
  · split
    · next behind found =>
      split
      · exact run
      · have point : Numerals text ((digitRun 10 text).length + 1) := by
          refine run.add ?_
          rw [found]
          exact .one (by decide)
        refine point.add ?_
        rw [← List.drop_drop, found]
        exact .run behind (by decide)
    · exact run

theorem scanExponent_numerals {text : List Char} {outcome : Except SyntaxFault Int} {length : Nat}
    (scanned : scanExponent text = some (outcome, length)) : Numerals text length := by
  unfold scanExponent at scanned
  split at scanned
  · cases scanned
  · next letter behind =>
    split at scanned
    · next isLetter =>
      have isFirst : isNumeral letter = true := by
        rcases isLetter with rfl | rfl <;> decide
      have sign : Numerals behind ((behind.take 1).filter fun c => c = '+' || c = '-').length := by
        cases behind with
        | nil => exact .zero _
        | cons c rest =>
          rw [List.take_succ_cons, List.take_zero, List.filter_cons]
          split
          · next isSign =>
            refine .one ?_
            simp only [Bool.or_eq_true, decide_eq_true_eq] at isSign
            rcases isSign with rfl | rfl <;> decide
          · exact .zero _
      have all := Numerals.cons isFirst (sign.add (.run _ (by decide : 10 ≤ 16)))
      dsimp only at scanned
      split at scanned
      all_goals
        obtain ⟨_, rfl⟩ := Prod.mk.inj (Option.some.inj scanned)
        refine Eq.mp (congrArg _ ?_) all
        omega
    · cases scanned

theorem decimalToken_numerals {mantissa : Mantissa} {exponent : Option Int} {text : List Char}
    {token : Token} {suffix : Bool}
    (told : decimalToken mantissa exponent text.head? = (.ok token, suffix)) :
    token.isNumber = true ∧ Numerals text (if suffix then 1 else 0) := by
  cases text with
  | nil =>
    unfold decimalToken at told
    dsimp only [List.head?_nil] at told
    split at told
    · cases told
      exact ⟨rfl, .zero _⟩
    · obtain ⟨whole, rfl⟩ := Prod.mk.inj told
      exact ⟨wholeNumber_isNumber whole, .zero _⟩
  | cons c rest =>
    unfold decimalToken at told
    dsimp only [List.head?_cons] at told
    split at told
    · next isFloat =>
      cases told
      exact ⟨rfl, .one (by rcases isFloat with rfl | rfl <;> decide)⟩
    · split at told
      · next isDouble =>
        cases told
        exact ⟨rfl, .one (by rcases isDouble with rfl | rfl <;> decide)⟩
      · split at told
        · next isSuffix =>
          obtain ⟨whole, rfl⟩ := Prod.mk.inj told
          exact ⟨wholeNumber_isNumber whole,
            .one (isNumeral_of_isLongSuffix (Bool.and_eq_true_iff.mp isSuffix).1)⟩
        · split at told
          · cases told
            exact ⟨rfl, .zero _⟩
          · obtain ⟨whole, rfl⟩ := Prod.mk.inj told
            exact ⟨wholeNumber_isNumber whole, .zero _⟩

theorem scanDecimal_numerals {first : Char} {text : List Char} {token : Token} {length : Nat}
    (scanned : scanDecimal first text = (.ok token, length)) :
    token.isNumber = true ∧ Numerals text length := by
  have mantissa := scanMantissa_numerals first text
  unfold scanDecimal at scanned
  dsimp only at scanned
  split at scanned
  · cases scanned
  · next exponent taken found =>
    obtain ⟨told, rfl⟩ := Prod.mk.inj scanned
    obtain ⟨isNumber, suffix⟩ := decimalToken_numerals (Prod.ext told rfl)
    have exponent := mantissa.add (scanExponent_numerals found)
    refine ⟨isNumber, exponent.add ?_⟩
    rw [← List.drop_drop]
    exact suffix
  · obtain ⟨told, rfl⟩ := Prod.mk.inj scanned
    obtain ⟨isNumber, suffix⟩ := decimalToken_numerals (Prod.ext told rfl)
    exact ⟨isNumber, mantissa.add suffix⟩

/-- A radix is announced by a letter that belongs to numbers. -/
theorem announcedRadix?_numeral {first : Char} {text : List Char} {radix : Nat}
    (announced : announcedRadix? first text = some radix) :
    ∃ c behind, text = c :: behind ∧ isNumeral c = true ∧ radix ≤ 16 := by
  unfold announcedRadix? at announced
  split at announced
  · split at announced
    · next c behind =>
      refine ⟨c, behind, rfl, ?_⟩
      split at announced
      · next isHex =>
        cases announced
        exact ⟨by rcases isHex with rfl | rfl <;> decide, by decide⟩
      · split at announced
        · next isBinary =>
          cases announced
          exact ⟨by rcases isBinary with rfl | rfl <;> decide, by decide⟩
        · cases announced
    · cases announced
  · cases announced

theorem scanNumber_numerals {first : Char} {text : List Char} {token : Token} {length : Nat}
    (scanned : scanNumber first text = (.ok token, length)) :
    token.isNumber = true ∧ Numerals text length := by
  unfold scanNumber at scanned
  split at scanned
  · next announced =>
    obtain ⟨c, behind, rfl, isLetter, small⟩ := announcedRadix?_numeral announced
    obtain ⟨told, rfl⟩ := Prod.mk.inj scanned
    obtain ⟨isNumber, numerals⟩ := scanRadix_numerals small (Prod.ext told rfl)
    exact ⟨isNumber, .cons isLetter numerals⟩
  · exact scanDecimal_numerals scanned

/-! ### Literals -/

/-- An escape takes one character of any kind, and behind it letters `u` and digits alone. -/
theorem scanEscape_taken {text : List Char} {unit : Text.Unit16} {length : Nat}
    (scanned : scanEscape text = (.ok unit, length)) :
    ∃ c others, text.take length = c :: others ∧
      ∀ d ∈ others, d = 'u' ∨ Text.isDigitOf 16 d = true := by
  unfold scanEscape at scanned
  split at scanned
  · cases scanned
  · next c behind =>
    split at scanned
    · cases scanned
      exact ⟨c, [], rfl, List.forall_mem_nil _⟩
    · split at scanned
      · dsimp only at scanned
        split at scanned
        · cases scanned
          rw [Nat.add_assoc, Nat.add_comm, List.take_succ_cons, List.take_add,
            ← List.prefix_iff_eq_take.mp (List.takeWhile_prefix _),
            ← List.prefix_iff_eq_take.mp ((List.takeWhile_prefix _).trans (List.take_prefix ..))]
          refine ⟨c, _, rfl, List.forall_mem_append.mpr
            ⟨fun d isIn => .inl ?_, fun d isIn => .inr ?_⟩⟩
          · have isU := List.mem_takeWhile_imp isIn
            exact of_decide_eq_true isU
          · exact List.mem_takeWhile_imp isIn
        · cases scanned
      · split at scanned
        · dsimp only at scanned
          cases scanned
          rw [Nat.add_comm, List.take_succ_cons,
            ← List.prefix_iff_eq_take.mp ((List.takeWhile_prefix _).trans (List.take_prefix ..))]
          refine ⟨c, _, rfl, fun d isIn => ?_⟩
          have isOctal := List.mem_takeWhile_imp isIn
          have below := of_decide_eq_true isOctal
          exact .inr (decide_eq_true (Nat.lt_of_lt_of_le below (by decide)))
        · cases scanned

/-- An escape goes on with what is between two quotes. -/
theorem scanEscape_quoted {quote : Char} {text rest : List Char} {unit : Text.Unit16} {length : Nat}
    (isQuote : quote = '"' ∨ quote = '\'') (scanned : scanEscape text = (.ok unit, length))
    (behind : Quoted quote rest) : Quoted quote ('\\' :: (text.take length ++ rest)) := by
  obtain ⟨c, others, taken, all⟩ := scanEscape_taken scanned
  rw [taken, List.cons_append]
  refine .escape ?_
  clear taken
  induction others with
  | nil => exact behind
  | cons d rest ih =>
    obtain ⟨isDigit, isRest⟩ := List.forall_mem_cons.mp all
    have different : ∀ other, Text.isDigitOf 16 other = false → other ≠ 'u' → d ≠ other := by
      rintro other noDigit notU rfl
      rcases isDigit with isU | isDigit
      · exact notU isU
      · rw [noDigit] at isDigit
        cases isDigit
    refine .char ?_ (different _ (by decide) (by decide)) (ih isRest)
    rcases isQuote with rfl | rfl
    · exact different _ (by decide) (by decide)
    · exact different _ (by decide) (by decide)

/-- The rest of a string literal goes up to the quote that ends it. -/
theorem scanStringFrom_quoted_of_ok {read text : List Char} {taken length : Nat} {value : String}
    (scanned : scanStringFrom read taken text = (.ok value, length)) :
    ∃ more body, length = taken + more ∧ text.take more = body ++ ['"'] ∧ Quoted '"' body := by
  fun_induction scanStringFrom read taken text with
  | case1 => cases scanned
  | case2 => cases scanned
  | case3 read taken behind _ =>
    cases scanned
    exact ⟨1, [], rfl, rfl, .nil⟩
  | case4 read taken behind _ _ fault found escaped => cases scanned
  | case5 => cases scanned
  | case6 read taken behind unit took escaped decoded found _ _ ih =>
    obtain ⟨more, body, rfl, isTaken, quoted⟩ := ih scanned
    refine ⟨took + more + 1, _, by omega, ?_, scanEscape_quoted (.inl rfl) escaped quoted⟩
    rw [List.take_succ_cons, List.take_add, isTaken]
    simp only [List.cons_append, List.append_assoc]
  | case7 read taken c behind _ noQuote noBackslash ih =>
    obtain ⟨more, body, rfl, taken, quoted⟩ := ih scanned
    refine ⟨more + 1, c :: body, by omega, ?_, .char noQuote noBackslash quoted⟩
    rw [List.take_succ_cons, taken, List.cons_append]

theorem scanString_writtenAs {text : List Char} {token : Token} {length : Nat}
    (scanned : scanString text = (.ok token, length)) :
    token.WrittenAs ('"' :: text.take length) := by
  unfold scanString at scanned
  rcases read : scanStringFrom [] 0 text with ⟨_ | value, took⟩ <;> rw [read] at scanned
  · cases scanned
  · cases scanned
    obtain ⟨more, body, rfl, taken, quoted⟩ := scanStringFrom_quoted_of_ok read
    rw [Nat.zero_add, taken]
    exact .string value quoted

/-- The unit of a character literal is between quotes. -/
theorem scanUnit_quoted {text : List Char} {unit : Text.Unit16} {length : Nat}
    (scanned : scanUnit text = (.ok unit, length)) : Quoted '\'' (text.take length) := by
  unfold scanUnit at scanned
  split at scanned
  · cases scanned
  · next c behind =>
    split at scanned
    · cases scanned
    · next noEnd =>
      split at scanned
      · next isBackslash =>
        subst isBackslash
        obtain ⟨escaped, rfl⟩ := Prod.mk.inj scanned
        have ends : Quoted '\'' [] := .nil
        have quoted := scanEscape_quoted (.inr rfl) (Prod.ext escaped rfl) ends
        rw [List.append_nil] at quoted
        exact quoted
      · next noBackslash =>
        split at scanned
        · cases scanned
        · cases scanned
          exact .char (fun isQuote => noEnd (.inl isQuote)) noBackslash .nil

theorem scanCharacter_writtenAs {text : List Char} {token : Token} {length : Nat}
    (scanned : scanCharacter text = (.ok token, length)) :
    token.WrittenAs ('\'' :: text.take length) := by
  unfold scanCharacter at scanned
  split at scanned
  · cases scanned
  · next unit took read =>
    split at scanned
    · next ends =>
      cases scanned
      have quote : (text.drop took).take 1 = ['\''] := by
        rw [List.take_one, ends]
        rfl
      rw [List.take_add, quote]
      exact .char unit (scanUnit_quoted read)
    · cases scanned

/-! ### Words and punctuators -/

theorem wordToken_isWord {word : String} {token : Token} (told : wordToken word = .ok token) :
    token.isWord = true := by
  unfold wordToken at told
  split at told
  · cases told
    rfl
  · split at told <;> cases told
    rfl

theorem scanWord_writtenAs {first : Char} {text : List Char} {token : Token} {length : Nat}
    (isStart : isNameStart first = true) (scanned : scanWord first text = (.ok token, length)) :
    token.WrittenAs (first :: text.take length) := by
  obtain ⟨told, rfl⟩ := Prod.mk.inj scanned
  refine .word (wordToken_isWord told) (List.forall_mem_cons.mpr ⟨?_, ?_⟩)
  · rw [isNameRest, isStart, Bool.true_or, Bool.true_or]
  · rw [← List.prefix_iff_eq_take.mp (List.takeWhile_prefix _)]
    exact fun c isIn => List.mem_takeWhile_imp isIn

theorem punct?_writtenAs {first : Char} {text : List Char} {mark : Punct}
    (found : punct? (first :: text) = some mark) :
    (Token.punct mark).WrittenAs (first :: text.take (mark.spelling.length - 1)) := by
  unfold punct? at found
  have isPrefix := List.find?_some found
  have spelled := List.prefix_iff_eq_take.mp (List.isPrefixOf_iff_prefix.mp isPrefix)
  have isLong : mark.spelling.toList.length = mark.spelling.length - 1 + 1 := by
    cases mark <;> rfl
  rw [isLong, List.take_succ_cons] at spelled
  rw [← spelled]
  exact .punct mark

/-! ### Tokens -/

theorem scanBehind_writtenAs {first : Char} {text : List Char} {token : Token} {length : Nat}
    (scanned : scanBehind first text = (.ok token, length)) :
    token.WrittenAs (first :: text.take length) := by
  unfold scanBehind at scanned
  split at scanned
  · next starts =>
    obtain ⟨isNumber, numerals⟩ := scanNumber_numerals scanned
    refine .number isNumber (List.forall_mem_cons.mpr ⟨?_, numerals⟩)
    rcases Bool.or_eq_true_iff.mp starts with isDigit | isPoint
    · exact isNumeral_of_isDigit isDigit
    · obtain rfl := of_decide_eq_true (Bool.and_eq_true_iff.mp isPoint).1
      decide
  · split at scanned
    · next isQuote =>
      subst isQuote
      exact scanString_writtenAs scanned
    · split at scanned
      · next isQuote =>
        subst isQuote
        exact scanCharacter_writtenAs scanned
      · split at scanned
        · next isStart => exact scanWord_writtenAs isStart scanned
        · split at scanned
          · next found =>
            cases scanned
            exact punct?_writtenAs found
          · cases scanned

/-- **What is scanned as a token is a way to write it.** -/
theorem scanToken_writtenAs {first : Char} {rest : List Char} {token : Token} {length : Nat}
    (scanned : scanToken (first :: rest) = (.ok token, length)) :
    token.WrittenAs ((first :: rest).take length) := by
  unfold scanToken at scanned
  obtain ⟨told, rfl⟩ := Prod.mk.inj scanned
  exact scanBehind_writtenAs (Prod.ext told rfl)

end Scan

/-! ### Gaps -/

/-- A text is made of gaps and the tokens between them, beginning and ending with a gap. -/
inductive Interleaved : List (List Char) → List Lexeme → List Char → Prop
  | last (gap : List Char) : Interleaved [gap] [] gap
  | token (gap : List Char) {lexeme : Lexeme} {chars rest : List Char} {gaps : List (List Char)}
    {tokens : List Lexeme} (written : lexeme.token.WrittenAs chars)
    (behind : Interleaved gaps tokens rest) :
    Interleaved (gap :: gaps) (lexeme :: tokens) (gap ++ (chars ++ rest))

namespace Cursor

/-- What is left behind blanks and comments is the end of the text. -/
theorem skipFrom_suffix (place : Place) (position : Position) (text : List Char) :
    (skipFrom place position text).2.rest <:+ text := by
  fun_induction skipFrom place position text
  -- Where nothing is left to skip all is left; else one character or two were skipped.
  all_goals first
    | exact List.suffix_refl _
    | next ih => exact ih.trans (List.suffix_cons _ _)
    | next ih => exact ih.trans ((List.suffix_cons _ _).trans (List.suffix_cons _ _))

/-- The blanks and comments at a cursor. -/
def gap (cursor : Cursor) : List Char :=
  cursor.rest.take (cursor.rest.length - cursor.skip.2.rest.length)

theorem gap_append (cursor : Cursor) : cursor.gap ++ cursor.skip.2.rest = cursor.rest := by
  obtain ⟨front, split⟩ := skipFrom_suffix .code cursor.position cursor.rest
  have isGap : cursor.gap = front := by
    unfold gap skip
    generalize (skipFrom .code cursor.position cursor.rest).2.rest = behind at split
    rw [← split, List.length_append, Nat.add_sub_cancel, List.take_left]
  rw [isGap]
  exact split

/-- The blanks and comments from a cursor on: in front of each token, and at the end. -/
def gapsFrom (cursor : Cursor) : List (List Char) :=
  match _skipped : cursor.skip.2 with
  | ⟨_, []⟩ => [cursor.gap]
  | ⟨position, c :: rest⟩ =>
    cursor.gap :: (forward ⟨position, c :: rest⟩ (Scan.scanToken (c :: rest)).2).gapsFrom
termination_by cursor.rest.length
decreasing_by
  have shorter := cursor.skip_length
  have longer := Scan.scanToken_pos (List.cons_ne_nil c rest)
  rw [_skipped] at shorter
  simp only [forward, List.length_drop, List.length_cons] at *
  omega

theorem gapsFrom_end {cursor : Cursor} {position : Position}
    (skipped : cursor.skip.2 = ⟨position, []⟩) : cursor.gapsFrom = [cursor.rest] := by
  have whole := cursor.gap_append
  rw [skipped, List.append_nil] at whole
  rw [gapsFrom]
  split
  · rw [whole]
  · next behind =>
    rw [skipped] at behind
    cases behind

theorem gapsFrom_token {cursor : Cursor} {position : Position} {c : Char} {rest : List Char}
    (skipped : cursor.skip.2 = ⟨position, c :: rest⟩) :
    cursor.gapsFrom =
      cursor.gap :: (forward ⟨position, c :: rest⟩ (Scan.scanToken (c :: rest)).2).gapsFrom := by
  rw [gapsFrom]
  split
  · next behind =>
    rw [skipped] at behind
    cases behind
  · next behind =>
    rw [skipped] at behind
    cases behind
    rfl

/-- A text without faults goes from gap to token and from token to gap. -/
theorem lexemesFrom_interleaved {cursor : Cursor} {read : List Lexeme} {position : Position}
    (ends : (cursor.lexemesFrom read).finish = .ok position) :
    ∃ tokens, (cursor.lexemesFrom read).items = read.reverse ++ tokens ∧
      Interleaved cursor.gapsFrom tokens cursor.rest := by
  fun_induction lexemesFrom read cursor with
  | case1 => cases ends
  | case2 read cursor position skipped =>
    rw [gapsFrom_end (congrArg Prod.snd skipped)]
    exact ⟨[], (List.append_nil _).symm, .last _⟩
  | case3 => cases ends
  | case4 read cursor position c rest skipped token length scanned ih =>
    obtain ⟨tokens, items, interleaved⟩ := ih ends
    rw [gapsFrom_token (congrArg Prod.snd skipped), scanned]
    refine ⟨⟨token, position⟩ :: tokens, by rw [items, List.reverse_cons, List.append_assoc]; rfl, ?_⟩
    have written := Scan.scanToken_writtenAs scanned
    have whole := cursor.gap_append
    rw [skipped] at whole
    dsimp only [forward] at whole interleaved ⊢
    have split : Interleaved _ (⟨token, position⟩ :: tokens) _ :=
      .token cursor.gap written interleaved
    rw [List.take_append_drop, whole] at split
    exact split

/-- No token of a text is its end. -/
theorem ne_endOfInput_of_mem_lexemesFrom (cursor : Cursor) (read : List Lexeme) :
    ∀ lexeme ∈ (cursor.lexemesFrom read).items, lexeme ∈ read ∨ lexeme.token ≠ .endOfInput := by
  fun_induction lexemesFrom read cursor with
  | case1 | case2 | case3 => exact fun lexeme isRead => .inl (List.mem_reverse.mp isRead)
  | case4 read cursor position c rest skipped token length scanned ih =>
    intro lexeme isIn
    rcases ih lexeme isIn with isRead | noEnd
    · rcases List.mem_cons.mp isRead with rfl | isRead
      · exact .inr (Scan.scanToken_writtenAs scanned).ne_endOfInput
      · exact .inl isRead
    · exact .inr noEnd

end Cursor

/-- The blanks and comments of a text: in front of each token, and at the end. -/
def gaps (text : String) : List (List Char) := (Cursor.ofText text).gapsFrom

/-- **A text without faults is made of its gaps and its tokens.** -/
theorem lexemes_interleaved {text : String} {position : Position}
    (ends : (lexemes text).finish = .ok position) :
    Interleaved (gaps text) (lexemes text).items text.toList := by
  obtain ⟨tokens, items, interleaved⟩ := Cursor.lexemesFrom_interleaved ends
  rw [lexemes, items]
  exact interleaved

theorem ne_endOfInput_of_mem_lexemes {text : String} {lexeme : Lexeme}
    (isIn : lexeme ∈ (lexemes text).items) : lexeme.token ≠ .endOfInput :=
  (Cursor.ne_endOfInput_of_mem_lexemesFrom (.ofText text) [] lexeme isIn).resolve_left nofun

end MethodPatch
