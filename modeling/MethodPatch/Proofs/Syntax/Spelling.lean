/-
**Tokens spelled out.**

Every token but a number with a fraction has a spelling: whole numbers in decimal digits, characters by
their code unit, texts as they are but for the characters that a backslash has to stand in front of. A
text spells tokens if they stand in it in order, with blanks around them, and none of them goes on with
the first character behind it.

* `Token.spelling`, `Token.isSpelled`: spellings, and the tokens that have one;
* `Token.joins`: whether a token would go on with a character;
* `Scan.scanToken_spelling`: a token is read from its spelling;
* `Spells`, `lexemes_of_spells`: **the tokens of a text are those that it spells.**
-/

import MethodPatch.Syntax.Lexer

namespace MethodPatch

/-! ### Spellings -/

/-- A word that names something: neither a keyword nor reserved. -/
def isIdentifier (text : String) : Bool :=
  (match text.toList with
    | first :: others => Scan.isNameStart first && others.all Scan.isNameRest
    | [] => false) &&
  Keyword.ofWord? text = none && text ∉ reservedWords

/-- The four hexadecimal digits of a code unit. -/
def unitDigits (unit : Text.Unit16) : List Char :=
  [Nat.digitChar (unit.toNat / 0x1000), Nat.digitChar (unit.toNat / 0x100 % 16),
    Nat.digitChar (unit.toNat / 0x10 % 16), Nat.digitChar (unit.toNat % 16)]

/-- A character between the quotes of a text. -/
def quotedChar (c : Char) : List Char :=
  if c = '"' then ['\\', '"']
  else if c = '\\' then ['\\', '\\']
  else if c = '\n' then ['\\', 'n']
  else if c = '\r' then ['\\', 'r']
  else [c]

namespace Token

/-- The characters of a token. -/
def spelling : Token → List Char
  | .name text => text.toList
  | .int value => Nat.toDigits 10 value.toNat
  | .long value => Nat.toDigits 10 value.toNat ++ ['L']
  | .char unit => '\'' :: '\\' :: 'u' :: (unitDigits unit ++ ['\''])
  | .string text => '"' :: (text.toList.flatMap quotedChar ++ ['"'])
  | .keyword word => word.word.toList
  | .punct mark => mark.spelling.toList
  | .float _ | .double _ | .endOfInput => []

/-- Tokens that are read from their spellings. A number may be one more than the largest of its
type. -/
def isSpelled : Token → Bool
  | .name text => isIdentifier text
  | .int value => 0 ≤ value && value ≤ 0x80000000
  | .long value => 0 ≤ value && value ≤ 0x8000000000000000
  | .char _ | .string _ | .keyword _ | .punct _ => true
  | .float _ | .double _ | .endOfInput => false

/-- Whether a token would go on with a character behind it, or would begin a comment with it. -/
def joins : Token → Char → Bool
  | .name _, c | .keyword _, c => Scan.isNameRest c
  | .int _, c => Scan.isNameRest c || c = '.'
  | .punct mark, c =>
    (Punct.all.any fun longer => (mark.spelling.toList ++ [c]).isPrefixOf longer.spelling.toList) ||
      mark = .slash && (c = '/' || c = '*') || mark = .dot && c.isDigit
  | .long _, _ | .char _, _ | .string _, _ => false
  | .float _, _ | .double _, _ | .endOfInput, _ => true

theorem joins_punct (mark : Punct) (c : Char) : joins (.punct mark) c =
    ((Punct.all.any fun longer => (mark.spelling.toList ++ [c]).isPrefixOf longer.spelling.toList) ||
      mark = .slash && (c = '/' || c = '*') || mark = .dot && c.isDigit) :=
  rfl

/-- A token ends in front of a text. -/
def Ends (token : Token) (rest : List Char) : Prop := ∀ c ∈ rest.head?, token.joins c = false

end Token

namespace Scan

/-! ### Words -/

theorem takeWhile_append_of_head {holds : Char → Bool} {run rest : List Char}
    (all : ∀ c ∈ run, holds c = true) (ends : ∀ c ∈ rest.head?, holds c = false) :
    (run ++ rest).takeWhile holds = run := by
  rw [List.takeWhile_append_of_pos all]
  cases rest with
  | nil => rw [List.takeWhile_nil, List.append_nil]
  | cons c others =>
    rw [List.takeWhile_cons_of_neg (by simp [ends c rfl]), List.append_nil]

/-- A digit is that of a number below ten. -/
theorem eq_digitChar_of_isDigit {c : Char} (isDigit : c.isDigit = true) :
    ∃ digit < 10, c = Nat.digitChar digit := by
  simp only [Char.isDigit, Bool.and_eq_true, decide_eq_true_eq, ge_iff_le,
    UInt32.le_iff_toNat_le] at isDigit
  have least : 48 ≤ c.toNat := isDigit.1
  have most : c.toNat ≤ 57 := isDigit.2
  refine ⟨c.toNat - 48, by omega, Char.toNat_inj.mp ?_⟩
  rw [Nat.toNat_digitChar_of_lt_ten (by omega)]
  omega

/-- A name begins with no digit. -/
theorem isDigit_of_isNameStart {c : Char} (isStart : isNameStart c = true) : c.isDigit = false := by
  refine Bool.eq_false_iff.mpr fun isDigit => ?_
  obtain ⟨digit, small, rfl⟩ := eq_digitChar_of_isDigit isDigit
  have none : ∀ digit < 10, isNameStart (Nat.digitChar digit) = false := by decide
  rw [none digit small] at isStart
  cases isStart

/-- What a character that begins a name is not. -/
theorem ne_of_isNameStart {c other : Char} (isStart : isNameStart c = true)
    (isNone : isNameStart other = false) : c ≠ other := by
  rintro rfl
  rw [isNone] at isStart
  cases isStart

theorem startsNumber_of_isNameStart {c : Char} (isStart : isNameStart c = true) (text : List Char) :
    startsNumber c text = false := by
  unfold startsNumber
  rw [isDigit_of_isNameStart isStart,
    decide_eq_false (ne_of_isNameStart isStart (by decide : isNameStart '.' = false))]
  rfl

/-- A word is read up to a character that does not belong to a name. -/
theorem scanToken_word {first : Char} {others rest : List Char} (isStart : isNameStart first = true)
    (all : ∀ c ∈ others, isNameRest c = true) (ends : ∀ c ∈ rest.head?, isNameRest c = false) :
    scanToken (first :: others ++ rest) =
      (wordToken (String.ofList (first :: others)), others.length + 1) := by
  have isWord : scanBehind first (others ++ rest) = scanWord first (others ++ rest) := by
    rw [scanBehind, startsNumber_of_isNameStart isStart, if_neg Bool.false_ne_true,
      if_neg (ne_of_isNameStart isStart (by decide)),
      if_neg (ne_of_isNameStart isStart (by decide)), if_pos isStart]
  rw [List.cons_append, scanToken, isWord, scanWord, takeWhile_append_of_head all ends]

/-- A name is read from its spelling. -/
theorem scanToken_name {text : String} (isName : isIdentifier text = true) {rest : List Char}
    (ends : ∀ c ∈ rest.head?, isNameRest c = false) :
    scanToken (text.toList ++ rest) = (.ok (.name text), text.toList.length) := by
  unfold isIdentifier at isName
  simp only [Bool.and_eq_true, decide_eq_true_eq] at isName
  obtain ⟨⟨spelled, noKeyword⟩, notReserved⟩ := isName
  have isWord : wordToken text = .ok (.name text) := by
    rw [wordToken, noKeyword, if_neg notReserved]
  cases chars : text.toList with
  | nil =>
    rw [chars] at spelled
    cases spelled
  | cons first others =>
    rw [chars] at spelled
    obtain ⟨isStart, all⟩ := Bool.and_eq_true_iff.mp spelled
    rw [scanToken_word isStart (List.all_eq_true.mp all) ends, ← chars, String.ofList_toList, isWord,
      chars, List.length_cons]

/-- A keyword is read from its spelling. -/
theorem scanToken_keyword (word : Keyword) {rest : List Char}
    (ends : ∀ c ∈ rest.head?, isNameRest c = false) :
    scanToken (word.word.toList ++ rest) = (.ok (.keyword word), word.word.toList.length) := by
  have isSpelled : ∃ first others, word.word.toList = first :: others ∧ isNameStart first = true ∧
      others.all isNameRest = true := by
    cases word <;> exact ⟨_, _, rfl, by decide, by decide⟩
  obtain ⟨first, others, chars, isStart, all⟩ := isSpelled
  have isWord : wordToken word.word = .ok (.keyword word) := by
    rw [wordToken, Keyword.ofWord?_word]
  rw [chars, scanToken_word isStart (List.all_eq_true.mp all) ends, ← chars, String.ofList_toList, isWord, chars,
    List.length_cons]

/-! ### Punctuators -/

/-- A punctuator is the first of all whose spelling its own begins with. -/
theorem find?_spelling (mark : Punct) :
    (Punct.all.find? fun other => other.spelling.toList.isPrefixOf mark.spelling.toList) = some mark := by
  cases mark <;> decide

/-- If a punctuator ends in front of a text, then no longer one begins with it. -/
theorem punct?_spelling {mark : Punct} {rest : List Char} (ends : Token.Ends (.punct mark) rest) :
    punct? (mark.spelling.toList ++ rest) = some mark := by
  have same : ∀ other ∈ Punct.all, other.spelling.toList.isPrefixOf (mark.spelling.toList ++ rest) =
      other.spelling.toList.isPrefixOf mark.spelling.toList := by
    intro other isPunct
    rw [Bool.eq_iff_iff, List.isPrefixOf_iff_prefix, List.isPrefixOf_iff_prefix]
    refine ⟨fun begins => ?_, fun begins => begins.trans (List.prefix_append ..)⟩
    rcases List.prefix_or_prefix_of_prefix begins (List.prefix_append ..) with shorter | longer
    · exact shorter
    · obtain ⟨more, spelled⟩ := longer
      rw [← spelled, List.prefix_append_right_inj] at begins
      cases more with
      | nil =>
        rw [List.append_nil] at spelled
        exact ⟨[], by rw [List.append_nil, spelled]⟩
      | cons c others =>
        obtain ⟨behind, isRest⟩ := begins
        have isLonger : (mark.spelling.toList ++ [c]).isPrefixOf other.spelling.toList = true := by
          rw [List.isPrefixOf_iff_prefix, ← spelled]
          exact (List.prefix_append_right_inj _).mpr (List.prefix_append [c] others)
        have joined : Token.joins (.punct mark) c = false := ends c (by rw [← isRest]; rfl)
        have isJoined : Token.joins (.punct mark) c = true := by
          rw [Token.joins_punct, List.any_eq_true.mpr ⟨other, isPunct, isLonger⟩]
          rfl
        rw [isJoined] at joined
        cases joined
  rw [punct?, ← List.head?_filter, List.filter_congr same, List.head?_filter]
  exact find?_spelling mark

/-- A punctuator is read from its spelling. -/
theorem scanToken_punct (mark : Punct) {rest : List Char} (ends : Token.Ends (.punct mark) rest) :
    scanToken (mark.spelling.toList ++ rest) = (.ok (.punct mark), mark.spelling.toList.length) := by
  have isSpelled : ∃ first others, mark.spelling.toList = first :: others ∧
      first ≠ '"' ∧ first ≠ '\'' ∧ isNameStart first = false ∧ first.isDigit = false ∧
      (first = '.' → mark = .dot ∧ others = []) := by
    cases mark <;> exact ⟨_, _, rfl, by decide, by decide, by decide, by decide, by decide⟩
  obtain ⟨first, others, chars, noText, noCharacter, noName, noDigit, isDot⟩ := isSpelled
  have noNumber : startsNumber first (others ++ rest) = false := by
    unfold startsNumber
    rw [noDigit, Bool.false_or]
    by_cases dot : first = '.'
    · obtain ⟨rfl, rfl⟩ := isDot dot
      cases rest with
      | nil => exact Bool.and_false _
      | cons c others =>
        have noDigitBehind := ends c rfl
        rw [Token.joins_punct] at noDigitBehind
        simp only [Bool.or_eq_false_iff] at noDigitBehind
        rw [decide_eq_true dot, Bool.true_and]
        exact noDigitBehind.2
    · rw [decide_eq_false dot, Bool.false_and]
  have found := punct?_spelling ends
  rw [chars, List.cons_append] at found ⊢
  rw [scanToken, scanBehind, noNumber, if_neg Bool.false_ne_true, if_neg noText, if_neg noCharacter,
    noName, if_neg Bool.false_ne_true, found]
  dsimp only
  rw [← String.length_toList, chars]
  rfl

/-! ### Whole numbers -/

theorem digitValue_of_isDigit {c : Char} (isDigit : c.isDigit = true) :
    Text.digitValue c = c.toNat - 48 := by
  rw [Text.digitValue, if_pos isDigit]

theorem digitValue_lt {c : Char} (isDigit : c.isDigit = true) : Text.digitValue c < 10 := by
  obtain ⟨digit, small, rfl⟩ := eq_digitChar_of_isDigit isDigit
  rw [digitValue_of_isDigit isDigit, Nat.toNat_digitChar_of_lt_ten small]
  omega

/-- Digits of a radix with underscores anywhere. -/
def IsRun (radix : Nat) (run : List Char) : Prop :=
  ∀ c ∈ run, (Text.isDigitOf radix c || decide (c = '_')) = true

instance (radix : Nat) (run : List Char) : Decidable (IsRun radix run) :=
  List.decidableBAll _ run

theorem isRun_digits {digits : List Char} (all : ∀ c ∈ digits, c.isDigit = true) : IsRun 10 digits := by
  intro c isIn
  rw [Text.isDigitOf, decide_eq_true (digitValue_lt (all c isIn)), Bool.true_or]

/-- A run of digits ends in front of a character that is neither a digit nor an underscore. -/
theorem digitRun_append {radix : Nat} {run rest : List Char} (isRun : IsRun radix run)
    (ends : ∀ c ∈ rest.head?, Text.isDigitOf radix c = false ∧ c ≠ '_') :
    digitRun radix (run ++ rest) = run := by
  refine takeWhile_append_of_head isRun fun c isHead => ?_
  rw [(ends c isHead).1, decide_eq_false (ends c isHead).2, Bool.false_or]

theorem digitsOf_cons {c : Char} (isDigit : c.isDigit = true) (others : List Char) :
    digitsOf (c :: others) = Text.digitValue c :: digitsOf others := by
  have noUnderscore : c ≠ '_' := by
    rintro rfl
    cases isDigit
  simp [digitsOf, noUnderscore]

theorem digitsOf_digits {digits : List Char} (all : ∀ c ∈ digits, c.isDigit = true) :
    digitsOf digits = digits.map Text.digitValue := by
  induction digits with
  | nil => rfl
  | cons first others ih =>
    obtain ⟨isDigit, rest⟩ := List.forall_mem_cons.mp all
    rw [digitsOf_cons isDigit, ih rest, List.map_cons]

theorem ofDigits_map_digitValue {digits : List Char} (all : ∀ c ∈ digits, c.isDigit = true) :
    Text.ofDigits 10 (digits.map Text.digitValue) = Nat.ofDigitChars 10 digits 0 := by
  rw [Text.ofDigits, Nat.ofDigitChars]
  generalize 0 = value
  induction digits generalizing value with
  | nil => rfl
  | cons first others ih =>
    obtain ⟨isDigit, rest⟩ := List.forall_mem_cons.mp all
    rw [List.map_cons, List.foldl_cons, List.foldl_cons, ih rest, digitValue_of_isDigit isDigit,
      Nat.mul_comm]
    rfl

theorem isDigit_toDigits (n : Nat) : ∀ c ∈ Nat.toDigits 10 n, c.isDigit = true :=
  fun _ => Nat.isDigit_of_mem_toDigits (by decide) (by decide)

/-- A positive number does not begin with a zero. -/
theorem head?_toDigits {n : Nat} (pos : 0 < n) : (Nat.toDigits 10 n).head? ≠ some '0' := by
  induction n using Nat.strongRecOn with
  | ind n ih =>
    by_cases small : n < 10
    · rw [Nat.toDigits_of_lt_base small, List.head?_cons]
      have none : ∀ digit < 10, 0 < digit → some (Nat.digitChar digit) ≠ some '0' := by decide
      exact none n small pos
    · have large := Nat.le_of_not_lt small
      have front := ih (n / 10) (by omega) (by omega)
      obtain ⟨first, others, digits⟩ :=
        List.exists_cons_of_ne_nil (Nat.toDigits_ne_nil (n := n / 10) (b := 10))
      rw [digits] at front
      rw [Nat.toDigits_of_base_le (by decide) large, digits]
      exact front

/-- The digits of a number say that it is decimal. -/
theorem plainRadix_toDigits (n : Nat) :
    plainRadix ((Nat.toDigits 10 n).map Text.digitValue) = 10 := by
  rcases Nat.eq_zero_or_pos n with rfl | pos
  · rfl
  · have notZero := head?_toDigits pos
    have isDigit := isDigit_toDigits n
    cases digits : Nat.toDigits 10 n with
    | nil => rfl
    | cons first others =>
      rw [digits] at notZero isDigit
      obtain ⟨digit, small, rfl⟩ := eq_digitChar_of_isDigit (isDigit first List.mem_cons_self)
      have positive : ∀ digit < 10, some (Nat.digitChar digit) ≠ some '0' →
          Text.digitValue (Nat.digitChar digit) ≠ 0 := by decide
      have notZeroValue := positive digit small notZero
      rw [List.map_cons, plainRadix]
      rintro _ _ same
      exact absurd (List.cons.inj same).1 notZeroValue

/-- A decimal number that is at most one more than the largest of its type is a token. -/
theorem wholeNumber_toDigits {n : Nat} {isLong : Bool}
    (fits : n ≤ Decimal.twoTo (integerBits isLong - 1)) :
    wholeNumber ((Nat.toDigits 10 n).map Text.digitValue) 10 isLong =
      .ok (if isLong then .long n else .int n) := by
  have value : Text.ofDigits 10 ((Nat.toDigits 10 n).map Text.digitValue) = n := by
    rw [ofDigits_map_digitValue (isDigit_toDigits n),
      Nat.ofDigitChars_toDigits (by decide) (by decide)]
  have small : ((Nat.toDigits 10 n).map Text.digitValue).any (10 ≤ ·) = false := by
    refine List.any_eq_false.mpr fun digit isDigit => ?_
    obtain ⟨c, isIn, rfl⟩ := List.mem_map.mp isDigit
    have := digitValue_lt (isDigit_toDigits n c isIn)
    simpa using this
  unfold wholeNumber
  simp only [value, small, if_pos, Bool.false_eq_true, false_or]
  rw [if_neg (Nat.not_lt.mpr fits)]

/-- The digits in front of a text that does not go on with them. -/
theorem scanMantissa_run {first : Char} {others rest : List Char} (isDigit : first.isDigit = true)
    (isRun : IsRun 10 others)
    (ends : ∀ c ∈ rest.head?, Text.isDigitOf 10 c = false ∧ c ≠ '_' ∧ c ≠ '.') :
    scanMantissa first (others ++ rest) = ⟨digitsOf (first :: others), none, others.length⟩ := by
  have noPoint : first ≠ '.' := by
    rintro rfl
    cases isDigit
  have run := digitRun_append isRun fun c isHead => ⟨(ends c isHead).1, (ends c isHead).2.1⟩
  unfold scanMantissa
  simp only [run, if_neg noPoint, List.drop_left, digitsOf_cons isDigit]
  cases rest with
  | nil => rfl
  | cons c more =>
    have noPointBehind := (ends c rfl).2.2
    split
    · next same => exact absurd (List.cons.inj same).1 noPointBehind
    · rfl

/-- A character that belongs to no name is not one that does. -/
theorem ne_of_isNameRest {c other : Char} (isNone : isNameRest c = false)
    (isRest : isNameRest other = true) : c ≠ other := by
  rintro rfl
  rw [isNone] at isRest
  cases isRest

/-- A character that belongs to no name does not go on with digits. -/
theorem isDigitOf_of_isNameRest {c : Char} (isNone : isNameRest c = false) :
    Text.isDigitOf 10 c = false := by
  refine Bool.eq_false_iff.mpr fun isDigit => ?_
  unfold isNameRest at isNone
  have noDigit := (Bool.or_eq_false_iff.mp (Bool.or_eq_false_iff.mp isNone).1).2
  have small := of_decide_eq_true isDigit
  unfold Text.digitValue at small
  rw [noDigit, if_neg Bool.false_ne_true] at small
  split at small
  · next isLower =>
    have : 97 ≤ c.toNat := UInt32.le_iff_toNat_le.mp isLower.1
    omega
  · split at small
    · next isUpper =>
      have : 65 ≤ c.toNat := UInt32.le_iff_toNat_le.mp isUpper.1
      omega
    · omega

/-- A number without a suffix is read up to a character that does not belong to it. -/
theorem scanDecimal_run {first : Char} {others rest : List Char} (isDigit : first.isDigit = true)
    (isRun : IsRun 10 others) (ends : ∀ c ∈ rest.head?, isNameRest c = false ∧ c ≠ '.') :
    scanDecimal first (others ++ rest) =
      (wholeNumber (digitsOf (first :: others)) (plainRadix (digitsOf (first :: others))) false,
        others.length) := by
  have mantissa : scanMantissa first (others ++ rest) =
      ⟨digitsOf (first :: others), none, others.length⟩ := by
    refine scanMantissa_run isDigit isRun fun c isHead => ?_
    obtain ⟨isNone, noPoint⟩ := ends c isHead
    exact ⟨isDigitOf_of_isNameRest isNone, ne_of_isNameRest isNone (by decide), noPoint⟩
  unfold scanDecimal
  rw [mantissa]
  dsimp only
  rw [List.drop_left]
  cases rest with
  | nil => rfl
  | cons c more =>
    have isNone := (ends c rfl).1
    have noExponent : scanExponent (c :: more) = none := by
      rw [scanExponent, if_neg]
      rintro (same | same) <;> exact absurd same (ne_of_isNameRest isNone (by decide))
    have noSuffix : isLongSuffix c = false := by
      rw [isLongSuffix, decide_eq_false (ne_of_isNameRest isNone (by decide)),
        decide_eq_false (ne_of_isNameRest isNone (by decide)), Bool.false_or]
    have noSingle : ¬(c = 'f' ∨ c = 'F') := by
      rintro (same | same) <;> exact absurd same (ne_of_isNameRest isNone (by decide))
    have noDouble : ¬(c = 'd' ∨ c = 'D') := by
      rintro (same | same) <;> exact absurd same (ne_of_isNameRest isNone (by decide))
    simp only [noExponent, decimalToken, List.head?_cons, noSingle, noDouble, noSuffix, if_false]
    rfl

/-- The suffix of a `long` is no digit and belongs to nothing else in a number. -/
theorem cases_isLongSuffix {suffix : Char} (isSuffix : isLongSuffix suffix = true) :
    suffix = 'L' ∨ suffix = 'l' := by
  rwa [isLongSuffix, Bool.or_eq_true, decide_eq_true_eq, decide_eq_true_eq] at isSuffix

/-- A number with the suffix of a `long` ends with it. -/
theorem scanDecimal_long {first suffix : Char} {others : List Char} (isDigit : first.isDigit = true)
    (isRun : IsRun 10 others) (isSuffix : isLongSuffix suffix = true) (rest : List Char) :
    scanDecimal first (others ++ suffix :: rest) =
      (wholeNumber (digitsOf (first :: others)) (plainRadix (digitsOf (first :: others))) true,
        others.length + 1) := by
  have mantissa : scanMantissa first (others ++ suffix :: rest) =
      ⟨digitsOf (first :: others), none, others.length⟩ :=
    scanMantissa_run isDigit isRun fun c isHead => by
      cases isHead
      rcases cases_isLongSuffix isSuffix with rfl | rfl <;> decide
  unfold scanDecimal
  rw [mantissa]
  dsimp only
  rw [List.drop_left]
  rcases cases_isLongSuffix isSuffix with rfl | rfl <;> rfl

/-- Digits and underscores announce no radix. -/
theorem noLetter_of_isRun {c : Char} (isRun : (Text.isDigitOf 10 c || decide (c = '_')) = true) :
    ¬(c = 'x' ∨ c = 'X') ∧ ¬(c = 'b' ∨ c = 'B') := by
  constructor <;> rintro (rfl | rfl) <;> exact absurd isRun (by decide)

/-- Other characters announce no radix. -/
theorem announcedRadix?_of_head {text : List Char}
    (noLetter : ∀ c ∈ text.head?, ¬(c = 'x' ∨ c = 'X') ∧ ¬(c = 'b' ∨ c = 'B')) (first : Char) :
    announcedRadix? first text = none := by
  unfold announcedRadix?
  split
  · cases text with
    | nil => rfl
    | cons c more =>
      obtain ⟨noHexadecimal, noBinary⟩ := noLetter c rfl
      dsimp only
      rw [if_neg noHexadecimal, if_neg noBinary]
  · rfl

/-- No radix is announced in front of more digits or of a character that does not belong to a
number. -/
theorem announcedRadix?_run {first : Char} {others rest : List Char} (isRun : IsRun 10 others)
    (ends : ∀ c ∈ rest.head?, isLongSuffix c = true ∨ isNameRest c = false) :
    announcedRadix? first (others ++ rest) = none := by
  refine announcedRadix?_of_head (fun c isHead => ?_) first
  cases others with
  | nil =>
    rcases ends c isHead with isSuffix | isNone
    · rcases cases_isLongSuffix isSuffix with rfl | rfl <;> decide
    · constructor <;> rintro (same | same) <;> exact absurd same (ne_of_isNameRest isNone (by decide))
  | cons digit more =>
    cases isHead
    exact noLetter_of_isRun (isRun c List.mem_cons_self)

/-- A number without the letter of a radix is a decimal number. -/
theorem scanToken_number {first : Char} {text : List Char} (isNumber : startsNumber first text = true)
    (noRadix : announcedRadix? first text = none) :
    scanToken (first :: text) = ((scanDecimal first text).1, (scanDecimal first text).2 + 1) := by
  rw [scanToken, scanBehind, if_pos isNumber, scanNumber, noRadix]

/-- A text that begins with a digit begins with a number. -/
theorem scanToken_digit {first : Char} {text : List Char} (isDigit : first.isDigit = true)
    (noRadix : announcedRadix? first text = none) :
    scanToken (first :: text) = ((scanDecimal first text).1, (scanDecimal first text).2 + 1) := by
  refine scanToken_number ?_ noRadix
  unfold startsNumber
  rw [isDigit, Bool.true_or]

/-- A number is read from its spelling. -/
theorem scanToken_int {n : Nat} (fits : n ≤ 0x80000000) {rest : List Char}
    (ends : ∀ c ∈ rest.head?, isNameRest c = false ∧ c ≠ '.') :
    scanToken (Nat.toDigits 10 n ++ rest) = (.ok (.int n), (Nat.toDigits 10 n).length) := by
  have whole : wholeNumber ((Nat.toDigits 10 n).map Text.digitValue) 10 false = .ok (.int n) :=
    wholeNumber_toDigits fits
  have radix := plainRadix_toDigits n
  have all := isDigit_toDigits n
  rw [← digitsOf_digits all] at whole radix
  obtain ⟨first, others, digits⟩ :=
    List.exists_cons_of_ne_nil (Nat.toDigits_ne_nil (n := n) (b := 10))
  rw [digits] at whole radix all ⊢
  obtain ⟨isDigit, behind⟩ := List.forall_mem_cons.mp all
  have isRun := isRun_digits behind
  have noRadix : announcedRadix? first (others ++ rest) = none :=
    announcedRadix?_run isRun fun c isHead => .inr (ends c isHead).1
  rw [List.cons_append, scanToken_digit isDigit noRadix, scanDecimal_run isDigit isRun ends, radix, whole,
    List.length_cons]

/-- A number with the suffix of a `long` is read from its spelling. -/
theorem scanToken_long {n : Nat} (fits : n ≤ 0x8000000000000000) (rest : List Char) :
    scanToken (Nat.toDigits 10 n ++ 'L' :: rest) =
      (.ok (.long n), (Nat.toDigits 10 n).length + 1) := by
  have whole : wholeNumber ((Nat.toDigits 10 n).map Text.digitValue) 10 true = .ok (.long n) :=
    wholeNumber_toDigits fits
  have radix := plainRadix_toDigits n
  have all := isDigit_toDigits n
  rw [← digitsOf_digits all] at whole radix
  obtain ⟨first, others, digits⟩ :=
    List.exists_cons_of_ne_nil (Nat.toDigits_ne_nil (n := n) (b := 10))
  rw [digits] at whole radix all ⊢
  obtain ⟨isDigit, behind⟩ := List.forall_mem_cons.mp all
  have isRun := isRun_digits behind
  have noRadix : announcedRadix? first (others ++ 'L' :: rest) = none :=
    announcedRadix?_run isRun fun c isHead => .inl (by cases isHead; rfl)
  rw [List.cons_append, scanToken_digit isDigit noRadix, scanDecimal_long isDigit isRun rfl, radix, whole,
    List.length_cons]

/-! ### Characters and texts -/

theorem digitValue_digitChar {digit : Nat} (small : digit < 16) :
    Text.digitValue (Nat.digitChar digit) = digit := by
  have all : ∀ digit < 16, Text.digitValue (Nat.digitChar digit) = digit := by decide
  exact all digit small

/-- Four hexadecimal digits behind a backslash and a `u` are read as the unit that they spell. -/
theorem scanEscape_digits {digits : List Char} (four : digits.length = 4)
    (hex : ∀ c ∈ digits, Text.isDigitOf 16 c = true) (rest : List Char) :
    scanEscape ('u' :: (digits ++ rest)) =
      (.ok (UInt16.ofNat (Text.ofDigits 16 (digits.map Text.digitValue))), 5) := by
  have noMore : (digits ++ rest).takeWhile (· = 'u') = [] := by
    obtain ⟨first, others, rfl⟩ := List.exists_cons_of_length_pos (by omega : 0 < digits.length)
    have noLetter : first ≠ 'u' := by
      rintro rfl
      exact absurd (hex 'u' List.mem_cons_self) (by decide)
    rw [List.cons_append, List.takeWhile_cons_of_neg (by simpa using noLetter)]
  have whole : ((digits ++ rest).take 4).takeWhile (Text.isDigitOf 16) = digits := by
    have alone : (digits ++ []).takeWhile (Text.isDigitOf 16) = digits :=
      takeWhile_append_of_head hex nofun
    rw [List.append_nil] at alone
    rw [← four, List.take_left, alone]
  have named : namedEscape? 'u' = none := rfl
  unfold scanEscape
  simp only [named, noMore, List.length_nil, List.drop_zero, whole, four, if_true]

/-- The digits of a code unit are four, and they spell it. -/
theorem unitDigits_spell (unit : Text.Unit16) : (unitDigits unit).length = 4 ∧
    (∀ c ∈ unitDigits unit, Text.isDigitOf 16 c = true) ∧
      Text.ofDigits 16 ((unitDigits unit).map Text.digitValue) = unit.toNat := by
  have bound := unit.toNat_lt
  have isDigit : ∀ digit < 16, Text.isDigitOf 16 (Nat.digitChar digit) = true := by decide
  have first : unit.toNat / 0x1000 < 16 := by omega
  have second : unit.toNat / 0x100 % 16 < 16 := by omega
  have third : unit.toNat / 0x10 % 16 < 16 := by omega
  have last : unit.toNat % 16 < 16 := by omega
  refine ⟨rfl, ?_, ?_⟩
  · simp only [unitDigits, List.mem_cons, List.not_mem_nil, or_false]
    rintro c (rfl | rfl | rfl | rfl)
    · exact isDigit _ first
    · exact isDigit _ second
    · exact isDigit _ third
    · exact isDigit _ last
  · simp only [unitDigits, List.map_cons, List.map_nil, digitValue_digitChar first,
      digitValue_digitChar second, digitValue_digitChar third, digitValue_digitChar last,
      Text.ofDigits, List.foldl_cons, List.foldl_nil]
    omega

/-- A code unit is read from four digits that spell it. -/
theorem scanToken_char {unit : Text.Unit16} {digits : List Char} (four : digits.length = 4)
    (hex : ∀ c ∈ digits, Text.isDigitOf 16 c = true)
    (value : Text.ofDigits 16 (digits.map Text.digitValue) = unit.toNat) (rest : List Char) :
    scanToken ('\'' :: '\\' :: 'u' :: (digits ++ '\'' :: rest)) = (.ok (.char unit), 8) := by
  have read : scanUnit ('\\' :: 'u' :: (digits ++ '\'' :: rest)) = (.ok unit, 6) := by
    rw [scanUnit, if_neg (by decide), if_pos rfl, scanEscape_digits four hex, value,
      UInt16.ofNat_toNat]
  have isCharacter : scanBehind '\'' ('\\' :: 'u' :: (digits ++ '\'' :: rest)) =
      scanCharacter ('\\' :: 'u' :: (digits ++ '\'' :: rest)) := rfl
  have closing : (('\\' :: 'u' :: (digits ++ '\'' :: rest)).drop 6).head? = some '\'' := by
    show ((digits ++ '\'' :: rest).drop 4).head? = _
    rw [← four, List.drop_left, List.head?_cons]
  rw [scanToken, isCharacter, scanCharacter, read]
  dsimp only
  rw [if_pos closing]

theorem scanStringFrom_escape {letter c : Char} {unit : Text.Unit16} (read : List Char) (taken : Nat)
    (named : namedEscape? letter = some unit) (isChar : unitChar? unit = some c) (rest : List Char) :
    scanStringFrom read taken ('\\' :: letter :: rest) = scanStringFrom (c :: read) (taken + 2) rest := by
  have escaped : scanEscape (letter :: rest) = (.ok unit, 1) := by
    unfold scanEscape
    dsimp only
    rw [named]
  rw [scanStringFrom.eq_def]
  dsimp only
  rw [if_neg (by decide), if_neg (by decide), if_pos rfl, escaped]
  dsimp only
  rw [isChar]
  rfl

/-- What is read of one character between the quotes of a text. -/
theorem scanStringFrom_quotedChar (read : List Char) (taken : Nat) (c : Char) (rest : List Char) :
    scanStringFrom read taken (quotedChar c ++ rest) =
      scanStringFrom (c :: read) (taken + (quotedChar c).length) rest := by
  unfold quotedChar
  by_cases isQuote : c = '"'
  · rw [if_pos isQuote, isQuote]
    exact scanStringFrom_escape read taken rfl rfl rest
  by_cases isBackslash : c = '\\'
  · rw [if_neg isQuote, if_pos isBackslash, isBackslash]
    exact scanStringFrom_escape read taken rfl rfl rest
  by_cases isLineEnd : c = '\n'
  · rw [if_neg isQuote, if_neg isBackslash, if_pos isLineEnd, isLineEnd]
    exact scanStringFrom_escape read taken rfl rfl rest
  by_cases isReturn : c = '\r'
  · rw [if_neg isQuote, if_neg isBackslash, if_neg isLineEnd, if_pos isReturn, isReturn]
    exact scanStringFrom_escape read taken rfl rfl rest
  · rw [if_neg isQuote, if_neg isBackslash, if_neg isLineEnd, if_neg isReturn, List.cons_append,
      scanStringFrom.eq_def]
    dsimp only
    rw [if_neg (not_or.mpr ⟨isLineEnd, isReturn⟩), if_neg isQuote, if_neg isBackslash]
    rfl

/-- A text is read up to its closing quote. -/
theorem scanStringFrom_quoted (read text rest : List Char) (taken : Nat) :
    scanStringFrom read taken (text.flatMap quotedChar ++ '"' :: rest) =
      (.ok (String.ofList (read.reverse ++ text)), taken + (text.flatMap quotedChar).length + 1) := by
  induction text generalizing read taken with
  | nil =>
    rw [List.flatMap_nil, List.nil_append, scanStringFrom.eq_def]
    simp
  | cons first others ih =>
    rw [List.flatMap_cons, List.append_assoc, scanStringFrom_quotedChar, ih, List.reverse_cons,
      List.append_assoc, List.length_append]
    simp [Nat.add_assoc]

/-- A text is read from its spelling. -/
theorem scanToken_string (text : String) (rest : List Char) :
    scanToken ('"' :: (text.toList.flatMap quotedChar ++ '"' :: rest)) =
      (.ok (.string text), (text.toList.flatMap quotedChar).length + 2) := by
  have isText : scanBehind '"' (text.toList.flatMap quotedChar ++ '"' :: rest) =
      scanString (text.toList.flatMap quotedChar ++ '"' :: rest) := rfl
  rw [scanToken, isText, scanString, scanStringFrom_quoted]
  simp [Except.map]

/-! ### Tokens -/

/-- **A token is read from its spelling**, whatever is behind it that it does not go on with. -/
theorem scanToken_spelling {token : Token} (spelled : token.isSpelled = true) {rest : List Char}
    (ends : token.Ends rest) :
    scanToken (token.spelling ++ rest) = (.ok token, token.spelling.length) := by
  cases token with
  | name text => exact scanToken_name spelled ends
  | int value =>
    obtain ⟨nonneg, fits⟩ := Bool.and_eq_true_iff.mp spelled
    obtain ⟨n, rfl⟩ := Int.eq_ofNat_of_zero_le (of_decide_eq_true nonneg)
    have small : n ≤ 0x80000000 := by have := of_decide_eq_true fits; omega
    refine scanToken_int small fun c isHead => ?_
    obtain ⟨isNone, noPoint⟩ := Bool.or_eq_false_iff.mp (ends c isHead)
    exact ⟨isNone, of_decide_eq_false noPoint⟩
  | long value =>
    obtain ⟨nonneg, fits⟩ := Bool.and_eq_true_iff.mp spelled
    obtain ⟨n, rfl⟩ := Int.eq_ofNat_of_zero_le (of_decide_eq_true nonneg)
    have small : n ≤ 0x8000000000000000 := by have := of_decide_eq_true fits; omega
    rw [Token.spelling, Int.toNat_natCast, List.append_assoc, List.length_append]
    exact scanToken_long small rest
  | char unit =>
    have spelling : Token.spelling (.char unit) ++ rest =
        '\'' :: '\\' :: 'u' :: (unitDigits unit ++ '\'' :: rest) := by
      simp [Token.spelling]
    obtain ⟨four, hex, value⟩ := unitDigits_spell unit
    rw [spelling]
    exact scanToken_char four hex value rest
  | string text =>
    have spelling : Token.spelling (.string text) ++ rest =
        '"' :: (text.toList.flatMap quotedChar ++ '"' :: rest) := by
      simp [Token.spelling]
    rw [spelling, scanToken_string, Token.spelling, List.length_cons, List.length_append]
    rfl
  | keyword word => exact scanToken_keyword word ends
  | punct mark => exact scanToken_punct mark ends
  | float bits => cases spelled
  | double bits => cases spelled
  | endOfInput => cases spelled

end Scan

/-! ### Texts that spell tokens -/

/-- Characters between tokens. -/
def isGap (c : Char) : Bool := c = ' ' || c = '\t' || c = '\n' || c = '\r' || c = '\x0c'

/-- A text spells tokens: they stand in it in order with gaps around them, and each ends in front of
what is behind it. -/
inductive Spells : List Token → List Char → Prop
  | nil {gap : List Char} (blank : ∀ c ∈ gap, isGap c = true) : Spells [] gap
  | cons {gap rest : List Char} {token : Token} {tokens : List Token}
    (blank : ∀ c ∈ gap, isGap c = true) (spelled : token.isSpelled = true) (ends : token.Ends rest)
    (others : Spells tokens rest) : Spells (token :: tokens) (gap ++ (token.spelling ++ rest))

namespace Cursor

/-- A blank is skipped. -/
theorem skipFrom_gap {c : Char} (blank : isGap c = true) (position : Position) (rest : List Char) :
    ∃ later, skipFrom .code position (c :: rest) = skipFrom .code later rest := by
  unfold isGap at blank
  simp only [Bool.or_eq_true, decide_eq_true_eq] at blank
  rcases blank with (((rfl | rfl) | rfl) | rfl) | rfl
  · exact ⟨position.forward 1, by rw [skipFrom]⟩
  · exact ⟨position.forward 1, by rw [skipFrom]⟩
  · exact ⟨position.nextLine 1, by rw [skipFrom]⟩
  · cases rest with
    | nil => exact ⟨position.nextLine 1, by rw [skipFrom]; nofun⟩
    | cons d others =>
      by_cases lineFeed : d = '\n'
      · -- Both characters end one line.
        subst lineFeed
        exact ⟨⟨position.line, 1, position.offset + 1⟩, by rw [skipFrom, skipFrom]; rfl⟩
      · refine ⟨position.nextLine 1, ?_⟩
        rw [skipFrom]
        rintro _ ⟨⟩
        exact lineFeed rfl
  · exact ⟨position.forward 1, by rw [skipFrom]⟩

theorem skipFrom_gaps {gap : List Char} (blank : ∀ c ∈ gap, isGap c = true) (position : Position)
    (rest : List Char) :
    ∃ later, skipFrom .code position (gap ++ rest) = skipFrom .code later rest := by
  induction gap generalizing position with
  | nil => exact ⟨position, rfl⟩
  | cons first others ih =>
    obtain ⟨isBlank, behind⟩ := List.forall_mem_cons.mp blank
    obtain ⟨middle, first⟩ := skipFrom_gap isBlank position (others ++ rest)
    obtain ⟨later, rest⟩ := ih behind middle
    exact ⟨later, first.trans rest⟩

/-- Nothing is skipped in front of a character that is no blank and begins no comment. -/
theorem skipFrom_stop {first : Char} {behind : List Char} (noBlank : isGap first = false)
    (noComment : first = '/' → ∀ c ∈ behind.head?, c ≠ '/' ∧ c ≠ '*') (position : Position) :
    skipFrom .code position (first :: behind) = (none, ⟨position, first :: behind⟩) := by
  unfold isGap at noBlank
  simp only [Bool.or_eq_false_iff, decide_eq_false_iff_not] at noBlank
  obtain ⟨⟨⟨⟨noSpace, noTab⟩, noLineFeed⟩, noReturn⟩, noFormFeed⟩ := noBlank
  have noSlashes : ∀ {others}, first = '/' → behind ≠ '/' :: others ∧ behind ≠ '*' :: others := by
    rintro others isSlash
    have noneBehind := noComment isSlash
    constructor <;> rintro rfl
    · exact (noneBehind '/' rfl).1 rfl
    · exact (noneBehind '*' rfl).2 rfl
  rw [skipFrom]
  -- Every other equation wants a blank, the beginning of a comment or a place within one.
  all_goals
    intros
    simp_all

end Cursor

/-- A character that a token begins with: no blank, and no comment with what is behind it. -/
structure Fronts (first : Char) (behind : List Char) : Prop where
  noBlank : isGap first = false
  noComment : first = '/' → ∀ c ∈ behind.head?, c ≠ '/' ∧ c ≠ '*'

theorem fronts_of_ne {first : Char} (noBlank : isGap first = false) (noSlash : first ≠ '/')
    (behind : List Char) : Fronts first behind :=
  ⟨noBlank, fun isSlash => absurd isSlash noSlash⟩

theorem fronts_of_isNameStart {first : Char} (isStart : Scan.isNameStart first = true)
    (behind : List Char) : Fronts first behind := by
  refine fronts_of_ne ?_ (Scan.ne_of_isNameStart isStart (by decide)) behind
  simp only [isGap, Bool.or_eq_false_iff, decide_eq_false_iff_not]
  refine ⟨⟨⟨⟨?_, ?_⟩, ?_⟩, ?_⟩, ?_⟩ <;> exact Scan.ne_of_isNameStart isStart (by decide)

theorem fronts_of_isDigit {first : Char} (isDigit : first.isDigit = true) (behind : List Char) :
    Fronts first behind := by
  obtain ⟨digit, small, rfl⟩ := Scan.eq_digitChar_of_isDigit isDigit
  have none : ∀ digit < 10, isGap (Nat.digitChar digit) = false ∧ Nat.digitChar digit ≠ '/' := by
    decide
  exact fronts_of_ne (none digit small).1 (none digit small).2 behind

theorem fronts_punct {mark : Punct} {rest : List Char} (ends : Token.Ends (.punct mark) rest) :
    ∃ first others, mark.spelling.toList = first :: others ∧ Fronts first (others ++ rest) := by
  have isSpelled : ∃ first others, mark.spelling.toList = first :: others ∧ isGap first = false ∧
      (first = '/' → mark = .slash ∧ others = [] ∨ others = ['=']) := by
    cases mark <;> exact ⟨_, _, rfl, by decide, by decide⟩
  obtain ⟨first, others, chars, noBlank, isSlash⟩ := isSpelled
  refine ⟨first, others, chars, noBlank, fun slash c isHead => ?_⟩
  rcases isSlash slash with ⟨rfl, rfl⟩ | rfl
  · have noComment := ends c isHead
    rw [Token.joins_punct] at noComment
    simp only [Bool.or_eq_false_iff, Bool.and_eq_false_iff, decide_eq_false_iff_not] at noComment
    simpa using noComment.1.2
  · cases isHead
    decide

/-- A token begins with a character at which nothing is skipped. -/
theorem Token.spelling_fronts {token : Token} (spelled : token.isSpelled = true) {rest : List Char}
    (ends : token.Ends rest) :
    ∃ first others, token.spelling = first :: others ∧ Fronts first (others ++ rest) := by
  have number : ∀ n : Nat, ∃ first others, Nat.toDigits 10 n = first :: others ∧
      ∀ behind, Fronts first behind := by
    intro n
    obtain ⟨first, others, digits⟩ :=
      List.exists_cons_of_ne_nil (Nat.toDigits_ne_nil (n := n) (b := 10))
    have isDigit := Scan.isDigit_toDigits n first (digits ▸ List.mem_cons_self)
    exact ⟨first, others, digits, fronts_of_isDigit isDigit⟩
  cases token with
  | name text =>
    have isName := (Bool.and_eq_true_iff.mp (Bool.and_eq_true_iff.mp spelled).1).1
    cases chars : text.toList with
    | nil =>
      rw [chars] at isName
      cases isName
    | cons first others =>
      rw [chars] at isName
      exact ⟨first, others, chars, fronts_of_isNameStart (Bool.and_eq_true_iff.mp isName).1 _⟩
  | int value =>
    obtain ⟨first, others, digits, fronts⟩ := number value.toNat
    exact ⟨first, others, digits, fronts _⟩
  | long value =>
    obtain ⟨first, others, digits, fronts⟩ := number value.toNat
    exact ⟨first, others ++ ['L'], congrArg (· ++ ['L']) digits, fronts _⟩
  | char unit => exact ⟨_, _, rfl, fronts_of_ne (by decide) (by decide) _⟩
  | string text => exact ⟨_, _, rfl, fronts_of_ne (by decide) (by decide) _⟩
  | keyword word =>
    have isWord : ∃ first others, word.word.toList = first :: others ∧
        Scan.isNameStart first = true := by
      cases word <;> exact ⟨_, _, rfl, by decide⟩
    obtain ⟨first, others, chars, isStart⟩ := isWord
    exact ⟨first, others, chars, fronts_of_isNameStart isStart _⟩
  | punct mark => exact fronts_punct ends
  | float bits => cases spelled
  | double bits => cases spelled
  | endOfInput => cases spelled

namespace Cursor

theorem lexemesFrom_end {cursor : Cursor} {position : Position} (read : List Lexeme)
    (skipped : cursor.skip = (none, ⟨position, []⟩)) :
    cursor.lexemesFrom read = ⟨read.reverse, .ok position⟩ := by
  rw [lexemesFrom]
  split <;> simp_all

theorem lexemesFrom_token {cursor : Cursor} {position : Position} {c : Char} {rest : List Char}
    {token : Token} {length : Nat} (read : List Lexeme)
    (skipped : cursor.skip = (none, ⟨position, c :: rest⟩))
    (scanned : Scan.scanToken (c :: rest) = (.ok token, length)) :
    cursor.lexemesFrom read =
      (forward ⟨position, c :: rest⟩ length).lexemesFrom (⟨token, position⟩ :: read) := by
  rw [lexemesFrom]
  split
  · simp_all
  · simp_all
  · split <;> simp_all

theorem lexemesFrom_fault {cursor : Cursor} {position : Position} {c : Char} {rest : List Char}
    {fault : SyntaxFault} {length : Nat} (read : List Lexeme)
    (skipped : cursor.skip = (none, ⟨position, c :: rest⟩))
    (scanned : Scan.scanToken (c :: rest) = (.error fault, length)) :
    cursor.lexemesFrom read =
      ⟨read.reverse, .error (malformed fault (some (fault.place position length)))⟩ := by
  rw [lexemesFrom]
  split
  · simp_all
  · simp_all
  · split <;> simp_all

theorem skip_of_fronts {first : Char} {behind : List Char} (fronts : Fronts first behind)
    (position : Position) : skip ⟨position, first :: behind⟩ = (none, ⟨position, first :: behind⟩) :=
  skipFrom_stop fronts.noBlank fronts.noComment position

/-- The last token of a text. -/
theorem lexemesFrom_last {first : Char} {others : List Char} {token : Token} (read : List Lexeme)
    (position : Position) (fronts : Fronts first others)
    (scanned : Scan.scanToken (first :: others) = (.ok token, (first :: others).length)) :
    (⟨position, first :: others⟩ : Cursor).lexemesFrom read =
      ⟨(⟨token, position⟩ :: read).reverse, .ok (position.forward (first :: others).length)⟩ := by
  have nothing : skip (forward ⟨position, first :: others⟩ (first :: others).length) =
      (none, ⟨position.forward (first :: others).length, []⟩) := by
    rw [forward, List.drop_length, skip, skipFrom] <;> nofun
  rw [lexemesFrom_token read (skip_of_fronts fronts position) scanned, lexemesFrom_end _ nothing]

/-- The tokens of a text that spells them, from its first character on. -/
theorem lexemesFrom_of_spells {tokens : List Token} {text : List Char} (spells : Spells tokens text)
    (read : List Lexeme) (position : Position) :
    ∃ items finish, (⟨position, text⟩ : Cursor).lexemesFrom read = ⟨read.reverse ++ items, .ok finish⟩ ∧
      items.map Lexeme.token = tokens := by
  induction spells generalizing read position with
  | @nil gap blank =>
    obtain ⟨later, skipped⟩ := skipFrom_gaps blank position []
    have isEnd : skip ⟨position, gap⟩ = (none, ⟨later, []⟩) := by
      rw [List.append_nil] at skipped
      rw [skip, skipped, skipFrom]
      all_goals nofun
    exact ⟨[], later, by rw [lexemesFrom_end read isEnd, List.append_nil], rfl⟩
  | @cons gap rest token tokens blank spelled ends others ih =>
    obtain ⟨later, skipped⟩ := skipFrom_gaps blank position (token.spelling ++ rest)
    have scanned := Scan.scanToken_spelling spelled ends
    obtain ⟨first, behind, chars, fronts⟩ := Token.spelling_fronts spelled ends
    rw [chars, List.cons_append] at skipped scanned
    have isToken : skip ⟨position, gap ++ (token.spelling ++ rest)⟩ =
        (none, ⟨later, first :: (behind ++ rest)⟩) := by
      rw [skip, chars, List.cons_append, skipped, skipFrom_stop fronts.noBlank fronts.noComment]
    obtain ⟨items, finish, rests, same⟩ :=
      ih (⟨token, later⟩ :: read) (later.forward (first :: behind).length)
    have isRest : forward ⟨later, first :: (behind ++ rest)⟩ (first :: behind).length =
        ⟨later.forward (first :: behind).length, rest⟩ := by
      rw [forward, ← List.cons_append, List.drop_left]
    refine ⟨⟨token, later⟩ :: items, finish, ?_, by rw [List.map_cons, same]⟩
    rw [lexemesFrom_token read isToken scanned, isRest, rests, List.reverse_cons, List.append_assoc]
    rfl

end Cursor

/-- **The tokens of a text are those that it spells**, and the text has no fault. -/
theorem lexemes_of_spells {tokens : List Token} {text : String} (spells : Spells tokens text.toList) :
    ∃ items finish, lexemes text = ⟨items, .ok finish⟩ ∧ items.map Lexeme.token = tokens :=
  Cursor.lexemesFrom_of_spells spells [] .start

/-! ### Spaced texts -/

/-- The spellings of tokens with a space between every two of them. -/
def spaced : List Token → List Char
  | [] => []
  | [token] => token.spelling
  | token :: rest => token.spelling ++ ' ' :: spaced rest

/-- No token that has a spelling goes on with a space. -/
theorem Token.joins_space {token : Token} (spelled : token.isSpelled = true) :
    token.joins ' ' = false := by
  have noName : Scan.isNameRest ' ' = false := by decide
  cases token with
  | name | keyword => exact noName
  | int => exact Bool.or_eq_false_iff.mpr ⟨noName, by decide⟩
  | long | char | string => rfl
  | punct mark => cases mark <;> decide
  | float | double | endOfInput => cases spelled

theorem Spells.front {token : Token} {tokens : List Token} {rest : List Char}
    (spelled : token.isSpelled = true) (ends : token.Ends rest) (others : Spells tokens rest) :
    Spells (token :: tokens) (token.spelling ++ rest) :=
  @Spells.cons [] rest token tokens (List.forall_mem_nil _) spelled ends others

theorem Spells.gap {tokens : List Token} {text : List Char} (spells : Spells tokens text) :
    Spells tokens (' ' :: text) := by
  have space : isGap ' ' = true := by decide
  cases spells with
  | nil blank => exact .nil (List.forall_mem_cons.mpr ⟨space, blank⟩)
  | cons blank spelled ends others =>
    exact .cons (List.forall_mem_cons.mpr ⟨space, blank⟩) spelled ends others

/-- A spaced text spells its tokens. -/
theorem spells_spaced {tokens : List Token} (spelled : ∀ token ∈ tokens, token.isSpelled = true) :
    Spells tokens (spaced tokens) := by
  induction tokens with
  | nil => exact .nil nofun
  | cons first rest ih =>
    obtain ⟨isSpelled, others⟩ := List.forall_mem_cons.mp spelled
    have behind := ih others
    cases rest with
    | nil =>
      have text := Spells.front isSpelled (fun c isHead => by cases isHead) behind
      rwa [spaced, List.append_nil] at text
    | cons second more =>
      refine Spells.front isSpelled (fun c isHead => ?_) behind.gap
      cases isHead
      exact Token.joins_space isSpelled

end MethodPatch
