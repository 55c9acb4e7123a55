/-
**Whole numbers and their values.**

A whole number is written in one of four radices. Its digits have a magnitude, by their places, and its
radix, its size and the minus sign in front of it say which magnitudes there may be. A decimal number is
its magnitude, and below zero there is one number more than above. In the other radices the digits spell
the bits of a number, all of them, and the minus sign negates these bits.

The lexer sees no sign. It lets through the magnitude that only a minus sign in front makes a number, and
the reader of expressions refuses it if there is none.

* `Radix`, `WholeText`: the notations of whole numbers;
* `Radix.magnitude`, `Radix.limit`, `Radix.value`: what digits stand for, and how large they may be;
* `Scan.scanToken_whole`: a whole number is one token;
* `WholeLiteral.parse_source`: **a whole number is read as its value exactly if its magnitude is below the
  limit, and is refused as too large otherwise.**
-/

import Mathlib.Data.Nat.Digits.Defs
import MethodPatch.Proofs.Syntax.Parsing

namespace MethodPatch

/-! ### Notations -/

/-- The radices of whole numbers. -/
inductive Radix where
  | decimal
  | octal
  | hexadecimal
  | binary
  deriving DecidableEq

/-- A text is a whole number of a radix, and its digits, with underscores among them, are a run. A zero
alone counts as octal. -/
inductive WholeText : Radix → List Char → List Char → Prop
  | decimal {first : Char} {others : List Char} (isDigit : first.isDigit = true) (noZero : first ≠ '0')
    (isRun : Scan.IsRun 10 others) : WholeText .decimal (first :: others) (first :: others)
  | octal {others : List Char} (isRun : Scan.IsRun 8 others) : WholeText .octal ('0' :: others) ('0' :: others)
  | hexadecimal {letter : Char} {run : List Char} (isLetter : letter = 'x' ∨ letter = 'X')
    (isRun : Scan.IsRun 16 run) (someDigit : ∃ c ∈ run, c ≠ '_') :
    WholeText .hexadecimal run ('0' :: letter :: run)
  | binary {letter : Char} {run : List Char} (isLetter : letter = 'b' ∨ letter = 'B')
    (isRun : Scan.IsRun 2 run) (someDigit : ∃ c ∈ run, c ≠ '_') : WholeText .binary run ('0' :: letter :: run)

namespace Radix

/-- The number of digits of a radix. -/
def base : Radix → Nat
  | .decimal => 10
  | .octal => 8
  | .hexadecimal => 16
  | .binary => 2

/-- The number that the digits of a run spell by their places. -/
def magnitude (radix : Radix) (run : List Char) : Nat :=
  Nat.ofDigits radix.base (Scan.digitsOf run).reverse

/-- Magnitudes of an `int` or a `long` are below this limit. Decimal numbers leave a bit to the sign, and
directly behind a minus sign there is one more of them. -/
def limit (radix : Radix) (isLong negative : Bool) : Nat :=
  match radix with
  | .decimal => 2 ^ (Scan.integerBits isLong - 1) + if negative then 1 else 0
  | _ => 2 ^ Scan.integerBits isLong

/-- The number that a magnitude and a sign stand for. Only in decimal is it the magnitude itself; the bits
of the other radices are a number in two's complement. -/
def value (radix : Radix) (isLong negative : Bool) (magnitude : Nat) : Int :=
  match radix with
  | .decimal => if negative then -magnitude else magnitude
  | _ =>
    let pattern := BitVec.ofNat (Scan.integerBits isLong) magnitude
    (if negative then -pattern else pattern).toInt

end Radix

/-- Whether a literal is a `long` or an `int`, and its number. -/
def Literal.whole? : Literal → Option (Bool × Int)
  | .int value => some (false, value.toInt)
  | .long value => some (true, value.toInt)
  | _ => none

/-- A whole number as it is written, with the suffix of a `long` or without, behind a minus sign or not. -/
structure WholeLiteral where
  radix : Radix
  run : List Char
  text : List Char
  written : WholeText radix run text
  suffix : Option Char
  isSuffix : ∀ c ∈ suffix, Scan.isLongSuffix c = true
  negative : Bool

namespace WholeLiteral

/-- Whether a literal is a `long`. -/
def isLong (literal : WholeLiteral) : Bool := literal.suffix.isSome

/-- The digits of a literal with what is around them, but without the sign. -/
def size (literal : WholeLiteral) : List Char := literal.text ++ literal.suffix.toList

/-- The text of a literal. -/
def source (literal : WholeLiteral) : String :=
  String.ofList ((if literal.negative then ['-'] else []) ++ literal.size)

def magnitude (literal : WholeLiteral) : Nat := literal.radix.magnitude literal.run

/-- Whether there is a number of the magnitude. -/
def isAdmitted (literal : WholeLiteral) : Bool :=
  literal.magnitude < literal.radix.limit literal.isLong literal.negative

def value (literal : WholeLiteral) : Int :=
  literal.radix.value literal.isLong literal.negative literal.magnitude

/-- The place of the digits. -/
def place (literal : WholeLiteral) : Position := Position.start.forward (if literal.negative then 1 else 0)

/-- Why a literal is refused: what the lexer lets through has a fault of its own. -/
def fault (literal : WholeLiteral) : SyntaxFault :=
  if literal.isLong && literal.magnitude < literal.radix.limit literal.isLong true then .longTooLarge
  else .integerTooLarge

end WholeLiteral

/-! ### One token -/

namespace Scan

/-- Numbers in front of a text that has at most the suffix of a `long`. -/
theorem scanRadix_run {radix : Nat} {run : List Char} {suffix : Option Char} (small : radix ≤ 16)
    (isRun : IsRun radix run) (someDigit : ∃ c ∈ run, c ≠ '_')
    (isSuffix : ∀ c ∈ suffix, isLongSuffix c = true) :
    scanRadix radix (run ++ suffix.toList) =
      (wholeNumber (digitsOf run) radix suffix.isSome, (run ++ suffix.toList).length) := by
  have ends : ∀ c ∈ suffix.toList.head?, Text.isDigitOf radix c = false ∧ c ≠ '_' := by
    intro c isHead
    have isIn : c ∈ suffix := by cases suffix <;> simp_all
    have large : ¬Text.digitValue c < radix ∧ c ≠ '_' := by
      rcases cases_isLongSuffix (isSuffix c isIn) with rfl | rfl
      · exact ⟨Nat.not_lt.mpr small, by decide⟩
      · exact ⟨Nat.not_lt.mpr small, by decide⟩
    exact ⟨decide_eq_false large.1, large.2⟩
  obtain ⟨c, isIn, noUnderscore⟩ := someDigit
  have isNonempty : digitsOf run ≠ [] := by
    have isDigit : Text.digitValue c ∈ digitsOf run :=
      List.mem_map_of_mem (List.mem_filter.mpr ⟨isIn, decide_eq_true noUnderscore⟩)
    exact List.ne_nil_of_mem isDigit
  unfold scanRadix
  rw [digitRun_append isRun ends]
  dsimp only
  cases digits : digitsOf run with
  | nil => exact absurd digits isNonempty
  | cons =>
    rw [List.drop_left]
    cases suffix with
    | none => simp
    | some c => simp [isSuffix c rfl]

/-- A decimal or octal number. -/
theorem scanToken_plain {first : Char} {others : List Char} {suffix : Option Char}
    (isDigit : first.isDigit = true) (isRun : IsRun 10 others)
    (isSuffix : ∀ c ∈ suffix, isLongSuffix c = true) :
    scanToken (first :: others ++ suffix.toList) =
      (wholeNumber (digitsOf (first :: others)) (plainRadix (digitsOf (first :: others))) suffix.isSome,
        (first :: others ++ suffix.toList).length) := by
  have noRadix : announcedRadix? first (others ++ suffix.toList) = none :=
    announcedRadix?_run isRun fun c isHead => .inl (isSuffix c (by cases suffix <;> simp_all))
  rw [List.cons_append, scanToken_digit isDigit noRadix]
  cases suffix with
  | none =>
    rw [Option.toList_none, scanDecimal_run isDigit isRun (by rintro _ ⟨⟩), List.append_nil]
    rfl
  | some c =>
    rw [Option.toList_some, scanDecimal_long isDigit isRun (isSuffix c rfl)]
    simp

/-- A number behind the letter of its radix. -/
theorem scanToken_announced {radix : Nat} {letter : Char} {run : List Char} {suffix : Option Char}
    (announced : ∀ text, announcedRadix? '0' (letter :: text) = some radix) (small : radix ≤ 16)
    (isRun : IsRun radix run) (someDigit : ∃ c ∈ run, c ≠ '_')
    (isSuffix : ∀ c ∈ suffix, isLongSuffix c = true) :
    scanToken ('0' :: letter :: run ++ suffix.toList) =
      (wholeNumber (digitsOf run) radix suffix.isSome, ('0' :: letter :: run ++ suffix.toList).length) := by
  have isNumber : scanBehind '0' (letter :: (run ++ suffix.toList)) =
      scanNumber '0' (letter :: (run ++ suffix.toList)) := rfl
  rw [List.cons_append, List.cons_append, scanToken, isNumber, scanNumber, announced]
  dsimp only
  rw [List.drop_one, List.tail_cons, scanRadix_run small isRun someDigit isSuffix]
  rfl

/-- A zero that no digit follows may be decimal or octal. -/
theorem wholeNumber_plainRadix_zero (digits : List Nat) (isLong : Bool) :
    wholeNumber (0 :: digits) (plainRadix (0 :: digits)) isLong = wholeNumber (0 :: digits) 8 isLong := by
  cases digits with
  | nil => cases isLong <;> rfl
  | cons => rfl

/-- **A whole number is one token.** -/
theorem scanToken_whole {radix : Radix} {run text : List Char} {suffix : Option Char}
    (written : WholeText radix run text) (isSuffix : ∀ c ∈ suffix, isLongSuffix c = true) :
    scanToken (text ++ suffix.toList) =
      (wholeNumber (digitsOf run) radix.base suffix.isSome, (text ++ suffix.toList).length) := by
  cases written with
  | @decimal first others isDigit noZero isRun =>
    have notZero : Text.digitValue first ≠ 0 := by
      obtain ⟨digit, small, rfl⟩ := eq_digitChar_of_isDigit isDigit
      have all : ∀ digit < 10, Nat.digitChar digit ≠ '0' → Text.digitValue (Nat.digitChar digit) ≠ 0 := by
        decide
      exact all digit small noZero
    have isDecimal : plainRadix (digitsOf (first :: others)) = 10 := by
      rw [digitsOf_cons isDigit, plainRadix]
      rintro _ _ same
      exact notZero (List.cons.inj same).1
    rw [scanToken_plain isDigit isRun isSuffix, isDecimal]
    rfl
  | @octal others isRun =>
    have isPlain : IsRun 10 others := by
      intro c isIn
      rcases Bool.or_eq_true_iff.mp (isRun c isIn) with isDigit | isUnderscore
      · have small : Text.digitValue c < 8 := of_decide_eq_true isDigit
        rw [Text.isDigitOf, decide_eq_true (Nat.lt_trans small (by decide)), Bool.true_or]
      · rw [isUnderscore, Bool.or_true]
    rw [scanToken_plain rfl isPlain isSuffix, digitsOf_cons rfl]
    exact congrArg (·, _) (wholeNumber_plainRadix_zero _ _)
  | hexadecimal isLetter isRun someDigit =>
    refine scanToken_announced (fun text => ?_) (Nat.le_refl 16) isRun someDigit isSuffix
    rcases isLetter with rfl | rfl <;> rfl
  | binary isLetter isRun someDigit =>
    refine scanToken_announced (fun text => ?_) (by decide) isRun someDigit isSuffix
    rcases isLetter with rfl | rfl <;> rfl

theorem digitsOf_lt {radix : Nat} {run : List Char} (isRun : IsRun radix run) :
    ∀ digit ∈ digitsOf run, digit < radix := by
  intro digit isIn
  obtain ⟨c, isDigit, rfl⟩ := List.mem_map.mp isIn
  obtain ⟨isChar, noUnderscore⟩ := List.mem_filter.mp isDigit
  rcases Bool.or_eq_true_iff.mp (isRun c isChar) with small | isUnderscore
  · exact of_decide_eq_true small
  · exact absurd (of_decide_eq_true isUnderscore) (of_decide_eq_true noUnderscore)

theorem isRun_base {radix : Radix} {run text : List Char} (written : WholeText radix run text) :
    IsRun radix.base run := by
  cases written with
  | decimal isDigit _ isRun =>
    refine List.forall_mem_cons.mpr ⟨?_, isRun⟩
    have small : Text.isDigitOf 10 _ = true := decide_eq_true (digitValue_lt isDigit)
    exact Bool.or_eq_true_iff.mpr (.inl small)
  | octal isRun => exact List.forall_mem_cons.mpr ⟨by decide, isRun⟩
  | hexadecimal _ isRun => exact isRun
  | binary _ isRun => exact isRun

end Scan

/-! ### Magnitudes and values -/

namespace Text

/-- The number of digits does not depend on the side from which they are counted. -/
theorem ofDigits_reverse (radix : Nat) (digits : List Nat) :
    ofDigits radix digits = Nat.ofDigits radix digits.reverse := by
  rw [Nat.ofDigits_eq_foldr, List.foldr_reverse, ofDigits]
  congr 1
  funext value digit
  rw [Nat.cast_id, Nat.mul_comm, Nat.add_comm]

end Text

/-- The token of a whole number. -/
def numberToken (isLong : Bool) (number : Int) : Token := if isLong then .long number else .int number

/-- The literal of a whole number, which wraps around. -/
def numberLiteral (isLong : Bool) (number : Int) : Literal :=
  if isLong then .long (Int64.ofInt number) else .int (Int32.ofInt number)

theorem whole?_numberLiteral (isLong : Bool) (number : Int) :
    (numberLiteral isLong number).whole? =
      some (isLong, number.bmod (2 ^ Scan.integerBits isLong)) := by
  cases isLong with
  | false => exact congrArg (fun value => some (false, value)) Int32.toInt_ofInt
  | true => exact congrArg (fun value => some (true, value)) Int64.toInt_ofInt

/-- The numbers of some bits wrap around to themselves. -/
theorem bmod_two_pow_succ {width : Nat} {number : Int} (least : -2 ^ width ≤ number)
    (most : number < 2 ^ width) : number.bmod (2 ^ (width + 1)) = number := by
  refine Int.bmod_eq_of_le ?_ ?_ <;> rw [Nat.pow_succ] <;> push_cast <;> omega

/-- Whatever wraps around is a number of these bits. -/
theorem bmod_two_pow_succ_lt (width : Nat) (number : Int) : number.bmod (2 ^ (width + 1)) < 2 ^ width := by
  have below := Int.bmod_lt (x := number) (Nat.two_pow_pos (width + 1))
  rw [Nat.pow_succ] at below ⊢
  push_cast at below
  omega

theorem integerBits_eq (isLong : Bool) : Scan.integerBits isLong = Scan.integerBits isLong - 1 + 1 := by
  cases isLong <;> rfl

namespace Radix

variable {radix : Radix} {isLong negative : Bool} {magnitude : Nat}

/-- The number of a token: digits that spell bits are the number of these bits already. -/
def scanned (radix : Radix) (isLong : Bool) (magnitude : Nat) : Int :=
  match radix with
  | .decimal => magnitude
  | _ => (magnitude : Int).bmod (2 ^ Scan.integerBits isLong)

/-- The lexer takes every magnitude that some sign admits. -/
theorem wholeNumber_eq {run : List Char} (isRun : Scan.IsRun radix.base run) :
    Scan.wholeNumber (Scan.digitsOf run) radix.base isLong =
      if radix.magnitude run < radix.limit isLong true then
        .ok (numberToken isLong (radix.scanned isLong (radix.magnitude run)))
      else .error .integerTooLarge := by
  have small : (Scan.digitsOf run).any (radix.base ≤ ·) = false :=
    List.any_eq_false.mpr fun digit isIn => by
      simpa using Scan.digitsOf_lt isRun digit isIn
  have isMagnitude : Text.ofDigits radix.base (Scan.digitsOf run) = radix.magnitude run :=
    Text.ofDigits_reverse _ _
  have isLimit : (if radix.base = 10 then Decimal.twoTo (Scan.integerBits isLong - 1)
      else Decimal.twoTo (Scan.integerBits isLong) - 1) + 1 = radix.limit isLong true := by
    cases radix with
    | decimal => rfl
    | octal | hexadecimal | binary => exact Nat.sub_add_cancel Nat.one_le_two_pow
  have isNumber : (if radix.base = 10 then (radix.magnitude run : Int)
      else (radix.magnitude run : Int).bmod (Decimal.twoTo (Scan.integerBits isLong))) =
        radix.scanned isLong (radix.magnitude run) := by
    cases radix <;> rfl
  unfold Scan.wholeNumber
  simp only [small, isMagnitude, Bool.false_eq_true, false_or, isNumber]
  by_cases fits : radix.magnitude run < radix.limit isLong true
  · rw [if_pos fits, if_neg (by omega)]
    rfl
  · rw [if_neg fits, if_pos (by omega)]

theorem limit_le (radix : Radix) (isLong negative : Bool) :
    radix.limit isLong negative ≤ radix.limit isLong true := by
  cases radix with
  | decimal => cases negative <;> simp [limit]
  | octal | hexadecimal | binary => exact Nat.le_refl _

/-- A magnitude that only a minus sign makes a number is the one number of a token that is too large
without it. -/
theorem scanned_cases (fits : magnitude < radix.limit isLong true) :
    radix.scanned isLong magnitude < 2 ^ (Scan.integerBits isLong - 1) ∧
        magnitude < radix.limit isLong false ∨
      radix.scanned isLong magnitude = 2 ^ (Scan.integerBits isLong - 1) ∧
        ¬magnitude < radix.limit isLong false := by
  cases radix with
  | decimal =>
    have atMost : magnitude < 2 ^ (Scan.integerBits isLong - 1) + 1 := fits
    show (magnitude : Int) < 2 ^ _ ∧ magnitude < 2 ^ _ ∨ (magnitude : Int) = 2 ^ _ ∧ ¬magnitude < 2 ^ _
    rcases Nat.lt_or_eq_of_le (Nat.le_of_lt_succ atMost) with less | same
    · exact .inl ⟨by exact_mod_cast less, less⟩
    · exact .inr ⟨by exact_mod_cast same, by omega⟩
  | octal | hexadecimal | binary =>
    have below := bmod_two_pow_succ_lt (Scan.integerBits isLong - 1) magnitude
    rw [← integerBits_eq] at below
    exact .inl ⟨below, fits⟩

/-- What a literal wraps around to is what its digits and its sign stand for. -/
theorem bmod_scanned (fits : magnitude < radix.limit isLong negative) :
    (if negative then -radix.scanned isLong magnitude else radix.scanned isLong magnitude).bmod
      (2 ^ Scan.integerBits isLong) = radix.value isLong negative magnitude := by
  have toInt : ∀ bits : Nat, (BitVec.ofNat bits magnitude).toInt = (magnitude : Int).bmod (2 ^ bits) := by
    intro bits
    rw [BitVec.toInt_eq_toNat_bmod, BitVec.toNat_ofNat, Int.natCast_emod, Int.emod_bmod]
  cases radix with
  | decimal =>
    have positive : (0 : Int) < 2 ^ (Scan.integerBits isLong - 1) := Int.pow_pos (by decide)
    rw [integerBits_eq]
    cases negative with
    | false =>
      have below : (magnitude : Int) < 2 ^ (Scan.integerBits isLong - 1) := by
        exact_mod_cast (show magnitude < 2 ^ (Scan.integerBits isLong - 1) from fits)
      show (magnitude : Int).bmod _ = magnitude
      exact bmod_two_pow_succ (by omega) below
    | true =>
      have atMost : (magnitude : Int) ≤ 2 ^ (Scan.integerBits isLong - 1) := by
        exact_mod_cast (Nat.le_of_lt_succ fits)
      show (-(magnitude : Int)).bmod _ = -magnitude
      exact bmod_two_pow_succ (Int.neg_le_neg atMost) (by omega)
  | octal | hexadecimal | binary =>
    cases negative with
    | false =>
      show ((magnitude : Int).bmod _).bmod _ = (BitVec.ofNat _ magnitude).toInt
      rw [toInt, Int.bmod_bmod]
    | true =>
      show (-(magnitude : Int).bmod _).bmod _ = (-BitVec.ofNat _ magnitude).toInt
      rw [BitVec.toInt_neg, toInt]

end Radix

/-! ### Tokens read as literals -/

/-- A number is the literal of its token if its sign bit is free. -/
theorem literal?_numberToken (isLong : Bool) (number : Int) :
    Parse.literal? (numberToken isLong number) =
      some (if number < 2 ^ (Scan.integerBits isLong - 1) then .ok (numberLiteral isLong number)
        else .error (if isLong then .longTooLarge else .integerTooLarge)) := by
  cases isLong with
  | false =>
    have same : number ≤ Int32.maxValue.toInt ↔ number < 2 ^ 31 := Int.lt_add_one_iff.symm
    show some (if number ≤ Int32.maxValue.toInt then _ else _) = _
    simp only [same]
    rfl
  | true =>
    have same : number ≤ Int64.maxValue.toInt ↔ number < 2 ^ 63 := Int.lt_add_one_iff.symm
    show some (if number ≤ Int64.maxValue.toInt then _ else _) = _
    simp only [same]
    rfl

theorem negated?_numberLiteral (isLong : Bool) (number : Int) :
    Parse.negated? (numberLiteral isLong number) = some (numberLiteral isLong (-number)) := by
  cases isLong with
  | false => exact congrArg (fun value => some (Literal.int value)) (Int32.ofInt_neg number).symm
  | true => exact congrArg (fun value => some (Literal.long value)) (Int64.ofInt_neg number).symm

/-- The least number of a type is the opposite of the one that does not fit. -/
theorem leastNumber?_numberToken (isLong : Bool) (number : Int) (position : Position)
    (rest : List Lexeme) :
    Parse.leastNumber? (⟨numberToken isLong number, position⟩ :: rest) =
      if number = 2 ^ (Scan.integerBits isLong - 1) then some (numberLiteral isLong (-number))
      else none := by
  by_cases isLeast : number = 2 ^ (Scan.integerBits isLong - 1)
  · rw [if_pos isLeast, isLeast]
    cases isLong <;> rfl
  · rw [if_neg isLeast]
    cases isLong with
    | false => exact if_neg isLeast
    | true => exact if_neg isLeast

/-! ### Expressions of one operand -/

namespace Expr

variable {source : String} {items : List Lexeme} {error : SourceError}

/-- An operand that is all of a text is the expression. -/
theorem parse_of_unary {finish : Position} {read : Expr} (isLexemes : lexemes source = ⟨items, .ok finish⟩)
    (isRead : Parse.ReadsTo [] (· = read) (Parse.unary (.ok finish) items)) : Expr.parse source = .ok read := by
  obtain ⟨answer, ⟨rest, fewer⟩, isAnswer, isRest, rfl⟩ := Parse.expression_of_unary isRead rfl
  obtain rfl : rest = [] := List.map_eq_nil_iff.mp isRest
  rw [Expr.parse, isLexemes]
  dsimp only
  rw [isAnswer]
  rfl

/-- A text is refused where its first operand is. -/
theorem parse_refused {finish : Parse.Finish} {position : Position} (isLexemes : lexemes source = ⟨items, finish⟩)
    (isPlace : Parse.place finish items = .ok position) (refused : Parse.unary finish items = .error error) :
    Expr.parse source = .error error := by
  rw [Expr.parse, isLexemes]
  dsimp only
  rw [Parse.expression, isPlace, Parse.conditional, isPlace, Parse.climb, refused]
  rfl

/-- A text is refused where nothing comes in front of a fault. -/
theorem parse_fault (isLexemes : lexemes source = ⟨[], .error error⟩) : Expr.parse source = .error error := by
  rw [Expr.parse, isLexemes]
  dsimp only
  rw [Parse.expression]
  rfl

end Expr

namespace WholeLiteral

variable (literal : WholeLiteral)

/-- The token of the digits, if the lexer takes them. -/
def token : Token := numberToken literal.isLong (literal.radix.scanned literal.isLong literal.magnitude)

theorem scanToken_size : Scan.scanToken literal.size =
    (if literal.magnitude < literal.radix.limit literal.isLong true then .ok literal.token
      else .error .integerTooLarge, literal.size.length) := by
  rw [size, Scan.scanToken_whole literal.written literal.isSuffix]
  exact congrArg (·, _) (Radix.wholeNumber_eq (Scan.isRun_base literal.written))

/-- A number begins with a digit. -/
theorem exists_digit : ∃ first others, literal.size = first :: others ∧ first.isDigit = true := by
  obtain ⟨_, _, _, written, suffix, _, _⟩ := literal
  cases written with
  | decimal isDigit => exact ⟨_, _, rfl, isDigit⟩
  | octal | hexadecimal | binary => exact ⟨_, _, rfl, rfl⟩

theorem lexemesFrom_size (read : List Lexeme) (position : Position) :
    (⟨position, literal.size⟩ : Cursor).lexemesFrom read =
      if literal.magnitude < literal.radix.limit literal.isLong true then
        ⟨(⟨literal.token, position⟩ :: read).reverse, .ok (position.forward literal.size.length)⟩
      else ⟨read.reverse, .error (malformed .integerTooLarge (some position))⟩ := by
  obtain ⟨first, others, isSize, isDigit⟩ := literal.exists_digit
  have scanned := literal.scanToken_size
  rw [isSize] at scanned ⊢
  have fronts := fronts_of_isDigit isDigit others
  split
  · next fits =>
    rw [if_pos fits] at scanned
    exact Cursor.lexemesFrom_last read position fronts scanned
  · next large =>
    rw [if_neg large] at scanned
    exact Cursor.lexemesFrom_fault read (Cursor.skip_of_fronts fronts position) scanned

/-- The tokens of a literal: its sign, and its digits or their fault. -/
theorem lexemes_source : lexemes literal.source =
    (⟨literal.place, literal.size⟩ : Cursor).lexemesFrom
      (if literal.negative then [⟨.punct .minus, .start⟩] else []) := by
  rw [lexemes, Cursor.ofText, source, String.toList_ofList, place]
  cases literal.negative with
  | false => rfl
  | true =>
    obtain ⟨first, others, isSize, isDigit⟩ := literal.exists_digit
    have ends : Token.Ends (.punct .minus) literal.size := by
      intro c isHead
      rw [isSize] at isHead
      cases isHead
      obtain ⟨digit, small, rfl⟩ := Scan.eq_digitChar_of_isDigit isDigit
      have all : ∀ digit < 10, Token.joins (.punct .minus) (Nat.digitChar digit) = false := by decide
      exact all digit small
    have isMinus : Scan.scanToken ('-' :: literal.size) = (.ok (.punct .minus), 1) :=
      Scan.scanToken_punct .minus ends
    have fronts : Fronts '-' literal.size := fronts_of_ne (by decide) (by decide) _
    exact Cursor.lexemesFrom_token [] (Cursor.skip_of_fronts fronts .start) isMinus

/-- What the literal is read as. -/
def read : Literal :=
  let number := literal.radix.scanned literal.isLong literal.magnitude
  numberLiteral literal.isLong (if literal.negative then -number else number)

variable {literal}

theorem whole?_read (admitted : literal.isAdmitted = true) :
    literal.read.whole? = some (literal.isLong, literal.value) := by
  rw [read, whole?_numberLiteral, Radix.bmod_scanned (of_decide_eq_true admitted)]
  rfl

/-- The lexer knows no sign and lets through what is admitted behind one. -/
theorem fits_of_isAdmitted (admitted : literal.isAdmitted = true) :
    literal.magnitude < literal.radix.limit literal.isLong true :=
  Nat.lt_of_lt_of_le (of_decide_eq_true admitted) (Radix.limit_le ..)

/-- An admitted number is a literal at its first character, its sign included. -/
theorem parse_admitted (admitted : literal.isAdmitted = true) :
    Expr.parse literal.source = .ok (.literal literal.read .start) := by
  have fits := fits_of_isAdmitted admitted
  have isLexemes := literal.lexemes_source
  rw [lexemesFrom_size, if_pos fits] at isLexemes
  refine Expr.parse_of_unary isLexemes ?_
  have below : literal.magnitude < literal.radix.limit literal.isLong literal.negative :=
    of_decide_eq_true admitted
  have alternatives := Radix.scanned_cases fits
  have isLiteral := literal?_numberToken literal.isLong (literal.radix.scanned literal.isLong literal.magnitude)
  have isLeast := leastNumber?_numberToken literal.isLong
    (literal.radix.scanned literal.isLong literal.magnitude) literal.place []
  rw [read, place]
  rw [place] at isLeast
  cases sign : literal.negative with
  | false =>
    rw [sign] at below
    obtain ⟨small, -⟩ | ⟨-, notBelow⟩ := alternatives
    · rw [if_pos small] at isLiteral
      exact Parse.unary_placed isLiteral .start rfl
    · exact absurd below notBelow
  | true =>
    rw [sign] at isLeast
    obtain ⟨small, -⟩ | ⟨same, -⟩ := alternatives
    · rw [if_neg (Int.ne_of_lt small)] at isLeast
      rw [if_pos small] at isLiteral
      exact Parse.unary_number isLeast isLiteral (negated?_numberLiteral ..) .start rfl
    · rw [if_pos same] at isLeast
      exact Parse.unary_least isLeast .start

/-- What the lexer does not take is refused at the digits, whether or not there is a sign. -/
theorem parse_large (large : ¬literal.magnitude < literal.radix.limit literal.isLong true) :
    Expr.parse literal.source = .error (malformed .integerTooLarge (some literal.place)) := by
  have isLexemes := literal.lexemes_source
  rw [lexemesFrom_size, if_neg large] at isLexemes
  cases sign : literal.negative with
  | false =>
    rw [sign] at isLexemes
    exact Expr.parse_fault isLexemes
  | true =>
    rw [sign] at isLexemes
    refine Expr.parse_refused isLexemes rfl ?_
    rw [if_pos rfl, List.reverse_singleton, Parse.unary]
    rfl

theorem parse_notAdmitted (notAdmitted : literal.isAdmitted = false) :
    Expr.parse literal.source = .error (malformed literal.fault (some literal.place)) := by
  by_cases fits : literal.magnitude < literal.radix.limit literal.isLong true
  · have above := of_decide_eq_false notAdmitted
    have sign : literal.negative = false := by
      refine Bool.eq_false_iff.mpr fun isNegative => above ?_
      rwa [isNegative]
    rw [sign] at above
    have isLexemes := literal.lexemes_source
    have isFault := literal?_numberToken literal.isLong (literal.radix.scanned literal.isLong literal.magnitude)
    obtain ⟨-, below⟩ | ⟨same, -⟩ := Radix.scanned_cases fits
    · exact absurd below above
    rw [if_neg (by omega)] at isFault
    rw [lexemesFrom_size, if_pos fits, place, sign] at isLexemes
    rw [fault, decide_eq_true fits, Bool.and_true, place, sign]
    exact Expr.parse_refused isLexemes rfl (Parse.unary_fault isFault .start [])
  · rw [parse_large fits, fault, decide_eq_false fits, Bool.and_false]
    rfl

variable (literal)

/-- **A whole number is read as its value exactly if its magnitude is admitted**, and is refused as too
large otherwise. -/
theorem parse_source :
    (literal.isAdmitted = true → ∃ value, Expr.parse literal.source = .ok (.literal value .start) ∧
      value.whole? = some (literal.isLong, literal.value)) ∧
    (literal.isAdmitted = false →
      Expr.parse literal.source = .error (malformed literal.fault (some literal.place))) :=
  ⟨fun admitted => ⟨literal.read, parse_admitted admitted, whole?_read admitted⟩, parse_notAdmitted⟩

/-- The magnitude of the least `int`, with underscores in it. -/
def leastMagnitude (negative : Bool) : WholeLiteral where
  radix := .decimal
  run := ['2', '_', '1', '4', '7', '_', '4', '8', '3', '_', '6', '4', '8']
  text := ['2', '_', '1', '4', '7', '_', '4', '8', '3', '_', '6', '4', '8']
  written := .decimal (by decide) (by decide) (by decide)
  suffix := none
  isSuffix := nofun
  negative := negative

/-- The least `int` is read, and its magnitude alone is refused. -/
theorem parse_source_least :
    (∃ value, Expr.parse "-2_147_483_648" = .ok (.literal value .start) ∧
      value.whole? = some (false, -2147483648)) ∧
    Expr.parse "2_147_483_648" = .error (malformed .integerTooLarge (some .start)) :=
  ⟨(leastMagnitude true).parse_source.1 (by decide), (leastMagnitude false).parse_source.2 (by decide)⟩

end WholeLiteral

end MethodPatch
