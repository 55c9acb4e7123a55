/-
**Literals of floating-point numbers.**

A decimal literal of a floating-point number is made of digits, a point, an exponent and a suffix. Digits
may have underscores between them, some digits stand before the exponent, and what has neither point nor
exponent has a suffix.

The lexer takes a point that a name follows for the one of a member. An exponent and a suffix begin with
letters, so directly behind the point they are such a name.

* `FloatingLiteral`: the notation of these literals;
* `Floating.scanMantissa_first`, `Floating.scanExponent_chars`: the parts of a literal are scanned as they
  are written;
* `FloatingLiteral.lexemes_cases`: **a literal is one token, except where its exponent or suffix directly
  follows the point.**
-/

import MethodPatch.Proofs.Syntax.Scanned

namespace MethodPatch

namespace Floating

/-! ### Notations -/

/-- Digits, with underscores between two of them alone. -/
structure Digits where
  first : Char
  others : List Char
  isDigit : first.isDigit = true
  isRun : Scan.IsRun 10 others
  ends : others.getLast? ≠ some '_'

namespace Digits

def chars (digits : Digits) : List Char := digits.first :: digits.others

def values (digits : Digits) : List Nat := Scan.digitsOf digits.chars

end Digits

/-- The digits and the point of a literal. -/
inductive Mantissa where
  | plain (whole : Digits)
  | pointed (whole : Digits) (fraction : Option Digits)
  | fractional (fraction : Digits)

namespace Mantissa

def first : Mantissa → Char
  | plain whole | pointed whole _ => whole.first
  | fractional _ => '.'

/-- The characters behind the first one. -/
def others : Mantissa → List Char
  | plain whole => whole.others
  | pointed whole none => whole.others ++ ['.']
  | pointed whole (some fraction) => whole.others ++ '.' :: fraction.chars
  | fractional fraction => fraction.chars

/-- The values of the digits before the point. -/
def whole : Mantissa → List Nat
  | plain whole | pointed whole _ => whole.values
  | fractional _ => []

/-- The values of the digits behind the point, if there is one. -/
def fraction : Mantissa → Option (List Nat)
  | plain _ => none
  | pointed _ none => some []
  | pointed _ (some fraction) | fractional fraction => some fraction.values

/-- What a reader of digits and a point makes of them, behind the first character. -/
def scanned (mantissa : Mantissa) : Scan.Mantissa :=
  ⟨mantissa.whole, mantissa.fraction, mantissa.others.length⟩

/-- Whether the point is the last character. -/
def isOpen : Mantissa → Bool
  | pointed _ none => true
  | _ => false

end Mantissa

/-- The exponent of a literal. -/
structure Exponent where
  letter : Char
  sign : Option Char
  digits : Digits
  isLetter : letter = 'e' ∨ letter = 'E'
  isSign : ∀ c ∈ sign, c = '+' ∨ c = '-'

namespace Exponent

def chars (exponent : Exponent) : List Char :=
  exponent.letter :: (exponent.sign.toList ++ exponent.digits.chars)

def value (exponent : Exponent) : Int :=
  let size := Scan.exponentValue exponent.digits.values
  if exponent.sign = some '-' then -size else size

end Exponent

/-- The letters at the end of a literal: the suffix of a `float` or of a `double`. -/
def IsSuffix (c : Char) : Prop := (c = 'f' ∨ c = 'F') ∨ c = 'd' ∨ c = 'D'

/-- Whether a suffix is that of a `float`. -/
def isSingle (suffix : Option Char) : Bool := suffix = some 'f' || suffix = some 'F'

/-- The token of a decimal, in one of the two formats. -/
def token (isSingle : Bool) (decimal : Decimal) : Token :=
  if isSingle then .float (UInt32.ofNat (decimal.bits Decimal.single))
  else .double (UInt64.ofNat (decimal.bits Decimal.double))

end Floating

/-- A decimal literal of a floating-point number. -/
structure FloatingLiteral where
  mantissa : Floating.Mantissa
  exponent : Option Floating.Exponent
  suffix : Option Char
  isSuffix : ∀ c ∈ suffix, Floating.IsSuffix c
  isFloating : mantissa.fraction.isSome ∨ exponent.isSome ∨ suffix.isSome

namespace FloatingLiteral

/-- The exponent and the suffix. -/
def behind (literal : FloatingLiteral) : List Char :=
  (literal.exponent.map (·.chars)).getD [] ++ literal.suffix.toList

/-- The characters behind the first one. -/
def others (literal : FloatingLiteral) : List Char := literal.mantissa.others ++ literal.behind

/-- The text of a literal. -/
def source (literal : FloatingLiteral) : String := String.ofList (literal.mantissa.first :: literal.others)

/-- The number that a literal stands for. -/
def decimal (literal : FloatingLiteral) : Decimal :=
  let fraction := literal.mantissa.fraction.getD []
  ⟨Text.ofDigits 10 (literal.mantissa.whole ++ fraction),
    (literal.exponent.map (·.value)).getD 0 - fraction.length⟩

/-- The token of a literal. Without a suffix it is a `double`. -/
def token (literal : FloatingLiteral) : Token :=
  Floating.token (Floating.isSingle literal.suffix) literal.decimal

/-- Whether the exponent or the suffix directly follows the point. -/
def isSplit (literal : FloatingLiteral) : Bool := literal.mantissa.isOpen && literal.behind ≠ []

end FloatingLiteral

/-! ### Parts of a literal -/

namespace Floating

/-- The letters that an exponent or a suffix begins with. -/
def letters : List Char := ['e', 'E', 'f', 'F', 'd', 'D']

theorem letters_cases {c : Char} (isLetter : c ∈ letters) :
    c = 'e' ∨ c = 'E' ∨ c = 'f' ∨ c = 'F' ∨ c = 'd' ∨ c = 'D' := by
  simpa [letters] using isLetter

/-- The letters belong to names, and not to digits. -/
theorem noDigit_of_mem_letters {c : Char} (isLetter : c ∈ letters) :
    Text.isDigitOf 10 c = false ∧ c ≠ '_' ∧ c ≠ '.' := by
  obtain rfl | rfl | rfl | rfl | rfl | rfl := letters_cases isLetter <;> decide

theorem startsName_of_mem_letters {c : Char} (isLetter : c ∈ letters) (rest : List Char) :
    Scan.startsName (c :: rest) = true := by
  show Scan.isNameStart c = true
  obtain rfl | rfl | rfl | rfl | rfl | rfl := letters_cases isLetter <;> decide

theorem IsSuffix.mem_letters {c : Char} (isSuffix : IsSuffix c) : c ∈ letters := by
  rcases isSuffix with (rfl | rfl) | rfl | rfl <;> decide

theorem Exponent.mem_letters (exponent : Exponent) : exponent.letter ∈ letters := by
  rcases exponent.isLetter with same | same <;> rw [same] <;> decide

namespace Digits

variable (digits : Digits)

theorem isRun_chars : Scan.IsRun 10 digits.chars := by
  refine List.forall_mem_cons.mpr ⟨?_, digits.isRun⟩
  rw [Text.isDigitOf, decide_eq_true (Scan.digitValue_lt digits.isDigit), Bool.true_or]

theorem values_eq : digits.values = Text.digitValue digits.first :: Scan.digitsOf digits.others :=
  Scan.digitsOf_cons digits.isDigit digits.others

theorem ne_first {c : Char} (noDigit : c.isDigit = false) : digits.first ≠ c := by
  intro same
  rw [← same, digits.isDigit] at noDigit
  cases noDigit

/-- A digit begins no name. -/
theorem startsName_chars (rest : List Char) : Scan.startsName (digits.chars ++ rest) = false := by
  refine Bool.eq_false_iff.mpr fun isStart => ?_
  have noDigit := Scan.isDigit_of_isNameStart isStart
  rw [digits.isDigit] at noDigit
  cases noDigit

end Digits

variable {rest : List Char}

/-- A point belongs to the digits before it if no name follows. -/
theorem scanMantissa_point {first : Char} {run : List Char} (isDigit : first.isDigit = true)
    (isRun : Scan.IsRun 10 run) (behind : List Char) :
    Scan.scanMantissa first (run ++ '.' :: behind) =
      if Scan.startsName behind then ⟨Scan.digitsOf (first :: run), none, run.length⟩
      else ⟨Scan.digitsOf (first :: run), some (Scan.digitsOf (Scan.digitRun 10 behind)),
        run.length + 1 + (Scan.digitRun 10 behind).length⟩ := by
  have noPoint : first ≠ '.' := by
    rintro rfl
    cases isDigit
  have isTaken : Scan.digitRun 10 (run ++ '.' :: behind) = run :=
    Scan.digitRun_append isRun (by rintro c ⟨⟩; decide)
  rw [Scan.scanMantissa, if_neg noPoint, isTaken, List.drop_left, Scan.digitsOf_cons isDigit]
  rfl

/-- The digits and the point in front of a text that does not go on with them. -/
theorem scanMantissa_first (mantissa : Mantissa)
    (ends : ∀ c ∈ rest.head?, Text.isDigitOf 10 c = false ∧ c ≠ '_' ∧ c ≠ '.')
    (noName : mantissa.isOpen = true → Scan.startsName rest = false) :
    Scan.scanMantissa mantissa.first (mantissa.others ++ rest) = mantissa.scanned := by
  have noMore : ∀ c ∈ rest.head?, Text.isDigitOf 10 c = false ∧ c ≠ '_' :=
    fun c isHead => ⟨(ends c isHead).1, (ends c isHead).2.1⟩
  cases mantissa with
  | plain whole => exact Scan.scanMantissa_run whole.isDigit whole.isRun ends
  | fractional fraction =>
    show Scan.scanMantissa '.' (fraction.chars ++ rest) = _
    rw [Scan.scanMantissa, if_pos rfl, Scan.digitRun_append fraction.isRun_chars noMore]
    rfl
  | pointed whole fraction =>
    have others : ∀ behind, whole.others ++ '.' :: behind ++ rest = whole.others ++ '.' :: (behind ++ rest) :=
      fun behind => List.append_assoc ..
    have length : ∀ behind : List Char,
        (whole.others ++ '.' :: behind).length = whole.others.length + 1 + behind.length := by
      intro behind
      rw [List.length_append, List.length_cons, Nat.add_assoc, Nat.add_comm 1]
    cases fraction with
    | none =>
      have isNothing : Scan.digitRun 10 rest = [] :=
        Scan.digitRun_append (List.forall_mem_nil _) noMore
      rw [Mantissa.scanned, Mantissa.others, others, length]
      refine (scanMantissa_point whole.isDigit whole.isRun _).trans ?_
      rw [List.nil_append, noName rfl, isNothing]
      rfl
    | some fraction =>
      rw [Mantissa.scanned, Mantissa.others, others, length]
      refine (scanMantissa_point whole.isDigit whole.isRun _).trans ?_
      rw [fraction.startsName_chars, Scan.digitRun_append fraction.isRun_chars noMore]
      rfl

/-- The exponent in front of a text that does not go on with digits. -/
theorem scanExponent_chars (exponent : Exponent)
    (ends : ∀ c ∈ rest.head?, Text.isDigitOf 10 c = false ∧ c ≠ '_') :
    Scan.scanExponent (exponent.chars ++ rest) = some (.ok exponent.value, exponent.chars.length) := by
  have run := Scan.digitRun_append exponent.digits.isRun_chars ends
  have sign : ((exponent.sign.toList ++ (exponent.digits.chars ++ rest)).take 1).filter
      (fun c => c = '+' || c = '-') = exponent.sign.toList := by
    cases isSign : exponent.sign with
    | none =>
      have noPlus := exponent.digits.ne_first (c := '+') rfl
      have noMinus := exponent.digits.ne_first (c := '-') rfl
      simp [Digits.chars, noPlus, noMinus]
    | some c =>
      rcases exponent.isSign c isSign with rfl | rfl <;> rfl
  have isNegative : (exponent.sign.toList = ['-']) = (exponent.sign = some '-') := by
    cases exponent.sign <;> simp
  rw [Exponent.chars, List.cons_append, List.append_assoc, Scan.scanExponent, if_pos exponent.isLetter]
  dsimp only
  rw [sign, List.drop_left, run]
  have values := exponent.digits.values_eq
  rw [Digits.values] at values
  simp only [values, isNegative, Exponent.value, Digits.values]
  rw [List.length_cons, List.length_append, Nat.add_assoc, Nat.add_comm 1]

/-- A suffix or the end of a text tells the format of a number with a fraction. -/
theorem decimalToken_suffix {mantissa : Scan.Mantissa} {exponent : Option Int} {suffix : Option Char}
    (isSuffix : ∀ c ∈ suffix, IsSuffix c)
    (isFloating : mantissa.fraction.isSome ∨ exponent.isSome ∨ suffix.isSome) :
    Scan.decimalToken mantissa exponent suffix =
      (.ok (token (isSingle suffix) (mantissa.toDecimal (exponent.getD 0))), suffix.isSome) := by
  cases suffix with
  | none =>
    have hasFraction : (mantissa.fraction.isSome || exponent.isSome) = true := by
      simpa using isFloating
    rw [Scan.decimalToken, hasFraction]
    rfl
  | some c =>
    rcases isSuffix c rfl with (rfl | rfl) | rfl | rfl <;> rfl

end Floating

namespace FloatingLiteral

open Floating

variable (literal : FloatingLiteral)

/-! ### One token -/

theorem mem_letters_of_suffix {c : Char} (isHead : c ∈ literal.suffix.toList.head?) : c ∈ letters := by
  refine (literal.isSuffix c ?_).mem_letters
  cases suffix : literal.suffix <;> simp_all

/-- What follows the digits and the point begins with a letter. -/
theorem mem_letters_of_behind {c : Char} (isHead : c ∈ literal.behind.head?) : c ∈ letters := by
  rw [behind] at isHead
  cases isExponent : literal.exponent with
  | none =>
    rw [isExponent] at isHead
    exact literal.mem_letters_of_suffix isHead
  | some exponent =>
    rw [isExponent] at isHead
    obtain rfl := Option.some.inj isHead
    exact exponent.mem_letters

/-- No radix is announced, since no letter of one stands behind the first digit. -/
theorem announcedRadix?_others : Scan.announcedRadix? literal.mantissa.first literal.others = none := by
  refine Scan.announcedRadix?_of_head (fun c isHead => ?_) _
  have digits : ∀ {run : List Char}, Scan.IsRun 10 run → ∀ c ∈ run, ¬(c = 'x' ∨ c = 'X') ∧ ¬(c = 'b' ∨ c = 'B') :=
    fun isRun c isIn => Scan.noLetter_of_isRun (isRun c isIn)
  have inMantissa : ∀ c ∈ literal.mantissa.others, ¬(c = 'x' ∨ c = 'X') ∧ ¬(c = 'b' ∨ c = 'B') := by
    cases literal.mantissa with
    | plain whole => exact digits whole.isRun
    | fractional fraction => exact digits fraction.isRun_chars
    | pointed whole fraction =>
      cases fraction with
      | none => exact List.forall_mem_append.mpr ⟨digits whole.isRun, List.forall_mem_singleton.mpr (by decide)⟩
      | some fraction =>
        exact List.forall_mem_append.mpr ⟨digits whole.isRun,
          List.forall_mem_cons.mpr ⟨by decide, digits fraction.isRun_chars⟩⟩
  rw [others, List.head?_append, Option.mem_def, Option.or_eq_some_iff] at isHead
  rcases isHead with isHead | ⟨-, isHead⟩
  · exact inMantissa c (List.mem_of_head? isHead)
  · obtain rfl | rfl | rfl | rfl | rfl | rfl := letters_cases (literal.mem_letters_of_behind isHead) <;> decide

theorem startsNumber_others : Scan.startsNumber literal.mantissa.first literal.others = true := by
  have digit : ∀ {first : Char} (text : List Char), first.isDigit = true → Scan.startsNumber first text = true := by
    intro first text isDigit
    unfold Scan.startsNumber
    rw [isDigit, Bool.true_or]
  rw [others]
  cases literal.mantissa with
  | plain whole | pointed whole _ => exact digit _ whole.isDigit
  | fractional fraction => exact fraction.isDigit

theorem scanToken_source : Scan.scanToken (literal.mantissa.first :: literal.others) =
    ((Scan.scanDecimal literal.mantissa.first literal.others).1,
      (Scan.scanDecimal literal.mantissa.first literal.others).2 + 1) :=
  Scan.scanToken_number literal.startsNumber_others literal.announcedRadix?_others

variable {literal}

/-- A literal is scanned to its end unless a letter follows the point. -/
theorem scanDecimal_of_isSplit (notSplit : literal.isSplit = false) :
    Scan.scanDecimal literal.mantissa.first literal.others = (.ok literal.token, literal.others.length) := by
  have noName : literal.mantissa.isOpen = true → Scan.startsName literal.behind = false := by
    intro isOpen
    have isNothing : literal.behind = [] := by simpa [isSplit, isOpen] using notSplit
    rw [isNothing]
    rfl
  have mantissa := scanMantissa_first literal.mantissa
    (fun c isHead => noDigit_of_mem_letters (literal.mem_letters_of_behind isHead)) noName
  have floating := literal.isFloating
  have suffixed : literal.suffix.toList.head? = literal.suffix := by cases literal.suffix <;> rfl
  have length : literal.suffix.toList.length = if literal.suffix.isSome then 1 else 0 := by
    cases literal.suffix <;> rfl
  -- The format is told by the suffix, whatever exponent was read before.
  have told : ∀ exponent : Option Int, exponent.isSome = literal.exponent.isSome →
      Scan.decimalToken literal.mantissa.scanned exponent literal.suffix =
        (.ok (Floating.token (isSingle literal.suffix)
          (literal.mantissa.scanned.toDecimal (exponent.getD 0))), literal.suffix.isSome) := by
    intro exponent isRead
    rw [← isRead] at floating
    exact decimalToken_suffix literal.isSuffix floating
  unfold Scan.scanDecimal
  rw [others, mantissa]
  dsimp only
  rw [show literal.mantissa.scanned.length = literal.mantissa.others.length from rfl, List.drop_left,
    behind, token, decimal]
  cases isExponent : literal.exponent with
  | none =>
    have noExponent : Scan.scanExponent literal.suffix.toList = none := by
      cases isSuffix : literal.suffix with
      | none => rfl
      | some c => rcases literal.isSuffix c isSuffix with (rfl | rfl) | rfl | rfl <;> rfl
    rw [isExponent] at told
    simp only [Option.map_none, Option.getD_none, List.nil_append, noExponent, suffixed, length,
      told none rfl, List.length_append]
    rfl
  | some exponent =>
    have ends : ∀ c ∈ literal.suffix.toList.head?, Text.isDigitOf 10 c = false ∧ c ≠ '_' := by
      intro c isHead
      have noDigit := noDigit_of_mem_letters (literal.mem_letters_of_suffix isHead)
      exact ⟨noDigit.1, noDigit.2.1⟩
    have isRead := scanExponent_chars exponent ends
    rw [isExponent] at told
    simp only [Option.map_some, Option.getD_some, isRead, List.drop_left, suffixed, length,
      told (some exponent.value) rfl, List.length_append, Nat.add_assoc]
    rfl

theorem fronts_others : Fronts literal.mantissa.first literal.others := by
  cases literal.mantissa with
  | plain whole | pointed whole _ => exact fronts_of_isDigit whole.isDigit _
  | fractional _ => exact fronts_of_ne rfl (by nofun : '.' ≠ '/') _

/-! ### A letter behind the point -/

/-- A point that a name follows ends the number in front of it. -/
theorem scanDecimal_member {first : Char} {run behind : List Char} (isDigit : first.isDigit = true)
    (isRun : Scan.IsRun 10 run) (isName : Scan.startsName behind = true) :
    Scan.scanDecimal first (run ++ '.' :: behind) =
      (Scan.wholeNumber (Scan.digitsOf (first :: run)) (Scan.plainRadix (Scan.digitsOf (first :: run))) false,
        run.length) := by
  unfold Scan.scanDecimal
  rw [scanMantissa_point isDigit isRun, if_pos isName]
  dsimp only
  rw [List.drop_left]
  rfl

/-- A literal that is scanned to its end is one token. -/
theorem lexemes_of_isSplit_false (notSplit : literal.isSplit = false) :
    lexemes literal.source =
      ⟨[⟨literal.token, .start⟩], .ok (Position.start.forward literal.source.length)⟩ := by
  have scanned := literal.scanToken_source
  rw [scanDecimal_of_isSplit notSplit] at scanned
  rw [lexemes, Cursor.ofText, source, String.toList_ofList, String.length_ofList]
  exact Cursor.lexemesFrom_last [] .start fronts_others scanned

/-- In a literal with a letter behind its point, the point is a token. -/
theorem lexemes_ne_of_isSplit (split : literal.isSplit = true) (lexeme : Lexeme) (finish : Position) :
    lexemes literal.source ≠ ⟨[lexeme], .ok finish⟩ := by
  intro single
  obtain ⟨isOpen, someBehind⟩ := Bool.and_eq_true_iff.mp split
  obtain ⟨whole, isPointed⟩ : ∃ whole, literal.mantissa = .pointed whole none := by
    cases isMantissa : literal.mantissa with
    | plain | fractional => rw [isMantissa] at isOpen; cases isOpen
    | pointed whole fraction =>
      cases fraction with
      | none => exact ⟨whole, rfl⟩
      | some => rw [isMantissa] at isOpen; cases isOpen
  obtain ⟨letter, more, isBehind⟩ := List.exists_cons_of_ne_nil (of_decide_eq_true someBehind)
  have isLetter : letter ∈ letters := literal.mem_letters_of_behind (by rw [isBehind]; rfl)
  have isFirst : literal.mantissa.first = whole.first := by rw [isPointed]; rfl
  have isOthers : literal.others = whole.others ++ '.' :: letter :: more := by
    rw [others, isPointed, isBehind, Mantissa.others, List.append_assoc, List.singleton_append]
  have scanned := literal.scanToken_source
  rw [isFirst, isOthers,
    scanDecimal_member whole.isDigit whole.isRun (startsName_of_mem_letters isLetter more)] at scanned
  have skipped := Cursor.skip_of_fronts literal.fronts_others .start
  rw [isFirst, isOthers] at skipped
  rw [lexemes, Cursor.ofText, source, String.toList_ofList, isFirst, isOthers] at single
  cases isToken : Scan.wholeNumber (Scan.digitsOf (whole.first :: whole.others))
      (Scan.plainRadix (Scan.digitsOf (whole.first :: whole.others))) false with
  | error fault =>
    rw [isToken] at scanned
    rw [Cursor.lexemesFrom_fault [] skipped scanned] at single
    cases single
  | ok token =>
    have rest : (whole.first :: (whole.others ++ '.' :: letter :: more)).drop (whole.others.length + 1) =
        '.' :: letter :: more := by
      rw [List.drop_succ_cons, List.drop_left]
    have ends : Token.Ends (.punct .dot) (letter :: more) := by
      rintro c ⟨⟩
      obtain rfl | rfl | rfl | rfl | rfl | rfl := letters_cases isLetter <;> decide
    have fronts : Fronts '.' (letter :: more) := fronts_of_ne rfl (by decide) _
    rw [isToken] at scanned
    rw [Cursor.lexemesFrom_token [] skipped scanned, Cursor.forward, rest,
      Cursor.lexemesFrom_token _ (Cursor.skip_of_fronts fronts _) (Scan.scanToken_punct .dot ends)] at single
    obtain ⟨tokens, items, -⟩ := Cursor.lexemesFrom_interleaved (congrArg Lexemes.finish single)
    rw [single] at items
    cases items

variable (literal)

/-- **A literal is one token exactly if neither its exponent nor its suffix directly follows the point.**
The token is a `float` behind the suffix of one and a `double` otherwise, and has the value of the literal. -/
theorem lexemes_cases :
    if literal.isSplit then ∀ lexeme finish, lexemes literal.source ≠ ⟨[lexeme], .ok finish⟩
    else lexemes literal.source =
      ⟨[⟨literal.token, .start⟩], .ok (Position.start.forward literal.source.length)⟩ := by
  cases split : literal.isSplit with
  | true => exact lexemes_ne_of_isSplit split
  | false => exact lexemes_of_isSplit_false split

/-- The `float` of the digit one, with a point behind it. -/
def pointedOne : FloatingLiteral where
  mantissa := .pointed ⟨'1', [], rfl, by decide, by decide⟩ none
  exponent := none
  suffix := some 'f'
  isSuffix := by
    rintro c ⟨⟩
    exact .inl (.inl rfl)
  isFloating := .inl rfl

/-- The suffix of the literal `1.f` is a name behind the point. -/
theorem lexemes_pointedOne : pointedOne.source = "1.f" ∧
    (lexemes pointedOne.source).items =
      [⟨.int 1, .start⟩, ⟨.punct .dot, ⟨1, 2, 1⟩⟩, ⟨.name "f", ⟨1, 3, 2⟩⟩] ∧
    (lexemes pointedOne.source).finish.toOption = some ⟨1, 4, 3⟩ := by
  decide +kernel

end FloatingLiteral

end MethodPatch
