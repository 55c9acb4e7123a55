/-
**Scanning one piece of text.**

A scanner reads the beginning of a text. It answers with what it read, or with a fault, and in both
cases with the number of characters that it took.

A whole number is decimal, octal after a leading zero, hexadecimal after `0x` or binary after `0b`,
and a `long` with the suffix `L`. A decimal number with a point, an exponent or the suffix `f` or
`d` has a fraction. Underscores may separate digits. A decimal literal is its magnitude, at most one
more than the largest number of its type. The other radices spell the bits of the number instead.

Between quotes a backslash begins an escape: a letter, up to three octal digits, or `u` and four
hexadecimal digits. An escape is one UTF-16 code unit; in a string it has to be a character by
itself, and neither kind of literal goes on over the end of a line.

The first character tells the kind of a token. A name goes on as long as it can, and so does a
punctuator: of all spellings that the text begins with, the longest is taken.

* `wholeNumber`: the token of a whole number, or that it is too large;
* `scanNumber`: the number that a text begins with;
* `scanToken_pos`: a token or a fault takes one character at least.
-/

import MethodPatch.Decimal
import MethodPatch.Source.SourceError
import MethodPatch.Syntax.Token
import MethodPatch.Text.Plain
import MethodPatch.Text.Letter

namespace MethodPatch.Scan

/-- The answer of a scanner and the number of characters it took. -/
abbrev Scanned (α : Type) := Except SyntaxFault α × Nat

/-- Characters that a name begins with. -/
def isNameStart (c : Char) : Bool := c = '_' || c = '$' || Text.isLetter c

/-- Characters that a name goes on with. -/
def isNameRest (c : Char) : Bool := isNameStart c || c.isDigit || Text.isNumeric c

/-- A text that goes on with a name. -/
def startsName (text : List Char) : Bool :=
  match text with
  | c :: _ => isNameStart c
  | [] => false

/-- The longest beginning that consists of digits of a radix and underscores. -/
def digitRun (radix : Nat) (text : List Char) : List Char :=
  text.takeWhile fun c => Text.isDigitOf radix c || c = '_'

/-- The values of the digits in a run; underscores only separate them. -/
def digitsOf (run : List Char) : List Nat := (run.filter (· ≠ '_')).map Text.digitValue

/-! ### Numbers -/

/-- The number of bits of an `int` or a `long`. -/
def integerBits (isLong : Bool) : Nat := if isLong then 64 else 32

/-- The token of a whole number that is written with some digits in some radix. -/
def wholeNumber (digits : List Nat) (radix : Nat) (isLong : Bool) : Except SyntaxFault Token :=
  let bits := integerBits isLong
  let value := Text.ofDigits radix digits
  let largest := if radix = 10 then Decimal.twoTo (bits - 1) else Decimal.twoTo bits - 1
  if digits.any (radix ≤ ·) ∨ largest < value then .error .integerTooLarge
  else
    let number : Int := if radix = 10 then value else (value : Int).bmod (Decimal.twoTo bits)
    .ok (if isLong then .long number else .int number)

/-- The suffix of a `long`. -/
def isLongSuffix (c : Char) : Bool := c = 'L' || c = 'l'

/-- A number in the notation of a radix, behind the letter that names the radix. -/
def scanRadix (radix : Nat) (text : List Char) : Scanned Token :=
  let run := digitRun radix text
  match digitsOf run with
  | [] => (.error .malformedNumber, run.length)
  | digits =>
    match text.drop run.length with
    | c :: _ =>
      if isLongSuffix c then (wholeNumber digits radix true, run.length + 1)
      else (wholeNumber digits radix false, run.length)
    | [] => (wholeNumber digits radix false, run.length)

/-- The radix of a whole number without a radix letter: a zero in front makes it octal. -/
def plainRadix (digits : List Nat) : Nat :=
  match digits with
  | 0 :: _ :: _ => 8
  | _ => 10

/-- The digits of a decimal number before its exponent. -/
structure Mantissa where
  whole : List Nat
  fraction : Option (List Nat)
  length : Nat

/-- The digits before the exponent, behind a first character that is a digit or a point. A point
that a name follows is not part of the number. -/
def scanMantissa (first : Char) (text : List Char) : Mantissa :=
  let run := digitRun 10 text
  if first = '.' then ⟨[], some (digitsOf run), run.length⟩
  else
    let whole := Text.digitValue first :: digitsOf run
    match text.drop run.length with
    | '.' :: behind =>
      if startsName behind then ⟨whole, none, run.length⟩
      else
        let fraction := digitRun 10 behind
        ⟨whole, some (digitsOf fraction), run.length + 1 + fraction.length⟩
    | _ => ⟨whole, none, run.length⟩

/-- The value of the digits of an exponent. It stops growing where every format has ended. -/
def exponentValue (digits : List Nat) : Nat :=
  digits.foldl (fun value digit => if value < 65536 then value * 10 + digit else value) 0

/-- The exponent of a decimal number, if there is one. -/
def scanExponent (text : List Char) : Option (Scanned Int) :=
  match text with
  | [] => none
  | letter :: behind =>
    if letter = 'e' ∨ letter = 'E' then
      let sign := (behind.take 1).filter fun c => c = '+' || c = '-'
      let run := digitRun 10 (behind.drop sign.length)
      let length := 1 + sign.length + run.length
      match digitsOf run with
      | [] => some (.error .malformedExponent, length)
      | digits =>
        let value : Int := exponentValue digits
        some (.ok (if sign = ['-'] then -value else value), length)
    else none

/-- The decimal of a mantissa and an exponent. -/
def Mantissa.toDecimal (mantissa : Mantissa) (exponent : Int) : Decimal :=
  let fraction := mantissa.fraction.getD []
  ⟨Text.ofDigits 10 (mantissa.whole ++ fraction), exponent - fraction.length⟩

/-- The token of a decimal number, told by the character behind it, and whether that character
belongs to it. -/
def decimalToken (mantissa : Mantissa) (exponent : Option Int) (behind : Option Char) :
    Except SyntaxFault Token × Bool :=
  let decimal := mantissa.toDecimal (exponent.getD 0)
  let hasFraction := mantissa.fraction.isSome || exponent.isSome
  let asDouble := Token.double (UInt64.ofNat (decimal.bits Decimal.double))
  let asWhole := wholeNumber mantissa.whole (plainRadix mantissa.whole)
  match behind with
  | some c =>
    if c = 'f' ∨ c = 'F' then
      (.ok (.float (UInt32.ofNat (decimal.bits Decimal.single))), true)
    else if c = 'd' ∨ c = 'D' then (.ok asDouble, true)
    else if isLongSuffix c && !hasFraction then (asWhole true, true)
    else if hasFraction then (.ok asDouble, false)
    else (asWhole false, false)
  | none => if hasFraction then (.ok asDouble, false) else (asWhole false, false)

/-- A decimal number behind its first character. -/
def scanDecimal (first : Char) (text : List Char) : Scanned Token :=
  let mantissa := scanMantissa first text
  let afterMantissa := text.drop mantissa.length
  match scanExponent afterMantissa with
  | some (.error fault, length) => (.error fault, mantissa.length + length)
  | some (.ok exponent, length) =>
    let (token, suffix) :=
      decimalToken mantissa (some exponent) (afterMantissa.drop length).head?
    (token, mantissa.length + length + if suffix then 1 else 0)
  | none =>
    let (token, suffix) := decimalToken mantissa none afterMantissa.head?
    (token, mantissa.length + if suffix then 1 else 0)

/-- The radix that a letter behind a zero announces. -/
def announcedRadix? (first : Char) (text : List Char) : Option Nat :=
  if first = '0' then
    match text with
    | c :: _ =>
      if c = 'x' ∨ c = 'X' then some 16 else if c = 'b' ∨ c = 'B' then some 2 else none
    | [] => none
  else none

/-- A number behind its first character, which is a digit or a point before a digit. -/
def scanNumber (first : Char) (text : List Char) : Scanned Token :=
  match announcedRadix? first text with
  | some radix =>
    let (token, length) := scanRadix radix (text.drop 1)
    (token, length + 1)
  | none => scanDecimal first text

/-! ### Characters and strings -/

/-- The unit of an escape that is one character long. -/
def namedEscape? : Char → Option Text.Unit16
  | 'n' => some 0x0A
  | 't' => some 0x09
  | 'r' => some 0x0D
  | 'b' => some 0x08
  | 'f' => some 0x0C
  | 's' => some 0x20
  | '\\' => some 0x5C
  | '\'' => some 0x27
  | '"' => some 0x22
  | _ => none

/-- The escape behind a backslash. -/
def scanEscape (text : List Char) : Scanned Text.Unit16 :=
  match text with
  | [] => (.error .unterminatedEscape, 0)
  | c :: behind =>
    match namedEscape? c with
    | some unit => (.ok unit, 1)
    | none =>
      if c = 'u' then
        let repeated := behind.takeWhile (· = 'u')
        let digits := ((behind.drop repeated.length).take 4).takeWhile (Text.isDigitOf 16)
        let length := 1 + repeated.length + digits.length
        if digits.length = 4 then
          (.ok (UInt16.ofNat (Text.ofDigits 16 (digits.map Text.digitValue))), length)
        else (.error .badUnicodeEscape, length)
      else if Text.isDigitOf 8 c then
        let most := if c ≤ '3' then 2 else 1
        let digits := (behind.take most).takeWhile (Text.isDigitOf 8)
        (.ok (UInt16.ofNat (Text.ofDigits 8 ((c :: digits).map Text.digitValue))), 1 + digits.length)
      else (.error (.illegalEscape c), 1)

/-- The character that a code unit is by itself. -/
def unitChar? (unit : Text.Unit16) : Option Char :=
  if h : unit.toNat.isValidChar then some (Char.ofNatAux unit.toNat h) else none

/-- The rest of a string literal. `read` holds the characters before it in reverse, `taken` their
number in the text. -/
def scanStringFrom (read : List Char) (taken : Nat) (text : List Char) : Scanned String :=
  match text with
  | [] => (.error .unterminatedString, taken)
  | c :: behind =>
    if c = '\n' ∨ c = '\r' then (.error .unterminatedString, taken)
    else if c = '"' then (.ok (String.ofList read.reverse), taken + 1)
    else if c = '\\' then
      match scanEscape behind with
      | (.error fault, length) => (.error fault, taken + 1 + length)
      | (.ok unit, length) =>
        match unitChar? unit with
        | none => (.error .unpairedSurrogate, taken + 1 + length)
        | some decoded => scanStringFrom (decoded :: read) (taken + 1 + length) (behind.drop length)
    else scanStringFrom (c :: read) (taken + 1) behind
termination_by text.length

/-- A string literal behind its first quote. -/
def scanString (text : List Char) : Scanned Token :=
  let (read, length) := scanStringFrom [] 0 text
  (read.map Token.string, length)

/-- The unit between the quotes of a character literal. -/
def scanUnit (text : List Char) : Scanned Text.Unit16 :=
  match text with
  | [] => (.error .emptyCharacter, 0)
  | c :: behind =>
    if c = '\'' ∨ c = '\n' then (.error .emptyCharacter, 0)
    else if c = '\\' then
      let (unit, length) := scanEscape behind
      (unit, length + 1)
    else if 0xFFFF < c.toNat then (.error .wideCharacter, 1)
    else (.ok (UInt16.ofNat c.toNat), 1)

/-- A character literal behind its first quote. -/
def scanCharacter (text : List Char) : Scanned Token :=
  match scanUnit text with
  | (.error fault, length) => (.error fault, length)
  | (.ok unit, length) =>
    if (text.drop length).head? = some '\'' then (.ok (.char unit), length + 1)
    else (.error .unterminatedCharacter, length)

/-! ### Tokens -/

/-- The token of a word. -/
def wordToken (word : String) : Except SyntaxFault Token :=
  match Keyword.ofWord? word with
  | some keyword => .ok (.keyword keyword)
  | none => if word ∈ reservedWords then .error (.reservedWord word) else .ok (.name word)

/-- A word behind its first character. -/
def scanWord (first : Char) (text : List Char) : Scanned Token :=
  let others := text.takeWhile isNameRest
  (wordToken (String.ofList (first :: others)), others.length)

/-- The punctuator that a text begins with. -/
def punct? (text : List Char) : Option Punct :=
  Punct.all.find? fun punct => punct.spelling.toList.isPrefixOf text

/-- A point that a digit follows begins a number. -/
def startsNumber (first : Char) (text : List Char) : Bool :=
  first.isDigit || (first = '.' && match text with
    | c :: _ => c.isDigit
    | [] => false)

/-- What the text behind a first character adds to a token. -/
def scanBehind (first : Char) (text : List Char) : Scanned Token :=
  if startsNumber first text then scanNumber first text
  else if first = '"' then scanString text
  else if first = '\'' then scanCharacter text
  else if isNameStart first then scanWord first text
  else
    match punct? (first :: text) with
    | some punct => (.ok (.punct punct), punct.spelling.length - 1)
    | none => (.error (.unexpectedCharacter first), 0)

/-- The token that a text begins with, after its blanks. -/
def scanToken (text : List Char) : Scanned Token :=
  match text with
  | [] => (.ok .endOfInput, 0)
  | first :: behind =>
    let (token, length) := scanBehind first behind
    (token, length + 1)

theorem scanToken_pos {text : List Char} (more : text ≠ []) : 0 < (scanToken text).2 := by
  cases text with
  | nil => exact absurd rfl more
  | cons first behind => simp [scanToken]

end MethodPatch.Scan
