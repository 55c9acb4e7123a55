/-
**Texts, numbers and words in JSON.**

What is read of a JSON text, which may be broken off, and the values that hold no others.

* `pieces_length`, `numberFrom_length`, `wordFrom_length`: reading takes a part of the text.
-/

import MethodPatch.Decimal
import MethodPatch.Text.Plain
import MethodPatch.Text.Utf16

namespace MethodPatch.Json

/-! ### JSON text as far as it can be read

A text is read into a node. Where the text is malformed or ends too early the node is broken off
there, and nothing behind is read; what is in front can still be looked at. So a reader of nodes
meets the faults of a text in the order in which they stand in it, be they faults of the text or
values of the wrong kind. -/

/-- What is wrong with a text: it ends too early, it is no JSON, or it is not of the wanted shape. -/
inductive Fault where
  | endOfText
  | malformed
  | mismatch
  deriving DecidableEq

/-- What is wrong where a text breaks off, for a reader that wants the value there and for one that
passes over it. -/
structure Break where
  wanted : Fault
  skipped : Fault
  deriving DecidableEq

/-- A break that is the same for every reader. -/
def Break.both (fault : Fault) : Break := ⟨fault, fault⟩

/-- A JSON text as far as it can be read. A key is absent if it spells no text. An array or an
object without an ending break is closed, unless its last part is broken. -/
inductive Node where
  | null
  | boolean (value : Bool)
  /-- A whole number without a sign. -/
  | natural (value : Nat)
  /-- Every other number. -/
  | number
  | text (value : String)
  /-- What is well formed but has no value: a number beyond all floating-point numbers, or a text
  with half of a surrogate pair. -/
  | valueless
  | array (items : List Node) (ending : Option Break)
  | object (members : List (Option String × Node)) (ending : Option Break)
  | broken (place : Break)
  deriving Inhabited

/-- The blanks between the parts of a text. -/
def isBlank (c : Char) : Bool := c = ' ' || c = '\n' || c = '\t' || c = '\r'

/-- A text without the blanks in front. -/
def trimStart (text : List Char) : List Char := text.dropWhile isBlank

theorem trimStart_length (text : List Char) : (trimStart text).length ≤ text.length :=
  (List.dropWhile_suffix isBlank).length_le

/-- The text behind a part that was read, which is shorter than a bound. -/
abbrev Shorter (bound : Nat) := { rest : List Char // rest.length < bound }

/-! ### Texts, numbers and words in JSON

Between the quotes a backslash begins an escape: a letter, or `u` and four hexadecimal digits for a
UTF-16 code unit. Two units in a row can be a pair of surrogates. A number is digits, with a
fraction and an exponent if they are there. -/

/-! ### Texts -/

/-- A part of a text: a character, or a code unit that was written as an escape. -/
inductive Piece where
  | char (c : Char)
  | unit (unit : Text.Unit16)
  deriving DecidableEq

/-- The character of an escape by a letter. -/
def namedEscape? : Char → Option Char
  | '"' => some '"'
  | '\\' => some '\\'
  | '/' => some '/'
  | 'b' => some '\x08'
  | 'f' => some '\x0c'
  | 'n' => some '\n'
  | 'r' => some '\r'
  | 't' => some '\t'
  | _ => none

/-- The code unit of four hexadecimal digits. -/
def unitOf? (digits : List Char) : Option Text.Unit16 :=
  if digits.all (Text.isDigitOf 16) then
    some (UInt16.ofNat (Text.ofDigits 16 (digits.map Text.digitValue)))
  else none

/-- The pieces up to the closing quote, and the text behind it or the fault that comes first. -/
def pieces : List Char → List Piece × Except Fault (List Char)
  | [] => ([], .error .endOfText)
  | ['\\'] => ([], .error .endOfText)
  | '\\' :: 'u' :: a :: b :: c :: d :: rest =>
    match unitOf? [a, b, c, d] with
    | some unit =>
      let (read, behind) := pieces rest
      (.unit unit :: read, behind)
    | none => ([], .error .malformed)
  | '\\' :: c :: rest =>
    match namedEscape? c with
    | some meant =>
      let (read, behind) := pieces rest
      (.char meant :: read, behind)
    | none =>
      if c = 'u' ∧ (String.ofList rest).utf8ByteSize < 4 then ([], .error .endOfText)
      else ([], .error .malformed)
  | c :: rest =>
    if c = '"' then ([], .ok rest)
    else if c < ' ' then ([], .error .malformed)
    else
      let (read, behind) := pieces rest
      (.char c :: read, behind)

/-- The first half of a surrogate pair. -/
def isHighSurrogate (unit : Text.Unit16) : Bool := 0xD800 ≤ unit && unit < 0xDC00

/-- The second half of a surrogate pair. -/
def isLowSurrogate (unit : Text.Unit16) : Bool := 0xDC00 ≤ unit && unit < 0xE000

/-- The character of a surrogate pair. -/
def pairChar (high low : Text.Unit16) : Char :=
  Char.ofNat (0x10000 + (high.toNat - 0xD800) * 0x400 + (low.toNat - 0xDC00))

/-- The characters that pieces spell, if both halves of every pair are there. What is wrong behind
the pieces is met when they are all in order, or when the first half of a pair is the last of
them. -/
def spelling (behind : Option Fault) : List Piece → Except Fault (List Char)
  | [] =>
    match behind with
    | some fault => .error fault
    | none => .ok []
  | .char c :: rest => (spelling behind rest).map (c :: ·)
  | .unit unit :: rest =>
    if isHighSurrogate unit then
      match rest with
      | .unit low :: rest =>
        if isLowSurrogate low then (spelling behind rest).map (pairChar unit low :: ·)
        else .error .malformed
      | .char _ :: _ => .error .malformed
      | [] => .error (behind.getD .malformed)
    else if isLowSurrogate unit then .error .malformed
    else (spelling behind rest).map (Char.ofNat unit.toNat :: ·)

theorem pieces_length {text rest : List Char} (taken : (pieces text).2 = .ok rest) :
    rest.length < text.length := by
  fun_induction pieces text <;> simp_all <;> omega

/-! ### Numbers -/

/-- What is wrong where the digits of a number end with the text. -/
def cutNumber : Break := ⟨.endOfText, .malformed⟩

/-- The digits in front, of which there has to be one, and the text behind them. -/
def digitsFrom (text : List Char) : Except Break (List Char × List Char) :=
  match text.takeWhile Char.isDigit with
  | [] => .error (if text = [] then cutNumber else .both .malformed)
  | digits => .ok (digits, text.dropWhile Char.isDigit)

/-- The digits of the whole part, which has no zero in front of other digits. -/
def wholeFrom (text : List Char) : Except Break (List Char × List Char) :=
  match digitsFrom text with
  | .ok ('0' :: _ :: _, _) => .error (.both .malformed)
  | read => read

/-- The digits behind a point, if there is one. -/
def fractionFrom : List Char → Except Break (Option (List Char) × List Char)
  | '.' :: text => (digitsFrom text).map fun (digits, rest) => (some digits, rest)
  | text => .ok (none, text)

/-- Whether a sign is a minus, and the text behind it. -/
def signFrom : List Char → Bool × List Char
  | '-' :: text => (true, text)
  | '+' :: text => (false, text)
  | text => (false, text)

/-- The number that decimal digits spell. -/
def ofDecimals (digits : List Char) : Nat := Text.ofDigits 10 (digits.map Text.digitValue)

/-- The exponent, if there is one. -/
def exponentFrom (text : List Char) : Except Break (Option Int × List Char) :=
  if text.head? = some 'e' ∨ text.head? = some 'E' then
    let (negative, text) := signFrom text.tail
    (digitsFrom text).map fun (digits, rest) =>
      let size : Int := ofDecimals digits
      (some (if negative then -size else size), rest)
  else .ok (none, text)

/-- A number with more digits appended, as many as 64 bits hold, and the digits that are left. -/
def appendDigits (read : Nat) : List Char → Nat × List Char
  | [] => (read, [])
  | digit :: rest =>
    let next := 10 * read + Text.digitValue digit
    if next < UInt64.size then appendDigits next rest else (read, digit :: rest)

/-- A number as its leading digits times a power of ten. Of the digits behind the point those that
do not fit are passed over. -/
def leadingDigits (whole places : List Char) (exponent : Int) : Decimal :=
  let (read, beyond) := appendDigits 0 whole
  let (read, skipped) := appendDigits read places
  ⟨read, exponent + beyond.length - (places.length - skipped.length : Nat)⟩

/-- The largest power of ten that a double holds. -/
def largestPower : Nat := 308

/-- Whether a number is beyond the doubles. A power of ten is applied in double arithmetic, which
goes beyond them a little too early or too late. -/
def isBeyond (number : Decimal) : Bool :=
  number.significand ≠ 0 && 0 ≤ number.exponent &&
    (largestPower < number.exponent.toNat ||
      Decimal.scaledBits Decimal.double number.significand number.exponent.toNat =
        Decimal.double.infinity)

/-- The node of a number, given its parts. -/
def numeral (negative : Bool) (whole : List Char) (fraction : Option (List Char))
    (exponent : Option Int) : Node :=
  if isBeyond (leadingDigits whole (fraction.getD []) (exponent.getD 0)) then .valueless
  else if negative ∨ fraction.isSome ∨ exponent.isSome then .number
  else .natural (ofDecimals whole)

/-- A number without its sign, and the text behind it. -/
def numberFrom (negative : Bool) (text : List Char) : Except Break (Node × List Char) := do
  let (whole, text) ← wholeFrom text
  let (fraction, text) ← fractionFrom text
  let (exponent, text) ← exponentFrom text
  return (numeral negative whole fraction exponent, text)

theorem digitsFrom_length {text rest digits : List Char}
    (taken : digitsFrom text = .ok (digits, rest)) : rest.length < text.length := by
  have whole := congrArg List.length (List.takeWhile_append_dropWhile (p := Char.isDigit) (l := text))
  unfold digitsFrom at taken
  split at taken
  · simp at taken
  · next found present =>
    simp only [Except.ok.injEq, Prod.mk.injEq] at taken
    have := List.length_pos_iff.mpr present
    simp only [List.length_append] at whole
    rw [← taken.2]
    omega

theorem wholeFrom_length {text rest digits : List Char}
    (taken : wholeFrom text = .ok (digits, rest)) : rest.length < text.length := by
  unfold wholeFrom at taken
  split at taken
  · simp at taken
  · exact digitsFrom_length taken

theorem fractionFrom_length {text rest : List Char} {digits : Option (List Char)}
    (taken : fractionFrom text = .ok (digits, rest)) : rest.length ≤ text.length := by
  unfold fractionFrom at taken
  split at taken
  · next behind =>
    cases read : digitsFrom behind with
    | error place => simp [read, Except.map] at taken
    | ok parts =>
      simp only [read, Except.map, Except.ok.injEq, Prod.mk.injEq] at taken
      have := digitsFrom_length read
      rw [← taken.2, List.length_cons]
      omega
  · simp only [Except.ok.injEq, Prod.mk.injEq] at taken
    exact Nat.le_of_eq (congrArg List.length taken.2.symm)

theorem signFrom_length (text : List Char) : (signFrom text).2.length ≤ text.length := by
  unfold signFrom
  split <;> simp

theorem exponentFrom_length {text rest : List Char} {exponent : Option Int}
    (taken : exponentFrom text = .ok (exponent, rest)) : rest.length ≤ text.length := by
  unfold exponentFrom at taken
  split at taken
  · dsimp only at taken
    cases read : digitsFrom (signFrom text.tail).2 with
    | error place => simp [read, Except.map] at taken
    | ok parts =>
      simp only [read, Except.map, Except.ok.injEq, Prod.mk.injEq] at taken
      have short := digitsFrom_length read
      have sign := signFrom_length text.tail
      have := List.length_tail (l := text)
      rw [← taken.2]
      omega
  · simp only [Except.ok.injEq, Prod.mk.injEq] at taken
    exact Nat.le_of_eq (congrArg List.length taken.2.symm)

theorem numberFrom_length {negative : Bool} {text rest : List Char} {node : Node}
    (taken : numberFrom negative text = .ok (node, rest)) : rest.length < text.length := by
  simp only [numberFrom, bind, Except.bind, pure, Except.pure] at taken
  split at taken
  · simp at taken
  · next whole =>
    split at taken
    · simp at taken
    · next fraction =>
      split at taken
      · simp at taken
      · next exponent =>
        simp only [Except.ok.injEq, Prod.mk.injEq] at taken
        have := wholeFrom_length whole
        have := fractionFrom_length fraction
        have := exponentFrom_length exponent
        rw [← taken.2]
        omega

/-! ### Words -/

/-- The text behind the rest of a word. -/
def wordFrom : List Char → List Char → Except Fault (List Char)
  | [], text => .ok text
  | _ :: _, [] => .error .endOfText
  | wanted :: others, c :: text => if c = wanted then wordFrom others text else .error .malformed

theorem wordFrom_length {word text rest : List Char} (taken : wordFrom word text = .ok rest) :
    rest.length ≤ text.length := by
  fun_induction wordFrom word text <;> simp_all
  omega

end MethodPatch.Json
