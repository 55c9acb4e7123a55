/-
**Plain text.**

The characters with the Unicode property White_Space are blank. A digit is a decimal digit or a letter
up to `f`; which of them count depends on the radix. A line ends at a line feed, together with a
carriage return in front of it, and behind the last line feed there is a line only if there is text.

* `isBlank_of_isWhitespace`: the four blanks of plain text are among the blanks;
* `trimStart_idem`: trimming twice trims once;
* `ofDigits_append`: the number of one digit more at the end;
* `lines`, `unlines`: the lines of a text, and the text of lines.
-/

namespace MethodPatch.Text

/-! ### Blanks -/

/-- Characters that separate words and carry no text: the property White_Space. -/
def isBlank (c : Char) : Bool :=
  let code := c.toNat
  (9 ≤ code && code ≤ 13) || code = 0x20 || code = 0x85 || code = 0xA0 || code = 0x1680 ||
    (0x2000 ≤ code && code ≤ 0x200A) || code = 0x2028 || code = 0x2029 || code = 0x202F ||
    code = 0x205F || code = 0x3000

/-- The blanks of plain text are blank. -/
theorem isBlank_of_isWhitespace {c : Char} (white : c.isWhitespace = true) : isBlank c = true := by
  simp only [Char.isWhitespace, Bool.or_eq_true, decide_eq_true_eq] at white
  rcases white with ((rfl | rfl) | rfl) | rfl <;> decide

/-- The text without its leading blanks. -/
def trimStart (text : List Char) : List Char := text.dropWhile isBlank

/-- The text without its trailing blanks. -/
def trimEnd (text : List Char) : List Char := (text.reverse.dropWhile isBlank).reverse

/-- The text without the blanks around it. -/
def trim (text : List Char) : List Char := trimEnd (trimStart text)

theorem trimStart_idem (text : List Char) : trimStart (trimStart text) = trimStart text := by
  unfold trimStart
  induction text with
  | nil => rfl
  | cons c rest ih => by_cases blank : isBlank c <;> simp [blank, ih]

/-! ### Digits -/

/-- The value of a digit, with letters for digits above nine. -/
def digitValue (c : Char) : Nat :=
  if c.isDigit then c.toNat - 48
  else if 'a' ≤ c ∧ c ≤ 'f' then c.toNat - 87
  else if 'A' ≤ c ∧ c ≤ 'F' then c.toNat - 55
  else 16

/-- The digits of a radix up to sixteen. -/
def isDigitOf (radix : Nat) (c : Char) : Bool := digitValue c < radix

/-- The number that digits spell in a radix, most significant first. -/
def ofDigits (radix : Nat) (digits : List Nat) : Nat :=
  digits.foldl (fun value digit => value * radix + digit) 0

theorem ofDigits_append (radix : Nat) (digits : List Nat) (last : Nat) :
    ofDigits radix (digits ++ [last]) = ofDigits radix digits * radix + last := by
  simp [ofDigits]

/-! ### Lines -/

/-- A line from its characters in reverse, without the carriage return at its end. -/
def endedLine : List Char → String
  | '\r' :: read => String.ofList read.reverse
  | read => String.ofList read.reverse

/-- The lines of a text that goes on. `read` holds the first characters of the next line in
reverse. -/
def linesFrom (read : List Char) : List Char → List String
  | [] => if read = [] then [] else [String.ofList read.reverse]
  | c :: rest =>
    if c = '\n' then endedLine read :: linesFrom [] rest else linesFrom (c :: read) rest

/-- The lines of a text. The last need not be ended. -/
def lines (text : String) : List String := linesFrom [] text.toList

/-- The text of lines, each of which ends. -/
def unlines (lines : List String) : String := String.join (lines.map (· ++ "\n"))

end MethodPatch.Text
