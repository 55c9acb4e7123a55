/-
**When the shell waits for more lines.**

The shell reads a text by its characters alone: quotes and brackets count wherever they stand. The
scanner skips comments. On tokens the two agree, for a literal closes its quotes and the brackets of a
text that is read are nested, so only what stands in comments can make the shell wait.

* `through`: the depth and the mode behind a piece of a text;
* `Token.WrittenAs.through`, `Nested.depth_eq`: what tokens do to them;
* `isComplete_of_parse`: **a text that is read is complete, unless its comments open more brackets
  than they close**, when none of them leaves a quote open;
* `waits_for_comment`: a text that is read, and for which the shell waits.
-/

import Mathlib.Algebra.Ring.Int.Defs
import MethodPatch.Proofs.Syntax.Nested
import MethodPatch.Shell.Repl

namespace MethodPatch

namespace Shell

/-! ### Reading by characters -/

/-- The depth and the mode behind one character. -/
def advance : Int × Mode → Char → Int × Mode
  | (depth, .escaped quote), _ => (depth, .literal quote)
  | (depth, .literal quote), c =>
    if c = '\\' then (depth, .escaped quote)
    else if c = quote then (depth, .plain)
    else (depth, .literal quote)
  | (depth, .plain), c =>
    if c = '"' ∨ c = '\'' then (depth, .literal c)
    else if c ∈ ['\x7b', '[', '('] then (depth + 1, .plain)
    else if c ∈ ['\x7d', ']', ')'] then (depth - 1, .plain)
    else (depth, .plain)

/-- The depth and the mode behind a piece of a text. -/
def through (state : Int × Mode) (text : List Char) : Int × Mode := text.foldl advance state

theorem through_append (state : Int × Mode) (first second : List Char) :
    through state (first ++ second) = through (through state first) second :=
  List.foldl_append

/-- A text is complete if it leaves no bracket open and ends outside of literals. -/
theorem closesFrom_iff (depth : Int) (mode : Mode) (text : List Char) :
    closesFrom depth mode text = true ↔
      (through (depth, mode) text).2 = .plain ∧ (through (depth, mode) text).1 ≤ 0 := by
  induction text generalizing depth mode with
  | nil => cases mode <;> simp [closesFrom, through]
  | cons c rest ih =>
    have step : closesFrom depth mode (c :: rest) =
        closesFrom (advance (depth, mode) c).1 (advance (depth, mode) c).2 rest := by
      cases mode with
      | plain =>
        simp only [closesFrom, advance]
        split
        · rfl
        · split
          · rfl
          · split <;> rfl
      | literal quote =>
        simp only [closesFrom, advance]
        split
        · rfl
        · split <;> rfl
      | escaped quote => rfl
    rw [step, ih]
    rfl

/-- The depth in front of a piece is added to the one behind it. -/
theorem through_depth (depth : Int) (mode : Mode) (text : List Char) :
    through (depth, mode) text = (depth + (through (0, mode) text).1, (through (0, mode) text).2) := by
  induction text generalizing depth mode with
  | nil => simp [through]
  | cons c rest ih =>
    have step : advance (depth, mode) c =
        (depth + (advance (0, mode) c).1, (advance (0, mode) c).2) := by
      cases mode with
      | plain =>
        simp only [advance]
        split
        · simp
        · split
          · simp
          · split <;> simp [Int.sub_eq_add_neg]
      | literal quote =>
        simp only [advance]
        split
        · simp
        · split <;> simp
      | escaped quote => simp [advance]
    show through (advance (depth, mode) c) rest =
      (depth + (through (advance (0, mode) c) rest).1, (through (advance (0, mode) c) rest).2)
    rw [step, ih, ih (advance (0, mode) c).1, Int.add_assoc]

/-! ### Characters that do not count -/

/-- The characters that count outside of literals. -/
def counting : List Char := ['"', '\'', '\x7b', '[', '(', '\x7d', ']', ')']

theorem through_of_not_counting {text : List Char} (none : ∀ c ∈ text, c ∉ counting) (depth : Int) :
    through (depth, .plain) text = (depth, .plain) := by
  induction text with
  | nil => rfl
  | cons c rest ih =>
    obtain ⟨noCount, behind⟩ := List.forall_mem_cons.mp none
    have stays : advance (depth, .plain) c = (depth, .plain) := by
      simp only [counting, List.mem_cons, List.not_mem_nil, or_false, not_or] at noCount
      simp only [advance, List.mem_cons, List.not_mem_nil, or_false]
      rw [if_neg (by simp [noCount]), if_neg (by simp [noCount]), if_neg (by simp [noCount])]
    show through (advance (depth, .plain) c) rest = (depth, .plain)
    rw [stays, ih behind]

/-- None of the characters that count is of a kind to which none of them belongs. -/
theorem not_counting_of {kind : Char → Bool} {c : Char} (isKind : kind c = true)
    (noneIs : counting.any kind = false) : c ∉ counting :=
  fun counts => List.any_eq_false.mp noneIs c counts isKind

/-- What is between two quotes ends in front of the second one. -/
theorem through_quoted {quote : Char} {body : List Char} (quoted : Quoted quote body) (depth : Int) :
    through (depth, .literal quote) body = (depth, .literal quote) := by
  induction quoted with
  | nil => rfl
  | @char c rest noQuote noBackslash behind ih =>
    have stays : advance (depth, .literal quote) c = (depth, .literal quote) := by
      simp only [advance]
      rw [if_neg noBackslash, if_neg noQuote]
    show through (advance (depth, .literal quote) c) rest = _
    rw [stays, ih]
  | escape behind ih => exact ih

/-- A literal leaves the depth and the mode as they were. -/
theorem through_literal {quote : Char} (isQuote : quote = '"' ∨ quote = '\'') {body : List Char}
    (quoted : Quoted quote body) (depth : Int) :
    through (depth, .plain) (quote :: (body ++ [quote])) = (depth, .plain) := by
  have opens : advance (depth, .plain) quote = (depth, .literal quote) := if_pos isQuote
  have closes : advance (depth, .literal quote) quote = (depth, .plain) := by
    rcases isQuote with rfl | rfl <;> rfl
  show through (advance (depth, .plain) quote) (body ++ [quote]) = _
  rw [opens, through_append, through_quoted quoted]
  exact closes

end Shell

/-! ### Tokens -/

/-- How many brackets more a punctuator opens than it closes. -/
def Punct.depth : Punct → Int
  | .lparen | .lbrace | .lbracket => 1
  | .rparen | .rbrace | .rbracket => -1
  | _ => 0

/-- How many brackets more a token opens than it closes. -/
def Token.depth : Token → Int
  | .punct mark => mark.depth
  | _ => 0

/-- How many brackets more tokens open than they close. -/
def depthOf (tokens : List Lexeme) : Int := (tokens.map fun lexeme => lexeme.token.depth).sum

theorem depthOf_cons (first : Lexeme) (rest : List Lexeme) :
    depthOf (first :: rest) = first.token.depth + depthOf rest := by
  rw [depthOf, List.map_cons, List.sum_cons]
  rfl

/-- Nested tokens close as many brackets as they open. -/
theorem Nested.depth_eq {tokens last : List Lexeme} (nested : Nested tokens last) :
    depthOf tokens = depthOf last := by
  induction nested with
  | nil => rfl
  | @plain lexeme rest last noBracket behind ih =>
    have flat : lexeme.token.depth = 0 := by
      obtain ⟨token, position⟩ := lexeme
      cases token with
      | punct mark => cases mark <;> first | rfl | cases noBracket
      | _ => rfl
    rw [depthOf_cons, flat, ih, Int.zero_add]
  | @wrapped left right first second inside rest last pair inner behind isInner isBehind =>
    have closes : left.depth + right.depth = 0 := by
      cases left <;> cases pair <;> rfl
    rw [depthOf_cons, isInner, depthOf_cons, isBehind]
    show left.depth + (right.depth + _) = _
    rw [← Int.add_assoc, closes, Int.zero_add]

/-- A token changes the depth by the brackets that it is, and closes the quotes that it opens. -/
theorem Token.WrittenAs.through {token : Token} {text : List Char} (written : token.WrittenAs text)
    (depth : Int) : Shell.through (depth, .plain) text = (depth + token.depth, .plain) := by
  rw [Shell.through_depth]
  cases written with
  | number isNumber all =>
    rw [Shell.through_of_not_counting fun c isIn => Shell.not_counting_of (all c isIn) (by decide)]
    cases token <;> first | rfl | cases isNumber
  | word isWord all =>
    rw [Shell.through_of_not_counting fun c isIn => Shell.not_counting_of (all c isIn) (by decide)]
    cases token <;> first | rfl | cases isWord
  | punct mark =>
    have alone : Shell.through (0, .plain) mark.spelling.toList = (mark.depth, .plain) := by
      cases mark <;> decide
    rw [alone]
    rfl
  | string value quoted =>
    rw [Shell.through_literal (.inl rfl) quoted]
    rfl
  | char unit quoted =>
    rw [Shell.through_literal (.inr rfl) quoted]
    rfl

/-! ### Gaps -/

namespace Shell

/-- How many brackets more the blanks and comments between tokens open than they close, as they are
read by characters. -/
def openedBy (gap : List Char) : Int := (through (0, .plain) gap).1

/-- Blanks and comments between tokens, as they are read by characters, close the quotes that they
open. -/
def ClosesQuotes (gap : List Char) : Prop := (through (0, .plain) gap).2 = .plain

/-- From gap to token and from token to gap the brackets add up. -/
theorem through_interleaved {gaps : List (List Char)} {tokens : List Lexeme} {text : List Char}
    (interleaved : Interleaved gaps tokens text) (close : ∀ gap ∈ gaps, ClosesQuotes gap)
    (depth : Int) :
    through (depth, .plain) text = (depth + ((gaps.map openedBy).sum + depthOf tokens), .plain) := by
  induction interleaved generalizing depth with
  | last gap =>
    have closes : (through (0, .plain) gap).2 = .plain := close gap List.mem_cons_self
    rw [through_depth, closes]
    simp [openedBy, depthOf]
  | @token gap lexeme chars rest gaps tokens written behind ih =>
    obtain ⟨closes, others⟩ := List.forall_mem_cons.mp close
    have isGap : through (depth, .plain) gap = (depth + openedBy gap, .plain) := by
      rw [through_depth, closes]
      rfl
    rw [through_append, isGap, through_append, written.through, ih others, depthOf_cons,
      List.map_cons, List.sum_cons]
    congr 1
    omega

theorem through_blanks {gap : List Char} (blank : ∀ c ∈ gap, isGap c = true) :
    through (0, .plain) gap = (0, .plain) :=
  through_of_not_counting (fun c isIn => not_counting_of (blank c isIn) (by decide)) 0

instance (gap : List Char) : Decidable (ClosesQuotes gap) :=
  inferInstanceAs (Decidable ((through (0, .plain) gap).2 = .plain))

/-! ### Texts that are read -/

/-- **When the shell waits for more lines of a text that is read.** If its comments close the quotes
that they open, it waits exactly when they open more brackets than they close. A text without comments
is complete. -/
theorem isComplete_of_parse {text : String} {statements : List Stmt}
    (parsed : (Stmt.parse text).1 = .ok statements) :
    ((∀ gap ∈ gaps text, ClosesQuotes gap) →
      (isComplete text = true ↔ ((gaps text).map openedBy).sum ≤ 0)) ∧
    ((∀ gap ∈ gaps text, ∀ c ∈ gap, isGap c = true) → isComplete text = true) := by
  obtain ⟨nested, position, ends⟩ := Stmt.parse_nested parsed
  have counted : (∀ gap ∈ gaps text, ClosesQuotes gap) →
      (isComplete text = true ↔ ((gaps text).map openedBy).sum ≤ 0) := by
    intro close
    rw [isComplete, closesFrom_iff, through_interleaved (lexemes_interleaved ends) close,
      nested.depth_eq]
    simp [depthOf]
  refine ⟨counted, fun blank => ?_⟩
  have none : ∀ gap ∈ gaps text, through (0, .plain) gap = (0, .plain) :=
    fun gap isGap => through_blanks (blank gap isGap)
  refine (counted fun gap isGap => ?_).mpr (Int.le_of_eq ?_)
  · rw [ClosesQuotes, none gap isGap]
  · have flat : (gaps text).map openedBy = (gaps text).map fun _ => 0 :=
      List.map_congr_left fun gap isGap => by rw [openedBy, none gap isGap]
    rw [flat, List.map_const', List.sum_replicate_int, Int.mul_zero]

/-- A text with brackets and quotes in its literals, and in a comment that closes what it opens. -/
def balancedText : String := "String s = \"(\\\"\"; // ('[')\nif (s == null) \x7b char c = '\\''; \x7d"

/-- A text with brackets and quotes in its literals alone. -/
def literalText : String := "String s = \"(\\\"\"; if (s == null) \x7b char c = '\\''; \x7d"

/-- The shell does not wait for more lines of either text. -/
theorem isComplete_of_parse_literals :
    isComplete balancedText = true ∧ isComplete literalText = true := by
  have readBalanced : (Stmt.parse balancedText).1.isOk = true := by decide +kernel
  have readLiteral : (Stmt.parse literalText).1.isOk = true := by decide +kernel
  have blank : ((gaps literalText).all fun gap => gap.all isGap) = true := by decide +kernel
  simp only [List.all_eq_true] at blank
  constructor
  · cases parsed : (Stmt.parse balancedText).1 with
    | error error =>
      rw [parsed] at readBalanced
      cases readBalanced
    | ok statements =>
      exact ((isComplete_of_parse parsed).1 (by decide +kernel)).mpr (by decide +kernel)
  · cases parsed : (Stmt.parse literalText).1 with
    | error error =>
      rw [parsed] at readLiteral
      cases readLiteral
    | ok statements => exact (isComplete_of_parse parsed).2 blank

/-- A text that is read, with an apostrophe in a comment. -/
def apostropheText : String := "int x = 1; // don't"

/-- A text that is read, with a bracket in a comment. -/
def bracketText : String := "int x = 1; /* ( */"

/-- **The shell waits for more lines of texts that are read**, whatever session it has. -/
theorem waits_for_comment :
    ((Stmt.parse apostropheText).1.isOk = true ∧ isComplete apostropheText = false) ∧
      ((Stmt.parse bracketText).1.isOk = true ∧ isComplete bracketText = false) ∧
      ∀ repl : Repl,
        repl.read apostropheText = ([], .more { repl with unfinished := some apostropheText }) ∧
        repl.read bracketText = ([], .more { repl with unfinished := some bracketText }) := by
  have apostrophe : (Stmt.parse apostropheText).1.isOk = true ∧ isComplete apostropheText = false := by
    decide +kernel
  have bracket : (Stmt.parse bracketText).1.isOk = true ∧ isComplete bracketText = false := by
    decide +kernel
  refine ⟨apostrophe, bracket, fun repl => ⟨?_, ?_⟩⟩
  · rw [Repl.read, apostrophe.2]
    rfl
  · rw [Repl.read, bracket.2]
    rfl

end Shell

end MethodPatch
