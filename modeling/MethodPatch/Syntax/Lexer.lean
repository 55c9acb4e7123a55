/-
**The tokens of a text and their places.**

A cursor stands somewhere in a text and knows its line and column. Reading a token skips blanks and
comments and leaves the cursor behind the token. A `Lexer` also keeps one token that was looked at
and not yet taken.

* `Cursor.skip_length`: skipping blanks never lengthens what remains;
* `lexemes`: the tokens of a whole text, up to its end or to the first fault.
-/

import MethodPatch.Source.SourceError
import MethodPatch.Syntax.Scan

namespace MethodPatch

/-- A place in a text and what remains from there. -/
structure Cursor where
  position : Position
  rest : List Char
  deriving DecidableEq

/-- The place some characters further on in the same line. -/
def Position.forward (position : Position) (count : Nat) : Position :=
  { position with column := position.column + count, offset := position.offset + count }

/-- The beginning of the next line, behind a line end of some characters. -/
def Position.nextLine (position : Position) (count : Nat) : Position :=
  ⟨position.line + 1, 1, position.offset + count⟩

namespace Cursor

/-- The beginning of a text. -/
def ofText (text : String) : Cursor := ⟨.start, text.toList⟩

/-- The cursor some characters further on in the same line. -/
def forward (cursor : Cursor) (count : Nat) : Cursor :=
  ⟨cursor.position.forward count, cursor.rest.drop count⟩

/-- Where a cursor stands among blanks and comments. -/
inductive Place where
  | code
  | lineComment
  | blockComment (start : Position)

/-- The cursor behind blanks and comments, and the place of a comment that does not end. A line ends
with a line feed, a carriage return or both; within a comment in stars only line feeds count. -/
def skipFrom : Place → Position → List Char → Option Position × Cursor
  | .blockComment start, position, [] => (some start, ⟨position, []⟩)
  | .blockComment _, position, '*' :: '/' :: rest => skipFrom .code (position.forward 2) rest
  | .blockComment start, position, '\n' :: rest =>
    skipFrom (.blockComment start) (position.nextLine 1) rest
  | .blockComment start, position, _ :: rest =>
    skipFrom (.blockComment start) (position.forward 1) rest
  | .lineComment, position, '\n' :: rest => skipFrom .code (position.nextLine 1) rest
  | .lineComment, position, '\r' :: '\n' :: rest => skipFrom .code (position.nextLine 2) rest
  | .lineComment, position, '\r' :: rest => skipFrom .code (position.nextLine 1) rest
  | .lineComment, position, _ :: rest => skipFrom .lineComment (position.forward 1) rest
  | .code, position, '\n' :: rest => skipFrom .code (position.nextLine 1) rest
  | .code, position, '\r' :: '\n' :: rest => skipFrom .code (position.nextLine 2) rest
  | .code, position, '\r' :: rest => skipFrom .code (position.nextLine 1) rest
  | .code, position, ' ' :: rest => skipFrom .code (position.forward 1) rest
  | .code, position, '\t' :: rest => skipFrom .code (position.forward 1) rest
  | .code, position, '\x0c' :: rest => skipFrom .code (position.forward 1) rest
  | .code, position, '/' :: '/' :: rest => skipFrom .lineComment (position.forward 2) rest
  | .code, position, '/' :: '*' :: rest =>
    skipFrom (.blockComment position) (position.forward 2) rest
  | _, position, text => (none, ⟨position, text⟩)

/-- The cursor behind blanks and comments, and the place of a comment that does not end. -/
def skip (cursor : Cursor) : Option Position × Cursor := skipFrom .code cursor.position cursor.rest

theorem skipFrom_length (place : Place) (position : Position) (text : List Char) :
    (skipFrom place position text).2.rest.length ≤ text.length := by
  fun_induction skipFrom place position text <;> simp_all <;> omega

theorem skip_length (cursor : Cursor) : cursor.skip.2.rest.length ≤ cursor.rest.length :=
  skipFrom_length _ _ _

end Cursor

/-- A token and the place it begins at. -/
structure Lexeme where
  token : Token
  position : Position
  deriving DecidableEq

/-- The place of a fault in a token: where the token begins, but a bad escape is where it stops. -/
def SyntaxFault.place (fault : SyntaxFault) (start : Position) (length : Nat) : Position :=
  match fault with
  | .badUnicodeEscape => start.forward length
  | _ => start

/-- The token at a cursor that stands behind the blanks, and the cursor behind the token. -/
def Cursor.token (cursor : Cursor) : Except SourceError Token × Cursor :=
  let (token, length) := Scan.scanToken cursor.rest
  (token.mapError fun fault => malformed fault (some (fault.place cursor.position length)),
    cursor.forward length)

/-- A text being read token by token. -/
structure Lexer where
  cursor : Cursor
  held : Option Token
  tokenPosition : Position
  deriving DecidableEq

namespace Lexer

/-- The beginning of a text. -/
def ofText (text : String) : Lexer := ⟨.ofText text, none, .start⟩

/-- One token from the text, whatever is held. -/
def scan (lexer : Lexer) : Except SourceError Token × Lexer :=
  match lexer.cursor.skip with
  | (some start, cursor) =>
    (.error (malformed .unterminatedComment (some start)), { lexer with cursor })
  | (none, cursor) =>
    let (token, behind) := cursor.token
    (token, { lexer with cursor := behind, tokenPosition := cursor.position })

/-- The next token, which is taken. -/
def next (lexer : Lexer) : Except SourceError Token × Lexer :=
  match lexer.held with
  | some token => (.ok token, { lexer with held := none })
  | none => lexer.scan

/-- The next token, which stays. -/
def peek (lexer : Lexer) : Except SourceError Token × Lexer :=
  match lexer.next with
  | (.ok token, behind) => (.ok token, { behind with held := some token })
  | (.error error, behind) => (.error error, behind)

end Lexer

/-- The tokens of a text before its end, and the place of the end or the fault that hides it. -/
structure Lexemes where
  items : List Lexeme
  finish : Except SourceError Position

/-- The tokens from a cursor on; `read` holds those before it in reverse. -/
def Cursor.lexemesFrom (read : List Lexeme) (cursor : Cursor) : Lexemes :=
  match _skipped : cursor.skip with
  | (some start, _) =>
    ⟨read.reverse, .error (malformed .unterminatedComment (some start))⟩
  | (none, ⟨position, []⟩) => ⟨read.reverse, .ok position⟩
  | (none, ⟨position, c :: rest⟩) =>
    match _scanned : Scan.scanToken (c :: rest) with
    | (.error fault, length) =>
      ⟨read.reverse, .error (malformed fault (some (fault.place position length)))⟩
    | (.ok token, length) =>
      lexemesFrom (⟨token, position⟩ :: read)
        ((⟨position, c :: rest⟩ : Cursor).forward length)
termination_by cursor.rest.length
decreasing_by
  have shorter := cursor.skip_length
  have longer := Scan.scanToken_pos (List.cons_ne_nil c rest)
  rw [_skipped] at shorter
  rw [_scanned] at longer
  simp only [forward, List.length_drop, List.length_cons] at *
  omega

/-- The tokens of a text. -/
def lexemes (text : String) : Lexemes := (Cursor.ofText text).lexemesFrom []

end MethodPatch
