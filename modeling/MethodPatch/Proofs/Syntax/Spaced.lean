/-
**Tokens with a space between every two of them.**

A lexer is asked for one token after the other until the text ends. Where spellings stand with a space
between every two of them, no token goes on with what is behind it and none begins a comment, so the
lexer gives back the tokens that were spelled. Each of them begins where its spelling does, behind the
spellings and the spaces in front of it.

* `Token.SpelledAs`: the ways to spell a token;
* `Lexer.Gives`: what a lexer gives when it is asked again and again;
* `Lexer.next_spelled`: one token in front of a space or of the end;
* `Lexer.gives_spaced`: **what is spelled is read**, each token at the place of its spelling.
-/

import MethodPatch.Proofs.Syntax.Spelling

namespace MethodPatch

/-! ### Spellings -/

/-- A token can be spelled with some characters. The digits of a code unit may be small or capital
letters, as they come. -/
inductive Token.SpelledAs : Token → List Char → Prop
  | spelling {token : Token} (spelled : token.isSpelled = true) : SpelledAs token token.spelling
  | unit {unit : Text.Unit16} {digits : List Char} (four : digits.length = 4)
    (hex : ∀ c ∈ digits, Text.isDigitOf 16 c = true)
    (value : Text.ofDigits 16 (digits.map Text.digitValue) = unit.toNat) :
    SpelledAs (.char unit) ('\'' :: '\\' :: 'u' :: (digits ++ ['\'']))

namespace Token.SpelledAs

variable {token : Token} {text rest : List Char}

theorem ne_endOfInput (spelled : token.SpelledAs text) : token ≠ .endOfInput := by
  rintro rfl
  cases spelled with
  | spelling spelled => cases spelled

/-- A token is read from its spelling in front of a space or of the end of the text. -/
theorem scanned (spelled : token.SpelledAs text) (ends : ∀ c ∈ rest.head?, c = ' ') :
    Scan.scanToken (text ++ rest) = (.ok token, text.length) := by
  cases spelled with
  | spelling spelled =>
    refine Scan.scanToken_spelling spelled fun c isHead => ?_
    rw [ends c isHead]
    exact Token.joins_space spelled
  | unit four hex value =>
    have read := Scan.scanToken_char four hex value rest
    rw [List.cons_append, List.cons_append, List.cons_append, List.append_assoc]
    simpa [four] using read

/-- Nothing is skipped at the beginning of a spelling. -/
theorem fronts (spelled : token.SpelledAs text) (ends : ∀ c ∈ rest.head?, c = ' ') :
    ∃ first others, text = first :: others ∧ Fronts first (others ++ rest) := by
  cases spelled with
  | spelling spelled =>
    refine Token.spelling_fronts spelled fun c isHead => ?_
    rw [ends c isHead]
    exact Token.joins_space spelled
  | unit => exact ⟨_, _, rfl, fronts_of_ne (by decide) (by decide) _⟩

end Token.SpelledAs

/-- Spellings with a space between every two of them. -/
def spacedOut (words : List (Token × List Char)) : List Char :=
  [' '].intercalate (words.map Prod.snd)

theorem spacedOut_cons_cons (word second : Token × List Char) (more : List (Token × List Char)) :
    spacedOut (word :: second :: more) = word.2 ++ ' ' :: spacedOut (second :: more) := by
  simp [spacedOut, List.intercalate]

/-- The tokens of spellings with a space between every two of them, from an offset of the first line
on. -/
def lineUp (offset : Nat) : List (Token × List Char) → List Lexeme
  | [] => []
  | (token, text) :: rest =>
    ⟨token, Position.start.forward offset⟩ :: lineUp (offset + (text.length + 1)) rest

theorem tokens_lineUp (offset : Nat) (words : List (Token × List Char)) :
    (lineUp offset words).map Lexeme.token = words.map Prod.fst := by
  induction words generalizing offset with
  | nil => rfl
  | cons word rest ih => rw [lineUp, List.map_cons, List.map_cons, ih]

/-- A token begins behind the spellings in front of it and the spaces behind each of them. -/
theorem lineUp_append (offset : Nat) (front words : List (Token × List Char)) :
    lineUp offset (front ++ words) = lineUp offset front ++
      lineUp (offset + (front.flatMap fun word => word.2 ++ [' ']).length) words := by
  induction front generalizing offset with
  | nil => rfl
  | cons word rest ih =>
    rw [List.cons_append, lineUp, ih, lineUp, List.cons_append, List.flatMap_cons,
      List.length_append, List.length_append, Nat.add_assoc offset]
    rfl

theorem length_lineUp (offset : Nat) (words : List (Token × List Char)) :
    (lineUp offset words).length = words.length := by
  rw [← List.length_map Lexeme.token, tokens_lineUp, List.length_map]

theorem spacedOut_append {front words : List (Token × List Char)} (more : words ≠ []) :
    spacedOut (front ++ words) =
      (front.flatMap fun word => word.2 ++ [' ']) ++ spacedOut words := by
  induction front with
  | nil => rfl
  | cons word rest ih =>
    obtain ⟨second, others, split⟩ :=
      List.exists_cons_of_ne_nil (List.append_ne_nil_of_right_ne_nil rest more)
    rw [List.cons_append, split, spacedOut_cons_cons, ← split, ih]
    simp

/-! ### Lexers -/

theorem Position.forward_forward (position : Position) (first second : Nat) :
    (position.forward first).forward second = position.forward (first + second) := by
  simp [forward, Nat.add_assoc]

theorem Position.offset_forward_start (count : Nat) : (Position.start.forward count).offset = count :=
  Nat.zero_add count

namespace Lexer

/-- What a lexer gives when it is asked for one token after the other: lexemes, and then the end of the
text at a place. -/
inductive Gives : Lexer → List Lexeme → Position → Prop
  | last {lexer behind : Lexer} (taken : lexer.next = (.ok .endOfInput, behind)) :
    Gives lexer [] behind.tokenPosition
  | token {lexer behind : Lexer} {token : Token} {items : List Lexeme} {finish : Position}
    (taken : lexer.next = (.ok token, behind)) (isToken : token ≠ .endOfInput)
    (others : Gives behind items finish) :
    Gives lexer (⟨token, behind.tokenPosition⟩ :: items) finish

variable {lexer : Lexer} {position : Position}

/-- A lexer takes a token from its spelling. -/
theorem next_spelled {token : Token} {text rest : List Char} (holds : lexer.held = none)
    (spelled : token.SpelledAs text) (ends : ∀ c ∈ rest.head?, c = ' ')
    (here : lexer.cursor.skip = Cursor.skip ⟨position, text ++ rest⟩) :
    lexer.next = (.ok token, ⟨⟨position.forward text.length, rest⟩, none, position⟩) := by
  obtain ⟨first, others, split, fronts⟩ := spelled.fronts ends
  have skipped : lexer.cursor.skip = (none, ⟨position, text ++ rest⟩) := by
    rw [here, split, List.cons_append]
    exact Cursor.skipFrom_stop fronts.noBlank fronts.noComment position
  have read : Cursor.token ⟨position, text ++ rest⟩ =
      (.ok token, ⟨position.forward text.length, rest⟩) := by
    rw [Cursor.token, spelled.scanned ends]
    dsimp only [Cursor.forward]
    rw [List.drop_left]
    rfl
  simp only [next, scan, holds, skipped, read]

theorem next_nothing (holds : lexer.held = none)
    (here : lexer.cursor.skip = Cursor.skip ⟨position, []⟩) :
    lexer.next = (.ok .endOfInput, ⟨⟨position, []⟩, none, position⟩) := by
  have skipped : lexer.cursor.skip = (none, ⟨position, []⟩) := by
    rw [here, Cursor.skip, Cursor.skipFrom] <;> simp
  have read : Cursor.token ⟨position, []⟩ = (.ok .endOfInput, ⟨position, []⟩) := rfl
  simp only [next, scan, holds, skipped, read]

/-- The tokens are given one after the other; a space in front of each is skipped. -/
theorem gives_lineUp {words : List (Token × List Char)}
    (spelled : ∀ word ∈ words, word.1.SpelledAs word.2) {offset : Nat} (holds : lexer.held = none)
    (here : lexer.cursor.skip = Cursor.skip ⟨Position.start.forward offset, spacedOut words⟩) :
    lexer.Gives (lineUp offset words)
      (Position.start.forward (offset + (spacedOut words).length)) := by
  induction words generalizing lexer offset with
  | nil => exact .last (next_nothing holds here)
  | cons word rest ih =>
    obtain ⟨isSpelled, others⟩ := List.forall_mem_cons.mp spelled
    cases rest with
    | nil =>
      have isLast : spacedOut [word] = word.2 ++ [] := by simp [spacedOut, List.intercalate]
      rw [isLast] at here ⊢
      rw [List.append_nil, ← Position.forward_forward]
      have taken := next_spelled holds isSpelled (fun c isHead => by cases isHead) here
      exact .token taken isSpelled.ne_endOfInput (.last (next_nothing rfl rfl))
    | cons second more =>
      rw [spacedOut_cons_cons] at here ⊢
      have space : ∀ c ∈ (' ' :: spacedOut (second :: more)).head?, c = ' ' := by
        rintro c ⟨⟩
        rfl
      have taken := next_spelled holds isSpelled space here
      refine .token taken isSpelled.ne_endOfInput ?_
      have behind : offset + (word.2 ++ ' ' :: spacedOut (second :: more)).length =
          offset + (word.2.length + 1) + (spacedOut (second :: more)).length := by
        rw [List.length_append, List.length_cons]
        omega
      rw [behind]
      refine ih others rfl ?_
      rw [← Position.forward_forward, ← Position.forward_forward]
      dsimp only [Cursor.skip]
      rw [Cursor.skipFrom]

/-- **What is spelled is read.** A lexer of spellings with a space between every two of them gives their
tokens in order, and then the end of the text. Each token begins where its spelling does: behind the
spellings in front of it and one space behind each of them. -/
theorem gives_spaced {words : List (Token × List Char)}
    (spelled : ∀ word ∈ words, word.1.SpelledAs word.2) :
    ∃ items, (ofText (String.ofList (spacedOut words))).Gives items
        (Position.start.forward (spacedOut words).length) ∧
      items.map Lexeme.token = words.map Prod.fst ∧
      ∀ front word behind, words = front ++ word :: behind →
        ∃ lexeme, items[front.length]? = some lexeme ∧
          lexeme.position.offset = (front.flatMap fun other => other.2 ++ [' ']).length ∧
          word.2 <+: (spacedOut words).drop lexeme.position.offset := by
  refine ⟨lineUp 0 words, ?_, tokens_lineUp 0 words, fun front word behind split => ?_⟩
  · have begins : (ofText (String.ofList (spacedOut words))).cursor.skip =
        Cursor.skip ⟨Position.start.forward 0, spacedOut words⟩ := by
      rw [ofText, Cursor.ofText, String.toList_ofList]
      rfl
    have given := gives_lineUp spelled rfl begins
    rwa [Nat.zero_add] at given
  · subst split
    have behindFront : (lineUp 0 (front ++ word :: behind))[front.length]? =
        (lineUp (front.flatMap fun other => other.2 ++ [' ']).length (word :: behind))[0]? := by
      rw [lineUp_append, List.getElem?_append_right (Nat.le_of_eq (length_lineUp ..)),
        length_lineUp, Nat.sub_self, Nat.zero_add]
    refine ⟨_, behindFront, Position.offset_forward_start _, ?_⟩
    rw [Position.offset_forward_start, spacedOut_append (List.cons_ne_nil word behind),
      List.drop_left]
    cases behind with
    | nil => exact ⟨[], by simp [spacedOut, List.intercalate]⟩
    | cons second more => exact ⟨_, (spacedOut_cons_cons ..).symm⟩

/-- Marks that could be one longer mark, a comment or a number, numbers that are one too large for their
types, half of a surrogate pair, and a text with all that is escaped in it. -/
def crowded : List (Token × List Char) :=
  [(.punct .gt, ['>']), (.punct .gtGtEq, ['>', '>', '=']), (.punct .slash, ['/']),
    (.punct .slash, ['/']), (.punct .dot, ['.']), (.int 2147483648, "2147483648".toList),
    (.name "größe", "größe".toList), (.keyword .int, "int".toList),
    (.long 9223372036854775808, "9223372036854775808L".toList),
    (.char 0xD83D, '\'' :: '\\' :: 'u' :: ("D83d".toList ++ ['\''])),
    (.string "a\"\\\n\r/*", "\"a\\\"\\\\\\n\\r/*\"".toList)]

theorem gives_spaced_crowded : (∀ word ∈ crowded, word.1.SpelledAs word.2) ∧
    ∃ items, (ofText (String.ofList (spacedOut crowded))).Gives items ⟨1, 77, 76⟩ ∧
      items.map Lexeme.token = crowded.map Prod.fst ∧
      ∃ lexeme, items[8]? = some lexeme ∧ lexeme.position.offset = 33 := by
  have spelled : ∀ word ∈ crowded, word.1.SpelledAs word.2 := by
    simp only [crowded, List.forall_mem_cons]
    refine ⟨.spelling rfl, .spelling rfl, .spelling rfl, .spelling rfl, .spelling rfl, .spelling rfl,
      .spelling ?_, .spelling rfl, .spelling rfl, .unit rfl (List.all_eq_true.mp rfl) rfl, .spelling rfl,
      nofun⟩
    decide
  obtain ⟨items, given, tokens, places⟩ := gives_spaced spelled
  obtain ⟨lexeme, found, offset, _⟩ := places (crowded.take 8) _ (crowded.drop 9) rfl
  exact ⟨spelled, items, given, tokens, lexeme, found, offset⟩

end Lexer

end MethodPatch
