/-
**A lexer goes forward and ends.**

A scanner reads a character by taking it off what remains, so it reads none behind the end of the text
as long as it takes no more characters than there are. A lexer stands at a place of its text and has
what remains from there. Tokens may be looked at and taken, and the lexer may be saved and set back to
what was saved, also behind an error.

* `Scan.scanToken_le`: a scanner takes no more characters than there are;
* `Cursor.Within`: a cursor stands in a text;
* `Lexer.Request`, `Lexer.after`: a lexer of a text after some requests;
* `Lexer.Reads`: what a lexer gives when it is asked for one token after the other;
* `Lexer.reads_left`, `Lexer.reads_lexemes`: a lexer gives what it has left, a fresh one the lexemes of its
  text;
* `Lexer.goes_forward`: **a lexer stays in its text and every token ends behind its beginning**, so it
  comes to the end or to an error.
-/

import MethodPatch.Proofs.Descent.Tokens

namespace MethodPatch

/-! ### How much a scanner takes -/

namespace Scan

theorem length_digitRun_le (radix : Nat) (text : List Char) :
    (digitRun radix text).length ≤ text.length :=
  (List.takeWhile_prefix _).length_le

theorem scanRadix_le (radix : Nat) (text : List Char) : (scanRadix radix text).2 ≤ text.length := by
  have run := length_digitRun_le radix text
  unfold scanRadix
  dsimp only
  split
  · exact run
  · split
    · next behind =>
      have more := congrArg List.length behind
      rw [List.length_drop, List.length_cons] at more
      split
      · show (digitRun radix text).length + 1 ≤ text.length
        omega
      · exact run
    · exact run

theorem scanMantissa_le (first : Char) (text : List Char) :
    (scanMantissa first text).length ≤ text.length := by
  have run := length_digitRun_le 10 text
  unfold scanMantissa
  dsimp only
  split
  · exact run
  · split
    · next behind found =>
      have more := congrArg List.length found
      have fraction := length_digitRun_le 10 behind
      rw [List.length_drop, List.length_cons] at more
      split
      · exact run
      · show (digitRun 10 text).length + 1 + (digitRun 10 behind).length ≤ text.length
        omega
    · exact run

theorem scanExponent_le {text : List Char} {outcome : Except SyntaxFault Int} {length : Nat}
    (scanned : scanExponent text = some (outcome, length)) : length ≤ text.length := by
  unfold scanExponent at scanned
  split at scanned
  · cases scanned
  · next letter behind =>
    split at scanned
    · have sign : ((behind.take 1).filter fun c => c = '+' || c = '-').length ≤ behind.length :=
        (List.length_filter_le ..).trans (List.length_take_le' ..)
      have run := length_digitRun_le 10
        (behind.drop ((behind.take 1).filter fun c => c = '+' || c = '-').length)
      rw [List.length_drop] at run
      rw [List.length_cons]
      dsimp only at scanned
      split at scanned
      all_goals
        obtain ⟨-, rfl⟩ := Prod.mk.inj (Option.some.inj scanned)
        omega
    · cases scanned

/-- A suffix is one character, and there is one. -/
theorem decimalToken_le (mantissa : Mantissa) (exponent : Option Int) (text : List Char) :
    (if (decimalToken mantissa exponent text.head?).2 then 1 else 0) ≤ text.length := by
  cases text with
  | nil =>
    have noSuffix : (decimalToken mantissa exponent none).2 = false := by
      unfold decimalToken
      dsimp only
      split <;> rfl
    rw [List.head?_nil, noSuffix]
    exact Nat.le_refl 0
  | cons c rest =>
    rw [List.length_cons]
    split <;> omega

theorem scanDecimal_le (first : Char) (text : List Char) :
    (scanDecimal first text).2 ≤ text.length := by
  have mantissa := scanMantissa_le first text
  unfold scanDecimal
  dsimp only
  split
  · next fault length found =>
    have exponent := scanExponent_le found
    rw [List.length_drop] at exponent
    show (scanMantissa first text).length + length ≤ text.length
    omega
  · next value length found =>
    have exponent := scanExponent_le found
    have suffix := decimalToken_le (scanMantissa first text) (some value)
      ((text.drop (scanMantissa first text).length).drop length)
    rw [List.length_drop] at exponent
    rw [List.length_drop, List.length_drop] at suffix
    omega
  · have suffix := decimalToken_le (scanMantissa first text) none
      (text.drop (scanMantissa first text).length)
    rw [List.length_drop] at suffix
    omega

theorem scanNumber_le (first : Char) (text : List Char) : (scanNumber first text).2 ≤ text.length := by
  unfold scanNumber
  split
  · next radix announced =>
    obtain ⟨c, behind, rfl, -⟩ := announcedRadix?_numeral announced
    exact Nat.succ_le_succ (scanRadix_le radix behind)
  · exact scanDecimal_le first text

theorem scanEscape_le (text : List Char) : (scanEscape text).2 ≤ text.length := by
  unfold scanEscape
  split
  · exact Nat.le_refl 0
  · next c behind =>
    rw [List.length_cons]
    split
    · exact Nat.succ_le_succ (Nat.zero_le _)
    · split
      · have repeated : (behind.takeWhile (· = 'u')).length ≤ behind.length :=
          (List.takeWhile_prefix _).length_le
        have digits : (((behind.drop (behind.takeWhile (· = 'u')).length).take 4).takeWhile
            (Text.isDigitOf 16)).length ≤
              (behind.drop (behind.takeWhile (· = 'u')).length).length :=
          ((List.takeWhile_prefix _).trans (List.take_prefix ..)).length_le
        rw [List.length_drop] at digits
        dsimp only
        split <;> dsimp only <;> omega
      · split
        · have digits : ((behind.take (if c ≤ '3' then 2 else 1)).takeWhile
              (Text.isDigitOf 8)).length ≤ behind.length :=
            ((List.takeWhile_prefix _).trans (List.take_prefix ..)).length_le
          dsimp only
          omega
        · exact Nat.succ_le_succ (Nat.zero_le _)

theorem scanStringFrom_le (read : List Char) (taken : Nat) (text : List Char) :
    (scanStringFrom read taken text).2 ≤ taken + text.length := by
  fun_induction scanStringFrom read taken text with
  | case1 => exact Nat.le_add_right ..
  | case2 => exact Nat.le_add_right ..
  | case3 => simp
  | case4 read taken behind fault length escaped =>
    have within := scanEscape_le behind
    rw [escaped] at within
    rw [List.length_cons]
    show taken + 1 + length ≤ taken + (behind.length + 1)
    omega
  | case5 read taken behind unit length escaped =>
    have within := scanEscape_le behind
    rw [escaped] at within
    rw [List.length_cons]
    show taken + 1 + length ≤ taken + (behind.length + 1)
    omega
  | case6 read taken behind unit length escaped decoded found _ _ ih =>
    have within := scanEscape_le behind
    rw [escaped] at within
    rw [List.length_drop] at ih
    rw [List.length_cons]
    omega
  | case7 read taken c behind _ _ _ ih =>
    rw [List.length_cons]
    omega

theorem scanUnit_le (text : List Char) : (scanUnit text).2 ≤ text.length := by
  unfold scanUnit
  split
  · exact Nat.le_refl 0
  · next c behind =>
    split
    · exact Nat.zero_le _
    · split
      · exact Nat.succ_le_succ (scanEscape_le behind)
      · split <;> exact Nat.succ_le_succ (Nat.zero_le _)

theorem scanCharacter_le (text : List Char) : (scanCharacter text).2 ≤ text.length := by
  have unit := scanUnit_le text
  unfold scanCharacter
  split
  · next read =>
    rw [read] at unit
    exact unit
  · next value length read =>
    rw [read] at unit
    split
    · next ends =>
      have more : length < text.length := by
        rw [List.head?_drop] at ends
        exact (List.getElem?_eq_some_iff.mp ends).1
      exact more
    · exact unit

theorem punct?_le {first : Char} {text : List Char} {mark : Punct}
    (found : punct? (first :: text) = some mark) : mark.spelling.length - 1 ≤ text.length := by
  unfold punct? at found
  have isPrefix := List.find?_some found
  have within := (List.isPrefixOf_iff_prefix.mp isPrefix).length_le
  rw [String.length_toList, List.length_cons] at within
  omega

theorem scanBehind_le (first : Char) (text : List Char) : (scanBehind first text).2 ≤ text.length := by
  unfold scanBehind
  split
  · exact scanNumber_le first text
  · split
    · have within := scanStringFrom_le [] 0 text
      rw [Nat.zero_add] at within
      exact within
    · split
      · exact scanCharacter_le text
      · split
        · exact (List.takeWhile_prefix _).length_le
        · split
          · next found => exact punct?_le found
          · exact Nat.zero_le _

/-- **A scanner takes no more characters than there are**, whether it gives a token or a fault. -/
theorem scanToken_le (text : List Char) : (scanToken text).2 ≤ text.length := by
  cases text with
  | nil => exact Nat.le_refl 0
  | cons first behind => exact Nat.succ_le_succ (scanBehind_le first behind)

end Scan

/-! ### Where a cursor stands -/

namespace Cursor

variable {text : List Char} {cursor : Cursor}

/-- A cursor stands in a text: not behind its end, and what remains is the text from there on. -/
structure Within (text : List Char) (cursor : Cursor) : Prop where
  offset_le : cursor.position.offset ≤ text.length
  rest_eq : cursor.rest = text.drop cursor.position.offset

theorem Within.ofText (text : String) : (ofText text).Within text.toList :=
  ⟨Nat.zero_le _, rfl⟩

/-- What was read and what remains are the text. -/
theorem Within.covers (within : cursor.Within text) :
    cursor.position.offset + cursor.rest.length = text.length := by
  rw [within.rest_eq, List.length_drop, Nat.add_sub_cancel' within.offset_le]

theorem Within.of_suffix (isSuffix : cursor.rest <:+ text)
    (covers : cursor.position.offset + cursor.rest.length = text.length) : cursor.Within text := by
  have isDrop := List.suffix_iff_eq_drop.mp isSuffix
  rw [← covers, Nat.add_sub_cancel] at isDrop
  exact ⟨Nat.le.intro covers, isDrop⟩

theorem Within.isSuffix (within : cursor.Within text) : cursor.rest <:+ text := by
  rw [within.rest_eq]
  exact List.drop_suffix ..

theorem Within.forward (within : cursor.Within text) {count : Nat}
    (fits : count ≤ cursor.rest.length) : (cursor.forward count).Within text := by
  refine .of_suffix ((List.drop_suffix ..).trans within.isSuffix) ?_
  have covers := within.covers
  show cursor.position.offset + count + (cursor.rest.drop count).length = text.length
  rw [List.length_drop]
  omega

/-- Each character that is skipped is counted in the offset. -/
theorem skipFrom_offset (place : Place) (position : Position) (text : List Char) :
    (skipFrom place position text).2.position.offset + (skipFrom place position text).2.rest.length =
      position.offset + text.length := by
  fun_induction skipFrom place position text
  all_goals simp_all only [List.length_cons, Position.forward, Position.nextLine]
  all_goals omega

theorem Within.skip (within : cursor.Within text) : cursor.skip.2.Within text :=
  .of_suffix ((skipFrom_suffix ..).trans within.isSuffix) ((skipFrom_offset ..).trans within.covers)

/-- A comment that does not end goes on to the end of the text. -/
theorem skipFrom_unended {place : Place} {position start : Position} {text : List Char}
    (unended : (skipFrom place position text).1 = some start) :
    (skipFrom place position text).2.rest = [] := by
  fun_induction skipFrom place position text with
  | case1 => rfl
  | case17 => cases unended
  | _ => simp_all

theorem offset_le_skip (cursor : Cursor) :
    cursor.position.offset ≤ cursor.skip.2.position.offset := by
  have shorter := cursor.skip_length
  have same := skipFrom_offset .code cursor.position cursor.rest
  unfold Cursor.skip at shorter ⊢
  omega

end Cursor

/-! ### Lexers that are asked -/

namespace Lexer

variable {text : List Char} {lexer behind : Lexer} {token : Token}

/-- What can be asked of a lexer. A state that was saved may be restored more than once. -/
inductive Request where
  | next
  | peek
  | save
  | restore (index : Nat)

/-- A lexer and the states of it that were saved, the last one first. -/
structure Backtracker where
  lexer : Lexer
  saved : List Lexer

/-- What a request leaves. Where nothing was saved nothing is restored. -/
def Backtracker.serve (state : Backtracker) : Request → Backtracker
  | .next => { state with lexer := state.lexer.next.2 }
  | .peek => { state with lexer := state.lexer.peek.2 }
  | .save => { state with saved := state.lexer :: state.saved }
  | .restore index => { state with lexer := state.saved[index]?.getD state.lexer }

/-- The lexer of a text after some requests, whether or not they were answered with errors. -/
def after (text : String) (requests : List Request) : Lexer :=
  (requests.foldl Backtracker.serve ⟨ofText text, []⟩).lexer

/-- **What looking and taking keep true of a lexer is true after any requests**, since a state that is
restored was one before. -/
theorem after_induction {text : String} {holds : Lexer → Prop} (begins : holds (ofText text))
    (next : ∀ {lexer}, holds lexer → holds lexer.next.2)
    (peek : ∀ {lexer}, holds lexer → holds lexer.peek.2) (requests : List Request) :
    holds (after text requests) := by
  have all (requests : List Request) (state : Backtracker) (here : holds state.lexer)
      (saved : ∀ other ∈ state.saved, holds other) :
      holds (requests.foldl Backtracker.serve state).lexer := by
    induction requests generalizing state with
    | nil => exact here
    | cons request others ih =>
      rw [List.foldl_cons]
      cases request with
      | next => exact ih _ (next here) saved
      | peek => exact ih _ (peek here) saved
      | save => exact ih _ here (List.forall_mem_cons.mpr ⟨here, saved⟩)
      | restore index =>
        refine ih _ ?_ saved
        show holds (state.saved[index]?.getD state.lexer)
        rcases isSaved : state.saved[index]? with _ | other
        · exact here
        · exact saved other (List.mem_of_getElem? isSaved)
  exact all requests _ begins nofun

/-- All that a scan can do: it skips up to the end of a text that ends in a comment, or it reads a token
behind the blanks. -/
theorem scan_stops_or_reads (lexer : Lexer) :
    (lexer.cursor.skip.2.rest = [] ∧
      ∃ error, lexer.scan = (.error error, { lexer with cursor := lexer.cursor.skip.2 })) ∨
    lexer.scan = (lexer.cursor.skip.2.token.1,
      ⟨lexer.cursor.skip.2.forward (Scan.scanToken lexer.cursor.skip.2.rest).2, lexer.held,
        lexer.cursor.skip.2.position⟩) := by
  have unended (start : Position) (isSome : lexer.cursor.skip.1 = some start) :
      lexer.cursor.skip.2.rest = [] :=
    Cursor.skipFrom_unended isSome
  unfold scan
  generalize lexer.cursor.skip = skipped at unended ⊢
  rcases skipped with ⟨_ | start, cursor⟩
  · exact .inr rfl
  · exact .inl ⟨unended start rfl, _, rfl⟩

/-- A scan stays in the text. -/
theorem scan_within (within : lexer.cursor.Within text) : lexer.scan.2.cursor.Within text := by
  rcases scan_stops_or_reads lexer with ⟨-, error, isError⟩ | isToken
  · rw [isError]
    exact within.skip
  · rw [isToken]
    exact within.skip.forward (Scan.scanToken_le _)

/-- A token begins behind what was read before it, and it ends behind its beginning. -/
theorem scan_ok (scanned : lexer.scan = (.ok token, behind)) :
    lexer.cursor.position.offset ≤ behind.tokenPosition.offset ∧
      behind.tokenPosition.offset ≤ behind.cursor.position.offset ∧
      (token ≠ .endOfInput → behind.tokenPosition.offset < behind.cursor.position.offset) := by
  rcases scan_stops_or_reads lexer with ⟨-, error, isError⟩ | isToken
  · rw [isError] at scanned
    cases scanned
  · rw [isToken] at scanned
    obtain ⟨found, rfl⟩ := Prod.mk.inj scanned
    refine ⟨lexer.cursor.offset_le_skip, Nat.le_add_right .., fun isToken => ?_⟩
    have more : lexer.cursor.skip.2.rest ≠ [] := by
      intro isEmpty
      rw [Cursor.token, isEmpty] at found
      exact isToken (Except.ok.inj found).symm
    exact Nat.lt_add_of_pos_right (Scan.scanToken_pos more)

/-- What is true of a lexer whatever it was asked for: it stands in its text, behind the beginning of
the last token, and a token that is held has been read. -/
structure Sound (text : List Char) (lexer : Lexer) : Prop where
  within : lexer.cursor.Within text
  begun : lexer.tokenPosition.offset ≤ lexer.cursor.position.offset
  ahead : ∀ token ∈ lexer.held, token ≠ .endOfInput →
    lexer.tokenPosition.offset < lexer.cursor.position.offset

theorem Sound.ofText (text : String) : (ofText text).Sound text.toList :=
  ⟨.ofText text, Nat.le_refl _, nofun⟩

theorem scan_held (lexer : Lexer) : lexer.scan.2.held = lexer.held := by
  rcases scan_stops_or_reads lexer with ⟨-, error, isError⟩ | isToken
  · rw [isError]
  · rw [isToken]

theorem Sound.scan (sound : lexer.Sound text) (nothing : lexer.held = none) :
    lexer.scan.2.Sound text := by
  refine ⟨scan_within sound.within, ?_, by rw [scan_held, nothing]; nofun⟩
  rcases scan_stops_or_reads lexer with ⟨-, error, isError⟩ | isToken
  · rw [isError]
    exact sound.begun.trans lexer.cursor.offset_le_skip
  · rw [isToken]
    exact Nat.le_add_right ..

theorem Sound.next (sound : lexer.Sound text) : lexer.next.2.Sound text := by
  unfold Lexer.next
  split
  · exact ⟨sound.within, sound.begun, nofun⟩
  · next nothing => exact sound.scan nothing

/-- A token that is given has been read, whether it was held or not. -/
theorem Sound.ahead_of_next (sound : lexer.Sound text) (taken : lexer.next = (.ok token, behind))
    (isToken : token ≠ .endOfInput) :
    behind.tokenPosition.offset < behind.cursor.position.offset := by
  unfold Lexer.next at taken
  split at taken
  · next held isHeld =>
    cases taken
    exact sound.ahead _ isHeld isToken
  · exact (scan_ok taken).2.2 isToken

theorem Sound.peek (sound : lexer.Sound text) : lexer.peek.2.Sound text := by
  have next := sound.next
  unfold Lexer.peek
  split
  · next token behind taken =>
    rw [taken] at next
    refine ⟨next.within, next.begun, ?_⟩
    rintro _ ⟨⟩ isToken
    have ahead := sound.ahead_of_next taken isToken
    exact ahead
  · next error behind taken =>
    rw [taken] at next
    exact next

theorem Sound.after (text : String) (requests : List Request) :
    (after text requests).Sound text.toList :=
  after_induction (.ofText text) Sound.next Sound.peek requests

/-! ### Lexers that are asked again and again -/

/-- What a lexer gives when it is asked for one token after the other: lexemes, and at last the place
of the end of the text, or an error. It is asked once more than it gives lexemes. -/
inductive Reads : Lexer → List Lexeme → Except SourceError Position → Prop
  | ends {lexer behind : Lexer} (taken : lexer.next = (.ok .endOfInput, behind)) :
    Reads lexer [] (.ok behind.tokenPosition)
  | fails {lexer behind : Lexer} {error : SourceError} (taken : lexer.next = (.error error, behind)) :
    Reads lexer [] (.error error)
  | token {lexer behind : Lexer} {token : Token} {items : List Lexeme}
    {finish : Except SourceError Position} (taken : lexer.next = (.ok token, behind))
    (isToken : token ≠ .endOfInput) (others : Reads behind items finish) :
    Reads lexer (⟨token, behind.tokenPosition⟩ :: items) finish

/-- The offsets at which tokens begin, and that of the end, if it is reached. -/
def offsets (items : List Lexeme) (finish : Except SourceError Position) : List Nat :=
  items.map (·.position.offset) ++ (finish.toOption.map Position.offset).toList

theorem offsets_cons (lexeme : Lexeme) (items : List Lexeme) (finish : Except SourceError Position) :
    offsets (lexeme :: items) finish = lexeme.position.offset :: offsets items finish :=
  rfl

/-- A token in front of others that begin behind it. -/
theorem pairwise_offsets_cons {items : List Lexeme} {finish : Except SourceError Position}
    {lexeme : Lexeme} {least : Nat} (first : lexeme.position.offset < least)
    (behind : ∀ offset ∈ offsets items finish, least ≤ offset)
    (others : (offsets items finish).Pairwise (· < ·)) :
    (offsets (lexeme :: items) finish).Pairwise (· < ·) := by
  rw [offsets_cons]
  exact .cons (fun offset isIn => Nat.lt_of_lt_of_le first (behind offset isIn)) others

/-- A lexer gives what it has left, and so it comes to the end or to an error. -/
theorem reads_left (lexer : Lexer) : lexer.Reads lexer.left.items lexer.left.finish := by
  generalize isLeft : lexer.left = left
  obtain ⟨items, finish⟩ := left
  induction items generalizing lexer with
  | nil =>
    cases finish with
    | ok position =>
      obtain ⟨behind, taken, rfl⟩ := next_end isLeft
      exact .ends taken
    | error error =>
      obtain ⟨behind, taken⟩ := next_fault isLeft
      exact .fails taken
  | cons lexeme rest ih =>
    obtain ⟨token, position⟩ := lexeme
    obtain ⟨behind, taken, -, rfl, isRest, isToken⟩ := next_token isLeft
    exact .token taken isToken (ih behind isRest)

/-- **A fresh lexer gives the lexemes of its text.** -/
theorem reads_lexemes (text : String) :
    (ofText text).Reads (lexemes text).items (lexemes text).finish :=
  reads_left (ofText text)

theorem next_of_nothing (nothing : lexer.held = none) : lexer.next = lexer.scan := by
  rw [next, nothing]

/-- A lexer that holds no token gives at most one for each character that remains, each behind the one
before it. -/
theorem Reads.ascends {items : List Lexeme} {finish : Except SourceError Position}
    (reads : lexer.Reads items finish) (within : lexer.cursor.Within text)
    (nothing : lexer.held = none) :
    items.length ≤ lexer.cursor.rest.length ∧
      (∀ offset ∈ offsets items finish, lexer.cursor.position.offset ≤ offset) ∧
      (offsets items finish).Pairwise (· < ·) := by
  induction reads with
  | ends taken =>
    obtain ⟨begins, -, -⟩ := scan_ok ((next_of_nothing nothing).symm.trans taken)
    refine ⟨Nat.zero_le _, fun offset isIn => ?_, List.pairwise_singleton ..⟩
    rw [List.mem_singleton.mp isIn]
    exact begins
  | fails taken => exact ⟨Nat.zero_le _, nofun, .nil⟩
  | @token lexer behind token items finish taken isToken others ih =>
    have scanned := (next_of_nothing nothing).symm.trans taken
    obtain ⟨begins, -, ahead⟩ := scan_ok scanned
    have isAhead := ahead isToken
    have inside := scan_within within
    have noneHeld := scan_held lexer
    rw [scanned] at inside noneHeld
    obtain ⟨few, least, ascends⟩ := ih inside (noneHeld.trans nothing)
    refine ⟨?_, ?_, pairwise_offsets_cons isAhead least ascends⟩
    · have covers := within.covers
      have covered := inside.covers
      rw [List.length_cons]
      dsimp only at covered
      omega
    · rw [offsets_cons]
      refine List.forall_mem_cons.mpr ⟨begins, fun offset isIn => ?_⟩
      have further := least offset isIn
      omega

/-- No token that a lexer gives begins before the one in front of it ends, also where one was held. -/
theorem Sound.reads_ascend {items : List Lexeme} {finish : Except SourceError Position}
    (sound : lexer.Sound text) (reads : lexer.Reads items finish) :
    items.length ≤ text.length ∧ (offsets items finish).Pairwise (· < ·) := by
  have covers := sound.within.covers
  rcases isHeld : lexer.held with _ | held
  · obtain ⟨few, -, ascends⟩ := reads.ascends sound.within isHeld
    exact ⟨by omega, ascends⟩
  · have given : lexer.next = (.ok held, { lexer with held := none }) := by
      rw [Lexer.next, isHeld]
    cases reads with
    | ends taken => exact ⟨Nat.zero_le _, List.pairwise_singleton ..⟩
    | fails taken => exact ⟨Nat.zero_le _, .nil⟩
    | token taken isToken others =>
      cases given.symm.trans taken
      have ahead := sound.ahead held isHeld isToken
      obtain ⟨few, least, ascends⟩ := others.ascends sound.within rfl
      refine ⟨?_, pairwise_offsets_cons ahead least ascends⟩
      rw [List.length_cons]
      dsimp only at few
      omega

/-- **A lexer goes forward and ends**, whatever was asked of it before. It stands in its text, and has
what remains from there. It scans no more characters than remain, and stands in its text again behind
a token and behind an error. A token begins where the lexer stood or behind that, and but for the end of
the text it ends behind its beginning. So the lexer gives at most one token for each character of the
text, one behind the other, before it comes to the end or to an error. -/
theorem goes_forward (text : String) (requests : List Request) :
    let lexer := after text requests
    lexer.cursor.Within text.toList ∧
      (Scan.scanToken lexer.cursor.skip.2.rest).2 ≤ lexer.cursor.skip.2.rest.length ∧
      lexer.scan.2.cursor.Within text.toList ∧
      (∀ token behind, lexer.scan = (.ok token, behind) →
        lexer.cursor.position.offset ≤ behind.tokenPosition.offset ∧
          (token ≠ .endOfInput → behind.tokenPosition.offset < behind.cursor.position.offset)) ∧
      ∃ items finish, lexer.Reads items finish ∧ items.length ≤ text.toList.length ∧
        (offsets items finish).Pairwise (· < ·) := by
  intro lexer
  have sound : lexer.Sound text.toList := .after text requests
  refine ⟨sound.within, Scan.scanToken_le _, scan_within sound.within, ?_, _, _, reads_left lexer,
    sound.reads_ascend (reads_left lexer)⟩
  intro token behind scanned
  obtain ⟨begins, -, ahead⟩ := scan_ok scanned
  exact ⟨begins, ahead⟩

end Lexer

end MethodPatch
