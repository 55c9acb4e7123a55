/-
**What a lexer has left.**

A lexer stands somewhere in a text and may hold a token. What it has left are the tokens from there on and
the end of the text or the fault that hides the rest, as `lexemes` lists them. Taking a token takes the
first of them, and looking at it takes nothing.

* `Lexer.left`: what a lexer has left;
* `Lexer.next_token`, `Lexer.peek_token`, …: taking and looking;
* `Descent.Follows`: **descending reads what a reader of tokens reads**, from every lexer that has these
  tokens left, and how this is put together.
-/

import MethodPatch.Syntax.Descent.Expr
import MethodPatch.Proofs.Syntax.Reading
import MethodPatch.Proofs.Syntax.Scanned

namespace MethodPatch

/-! ### Tokens from a cursor on -/

namespace Cursor

variable {cursor behind : Cursor} {position start : Position} {c : Char} {rest : List Char}

theorem lexemesFrom_comment (read : List Lexeme) (skipped : cursor.skip = (some start, behind)) :
    cursor.lexemesFrom read =
      ⟨read.reverse, .error (malformed .unterminatedComment (some start))⟩ := by
  rw [lexemesFrom]
  split <;> simp_all

/-- The tokens in front of a cursor do not matter to those behind it. -/
theorem lexemesFrom_read (cursor : Cursor) (read : List Lexeme) :
    cursor.lexemesFrom read =
      ⟨read.reverse ++ (cursor.lexemesFrom []).items, (cursor.lexemesFrom []).finish⟩ := by
  refine lexemesFrom.induct (motive := fun _ cursor => ∀ read, cursor.lexemesFrom read =
    ⟨read.reverse ++ (cursor.lexemesFrom []).items, (cursor.lexemesFrom []).finish⟩)
    ?_ ?_ ?_ ?_ [] cursor read
  · intro _ cursor start behind skipped read
    rw [lexemesFrom_comment read skipped, lexemesFrom_comment [] skipped, List.reverse_nil,
      List.append_nil]
  · intro _ cursor position skipped read
    rw [lexemesFrom_end read skipped, lexemesFrom_end [] skipped, List.reverse_nil, List.append_nil]
  · intro _ cursor position c rest skipped fault length scanned read
    rw [lexemesFrom_fault read skipped scanned, lexemesFrom_fault [] skipped scanned,
      List.reverse_nil, List.append_nil]
  · intro _ cursor position c rest skipped token length scanned ih read
    rw [lexemesFrom_token read skipped scanned, lexemesFrom_token [] skipped scanned,
      ih (_ :: read), ih [_], List.reverse_cons, List.append_assoc, List.reverse_singleton]

end Cursor

/-! ### Lexers -/

namespace Lexer

/-- What a lexer has left, the token that it holds included. -/
def left (lexer : Lexer) : Lexemes :=
  let behind := lexer.cursor.lexemesFrom []
  match lexer.held with
  | none => behind
  | some token =>
    if token = .endOfInput then ⟨[], .ok lexer.tokenPosition⟩
    else ⟨⟨token, lexer.tokenPosition⟩ :: behind.items, behind.finish⟩

theorem left_of_none {lexer : Lexer} (holds : lexer.held = none) :
    lexer.left = lexer.cursor.lexemesFrom [] := by
  rw [left, holds]

theorem left_of_some {lexer : Lexer} {token : Token} (holds : lexer.held = some token)
    (isToken : token ≠ .endOfInput) :
    lexer.left = ⟨⟨token, lexer.tokenPosition⟩ :: (lexer.cursor.lexemesFrom []).items,
      (lexer.cursor.lexemesFrom []).finish⟩ := by
  rw [left, holds]
  exact if_neg isToken

theorem left_of_end {lexer : Lexer} (holds : lexer.held = some .endOfInput) :
    lexer.left = ⟨[], .ok lexer.tokenPosition⟩ := by
  rw [left, holds]
  exact if_pos rfl

/-- Scanning finds a fault, the end of the text or a token, as the cursor has it left. -/
theorem scan_cases (lexer : Lexer) :
    (∃ error behind, lexer.scan = (.error error, behind) ∧
      lexer.cursor.lexemesFrom [] = ⟨[], .error error⟩) ∨
    (∃ position cursor,
      lexer.scan = (.ok .endOfInput, { lexer with cursor, tokenPosition := position }) ∧
      lexer.cursor.lexemesFrom [] = ⟨[], .ok position⟩) ∨
    ∃ token position cursor, token ≠ .endOfInput ∧
      lexer.scan = (.ok token, { lexer with cursor, tokenPosition := position }) ∧
      lexer.cursor.lexemesFrom [] =
        ⟨⟨token, position⟩ :: (cursor.lexemesFrom []).items, (cursor.lexemesFrom []).finish⟩ := by
  unfold scan
  rcases skipped : lexer.cursor.skip with ⟨_ | start, behind⟩
  · rcases behind with ⟨position, _ | ⟨c, rest⟩⟩
    · exact .inr (.inl ⟨position, _, rfl, Cursor.lexemesFrom_end [] skipped⟩)
    · rcases scanned : Scan.scanToken (c :: rest) with ⟨fault | token, length⟩
      · refine .inl ⟨malformed fault (some (fault.place position length)),
          { lexer with
            cursor := Cursor.forward ⟨position, c :: rest⟩ length, tokenPosition := position },
          ?_, Cursor.lexemesFrom_fault [] skipped scanned⟩
        simp only [Cursor.token, scanned]
        rfl
      · refine .inr (.inr ⟨token, position, Cursor.forward ⟨position, c :: rest⟩ length,
          (Scan.scanToken_writtenAs scanned).ne_endOfInput, ?_, ?_⟩)
        · simp only [Cursor.token, scanned]
          rfl
        · rw [Cursor.lexemesFrom_token [] skipped scanned, Cursor.lexemesFrom_read]
          rfl
  · exact .inl ⟨_, _, rfl, Cursor.lexemesFrom_comment [] skipped⟩

variable {lexer : Lexer} {lexeme : Lexeme} {rest : List Lexeme} {finish : Parse.Finish}
  {position : Position} {error : SourceError}

/-- Taking a token leaves the others. -/
theorem next_token (isLeft : lexer.left = ⟨lexeme :: rest, finish⟩) :
    ∃ behind, lexer.next = (.ok lexeme.token, behind) ∧ behind.held = none ∧
      behind.tokenPosition = lexeme.position ∧ behind.left = ⟨rest, finish⟩ ∧
      lexeme.token ≠ .endOfInput := by
  unfold next
  cases holds : lexer.held with
  | none =>
    rw [left_of_none holds] at isLeft
    rcases lexer.scan_cases with ⟨error, behind, -, none⟩ | ⟨position, cursor, -, none⟩ |
      ⟨token, position, cursor, isToken, scanned, whole⟩
    · cases none.symm.trans isLeft
    · cases none.symm.trans isLeft
    · cases whole.symm.trans isLeft
      exact ⟨_, scanned, holds, rfl, left_of_none holds, isToken⟩
  | some token =>
    by_cases isToken : token = .endOfInput
    · subst isToken
      cases (left_of_end holds).symm.trans isLeft
    · cases (left_of_some holds isToken).symm.trans isLeft
      exact ⟨_, rfl, rfl, rfl, left_of_none rfl, isToken⟩

theorem next_end (isLeft : lexer.left = ⟨[], .ok position⟩) :
    ∃ behind, lexer.next = (.ok .endOfInput, behind) ∧ behind.tokenPosition = position := by
  unfold next
  cases holds : lexer.held with
  | none =>
    rw [left_of_none holds] at isLeft
    rcases lexer.scan_cases with ⟨error, behind, -, none⟩ | ⟨position, cursor, scanned, whole⟩ |
      ⟨token, position, cursor, isToken, -, none⟩
    · cases none.symm.trans isLeft
    · cases whole.symm.trans isLeft
      exact ⟨_, scanned, rfl⟩
    · cases none.symm.trans isLeft
  | some token =>
    by_cases isToken : token = .endOfInput
    · subst isToken
      cases (left_of_end holds).symm.trans isLeft
      exact ⟨_, rfl, rfl⟩
    · cases (left_of_some holds isToken).symm.trans isLeft

theorem next_fault (isLeft : lexer.left = ⟨[], .error error⟩) :
    ∃ behind, lexer.next = (.error error, behind) := by
  unfold next
  cases holds : lexer.held with
  | none =>
    rw [left_of_none holds] at isLeft
    rcases lexer.scan_cases with ⟨error, behind, scanned, whole⟩ | ⟨position, cursor, -, none⟩ |
      ⟨token, position, cursor, isToken, -, none⟩
    · cases whole.symm.trans isLeft
      exact ⟨_, scanned⟩
    · cases none.symm.trans isLeft
    · cases none.symm.trans isLeft
  | some token =>
    by_cases isToken : token = .endOfInput
    · subst isToken
      cases (left_of_end holds).symm.trans isLeft
    · cases (left_of_some holds isToken).symm.trans isLeft

/-- Looking at a token takes nothing. -/
theorem peek_token (isLeft : lexer.left = ⟨lexeme :: rest, finish⟩) :
    ∃ behind, lexer.peek = (.ok lexeme.token, behind) ∧ behind.tokenPosition = lexeme.position ∧
      behind.left = ⟨lexeme :: rest, finish⟩ := by
  obtain ⟨behind, taken, holds, isPlace, isRest, isToken⟩ := next_token isLeft
  rw [left_of_none holds] at isRest
  refine ⟨{ behind with held := some lexeme.token }, by rw [peek, taken], isPlace, ?_⟩
  rw [left_of_some rfl isToken, isRest, isPlace]

theorem peek_end (isLeft : lexer.left = ⟨[], .ok position⟩) :
    ∃ behind, lexer.peek = (.ok .endOfInput, behind) ∧ behind.tokenPosition = position ∧
      behind.left = ⟨[], .ok position⟩ := by
  obtain ⟨behind, taken, isPlace⟩ := next_end isLeft
  refine ⟨{ behind with held := some .endOfInput }, by rw [peek, taken], isPlace, ?_⟩
  rw [left_of_end rfl, isPlace]

theorem peek_fault (isLeft : lexer.left = ⟨[], .error error⟩) :
    ∃ behind, lexer.peek = (.error error, behind) := by
  obtain ⟨behind, failed⟩ := next_fault isLeft
  exact ⟨behind, by rw [peek, failed]⟩

/-- A lexer at the beginning of a text has its tokens left. -/
theorem left_ofText (text : String) : (ofText text).left = lexemes text := left_of_none rfl

/-- A lexer that holds a token is left as it is by a look at it. -/
theorem peek_of_holds {token : Token} (holds : lexer.held = some token) :
    lexer.peek = (.ok token, lexer) := by
  rw [peek, next, holds]
  exact congrArg (Prod.mk _) (by rw [← holds])

theorem holds_of_peek {token : Token} {behind : Lexer} (looked : lexer.peek = (.ok token, behind)) :
    behind.held = some token := by
  rw [peek] at looked
  split at looked
  · cases looked
    rfl
  · cases looked

end Lexer

/-! ### Readers of tokens -/

namespace Parse

variable {β δ : Type} {finish : Finish} {tokens : List Lexeme}

/-- What is known goes on at once. -/
theorem ok_bind (answer : β) (more : β → Reading δ) : (.ok answer >>= more) = more answer := rfl

theorem error_bind (error : SourceError) (more : β → Reading δ) :
    (.error error >>= more) = .error error := rfl

/-- A token that comes next is the first of them. -/
theorem eq_cons_of_look {token : Token} (looked : look finish tokens = .ok token)
    (isToken : token ≠ .endOfInput) : ∃ position rest, tokens = ⟨token, position⟩ :: rest := by
  cases tokens with
  | nil =>
    cases finish with
    | ok position => exact absurd (Except.ok.inj looked).symm isToken
    | error error => cases looked
  | cons lexeme rest =>
    cases looked
    exact ⟨lexeme.position, rest, rfl⟩

/-- Another token is not accepted. -/
theorem accept_of_ne {mark : Punct} {token : Token} {position : Position} {rest : List Lexeme}
    (isOther : token ≠ .punct mark) : accept finish mark (⟨token, position⟩ :: rest) = .ok none := by
  cases token with
  | punct found =>
    rw [accept, nextPunct?]
    exact congrArg Except.ok (if_neg fun isMark => isOther (congrArg Token.punct isMark))
  | _ => rfl

/-- A punctuator that is accepted is the first of them. -/
theorem eq_cons_of_accept {mark : Punct} {rest : Fewer tokens.length}
    (accepted : accept finish mark tokens = .ok (some rest)) :
    ∃ position, tokens = ⟨.punct mark, position⟩ :: rest.1 := by
  rcases tokens with _ | ⟨⟨token, position⟩, behind⟩
  · cases finish <;> cases accepted
  · by_cases same : token = .punct mark
    · subst same
      rw [accept_next] at accepted
      cases accepted
      exact ⟨position, rfl⟩
    · rw [accept_of_ne same] at accepted
      cases accepted

/-- If another token comes next, no punctuator does. -/
theorem nextPunct?_of_look {token : Token} (looked : look finish tokens = .ok token)
    (isOther : ∀ mark, token ≠ .punct mark) : nextPunct? tokens = none := by
  obtain ⟨mark, position, rest, rfl⟩ | ⟨isNone, -⟩ := nextPunct?_cases tokens
  · exact absurd (Except.ok.inj looked).symm (isOther mark)
  · exact isNone

/-- Looking fails where only a fault is left. -/
theorem eq_nil_of_look {error : SourceError} (failed : look finish tokens = .error error) :
    tokens = [] ∧ finish = .error error := by
  cases tokens with
  | nil =>
    cases finish with
    | ok position => cases failed
    | error found => exact ⟨rfl, congrArg Except.error (Except.error.inj failed)⟩
  | cons lexeme rest => cases failed

end Parse

/-! ### Descending and reading -/

namespace Descent

open Parse

variable {α β γ δ : Type} {start : Lexer → Prop} {finish : Finish} {tokens : List Lexeme}
  {act : Descent α} {onward : α → Descent γ} {known : Reading β} {view : β → α}
  {rest : β → List Lexeme} {more : β → Reading δ} {look' : δ → γ} {last : δ → List Lexeme}

section Run

variable {σ α β : Type} {act : Descending σ α} {state behind : σ} {answer : α} {error : SourceError}

theorem run_bind_ok (onward : α → Descending σ β)
    (ran : act.run.run state = some (.ok answer, behind)) :
    (act >>= onward).run.run state = (onward answer).run.run behind := by
  rw [ExceptT.run_bind, StateT.run_bind, ran]
  rfl

theorem run_bind_error (onward : α → Descending σ β)
    (ran : act.run.run state = some (.error error, behind)) :
    (act >>= onward).run.run state = some (.error error, behind) := by
  rw [ExceptT.run_bind, StateT.run_bind, ran]
  rfl

/-- What a lexer does with a look at it. -/
theorem ran_peek {lexer : Lexer} {outcome : Except SourceError Token × Lexer}
    (looked : lexer.peek = outcome) : peek.run.run lexer = some outcome := congrArg some looked

/-- What a lexer does when its next token is taken. -/
theorem ran_next {lexer : Lexer} {outcome : Except SourceError Token × Lexer}
    (taken : lexer.next = outcome) : next.run.run lexer = some outcome := congrArg some taken

theorem run_tokenPosition (lexer : Lexer) :
    tokenPosition.run.run lexer = some (.ok lexer.tokenPosition, lexer) := rfl

/-- What was wanted is missed where the lexer stands. -/
theorem run_refuse {α : Type} (wanted : String) (token : Token) (lexer : Lexer) :
    (refuse wanted token : Descent α).run.run lexer =
      some (.error (malformed (.expected wanted token.describe) (some lexer.tokenPosition)), lexer) :=
  rfl

end Run

/-- Descending from certain lexers comes to an end, and it reads what is known to be read. If it does not
fail, the tokens behind are left. -/
def FollowsFrom (start : Lexer → Prop) (finish : Finish) (act : Descent α) (known : Reading β)
    (view : β → α) (rest : β → List Lexeme) : Prop :=
  ∀ lexer, start lexer → ∃ behind, act.run.run lexer = some (known.map view, behind) ∧
    ∀ answer, known = .ok answer → behind.left = ⟨rest answer, finish⟩

/-- So it does from every lexer that has certain tokens left. -/
abbrev Follows (finish : Finish) (tokens : List Lexeme) (act : Descent α) (known : Reading β)
    (view : β → α) (rest : β → List Lexeme) : Prop :=
  FollowsFrom (fun lexer => lexer.left = ⟨tokens, finish⟩) finish act known view rest

/-- Descending reads a construct. -/
abbrev Reads {bound : Nat} (finish : Finish) (tokens : List Lexeme) (act : Descent α)
    (known : Reading (Parsed bound α)) : Prop :=
  Follows finish tokens act known Prod.fst (·.2.1)

namespace FollowsFrom

theorem pure {answer : α} {found : β} (isView : answer = view found) (isRest : rest found = tokens) :
    Follows finish tokens (Pure.pure answer) (.ok found) view rest := by
  intro lexer isLeft
  subst isView
  refine ⟨lexer, rfl, ?_⟩
  rintro _ ⟨⟩
  rw [isRest, isLeft]

theorem throw (error : SourceError) :
    FollowsFrom start finish (MonadExcept.throw error : Descent α) (.error error) view rest :=
  fun lexer _ => ⟨lexer, rfl, nofun⟩

theorem throws {onward : α → Descent γ} (error : SourceError) :
    FollowsFrom start finish ((MonadExcept.throw error : Descent α) >>= onward)
      (.error error : Reading δ) look' last :=
  fun lexer _ => ⟨lexer, rfl, nofun⟩

theorem bind (here : FollowsFrom start finish act known view rest)
    (behind : ∀ answer, known = .ok answer →
      Follows finish (rest answer) (onward (view answer)) (more answer) look' last) :
    FollowsFrom start finish (act >>= onward) (known >>= more) look' last := by
  intro lexer isStart
  obtain ⟨middle, ran, isRest⟩ := here lexer isStart
  cases known with
  | error error => exact ⟨middle, run_bind_error onward ran, nofun⟩
  | ok answer =>
    rw [run_bind_ok onward ran]
    exact behind answer rfl middle (isRest answer rfl)

/-- Where reading fails, nothing is descended to. -/
theorem fails {error : SourceError} (here : FollowsFrom start finish act (.error error) view rest) :
    FollowsFrom start finish (act >>= onward) (.error error) look' last := by
  intro lexer isStart
  obtain ⟨middle, ran, -⟩ := here lexer isStart
  exact ⟨middle, run_bind_error onward ran, nofun⟩

/-- The end of the text is none of its tokens. -/
theorem of_token {lexeme : Lexeme} {behind : List Lexeme}
    (follows : lexeme.token ≠ .endOfInput → Follows finish (lexeme :: behind) act known view rest) :
    Follows finish (lexeme :: behind) act known view rest := by
  intro lexer isLeft
  obtain ⟨-, -, -, -, -, isToken⟩ := Lexer.next_token isLeft
  exact follows isToken lexer isLeft

/-- What is known already is not descended to. -/
theorem lift (known : Reading α) :
    Follows finish tokens (liftExcept known) known id fun _ => tokens := by
  cases known with
  | error error => exact .throw error
  | ok answer => exact .pure rfl rfl

/-! ### Looking -/

theorem peek : Follows finish tokens Descent.peek (look finish tokens) id fun _ => tokens := by
  intro lexer isLeft
  cases tokens with
  | cons lexeme rest =>
    obtain ⟨behind, looked, -, stays⟩ := Lexer.peek_token isLeft
    exact ⟨behind, ran_peek looked, fun _ _ => stays⟩
  | nil =>
    cases finish with
    | ok position =>
      obtain ⟨behind, looked, -, stays⟩ := Lexer.peek_end isLeft
      exact ⟨behind, ran_peek looked, fun _ _ => stays⟩
    | error error =>
      obtain ⟨behind, failed⟩ := Lexer.peek_fault isLeft
      exact ⟨behind, ran_peek failed, nofun⟩

theorem place : Follows finish tokens Descent.place (Parse.place finish tokens) id fun _ => tokens := by
  intro lexer isLeft
  cases tokens with
  | cons lexeme rest =>
    obtain ⟨behind, looked, isPlace, stays⟩ := Lexer.peek_token isLeft
    refine ⟨behind, (run_bind_ok _ (ran_peek looked)).trans ?_, fun _ _ => stays⟩
    rw [run_tokenPosition, isPlace]
    rfl
  | nil =>
    cases finish with
    | ok position =>
      obtain ⟨behind, looked, isPlace, stays⟩ := Lexer.peek_end isLeft
      refine ⟨behind, (run_bind_ok _ (ran_peek looked)).trans ?_, fun _ _ => stays⟩
      rw [run_tokenPosition, isPlace]
      rfl
    | error error =>
      obtain ⟨behind, failed⟩ := Lexer.peek_fault isLeft
      exact ⟨behind, run_bind_error _ (ran_peek failed), nofun⟩

/-- The place of a token that comes next is known. -/
theorem places {onward : Position → Descent γ} {known : Reading δ} {position : Position}
    (isPlace : Parse.place finish tokens = .ok position)
    (behind : Follows finish tokens (onward position) known look' last) :
    Follows finish tokens (Descent.place >>= onward) known look' last := by
  have whole : Follows finish tokens (Descent.place >>= onward)
      (Parse.place finish tokens >>= fun _ => known) look' last := by
    refine place.bind fun found isFound => ?_
    cases isPlace.symm.trans isFound
    exact behind
  rwa [isPlace] at whole

theorem places_fault {onward : Position → Descent γ} {error : SourceError}
    (failed : Parse.place finish tokens = .error error) :
    Follows finish tokens (Descent.place >>= onward) (.error error : Reading δ) look' last :=
  have hidden : Follows finish tokens Descent.place (.error error) id fun _ => tokens := failed ▸ place
  hidden.fails

/-- A token that comes next is seen. -/
theorem looks {onward : Token → Descent γ} {known : Reading δ} {token : Token}
    (looked : look finish tokens = .ok token)
    (behind : Follows finish tokens (onward token) known look' last) :
    Follows finish tokens (Descent.peek >>= onward) known look' last := by
  have whole : Follows finish tokens (Descent.peek >>= onward) (look finish tokens >>= fun _ => known)
      look' last := by
    refine peek.bind fun found isFound => ?_
    cases looked.symm.trans isFound
    exact behind
  rwa [looked] at whole

theorem looks_fault {onward : Token → Descent γ} {error : SourceError}
    (failed : look finish tokens = .error error) :
    Follows finish tokens (Descent.peek >>= onward) (.error error : Reading δ) look' last :=
  have hidden : Follows finish tokens Descent.peek (.error error) id fun _ => tokens := failed ▸ peek
  hidden.fails

/-- Whether a token comes next is known. -/
theorem asks {onward : Bool → Descent γ} {known : Reading δ} {token found : Token}
    (looked : look finish tokens = .ok found)
    (behind : Follows finish tokens (onward (found = token)) known look' last) :
    Follows finish tokens (comes token >>= onward) known look' last := by
  rw [comes, bind_assoc]
  refine .looks looked ?_
  rwa [pure_bind]

theorem asks_fault {onward : Bool → Descent γ} {token : Token} {error : SourceError}
    (failed : look finish tokens = .error error) :
    Follows finish tokens (comes token >>= onward) (.error error : Reading δ) look' last := by
  rw [comes, bind_assoc]
  exact .looks_fault failed

/-- A token that does not come next is not there. -/
theorem misses {onward : Bool → Descent γ} {known : Reading δ} {token : Token}
    (isOther : look finish tokens ≠ .ok token)
    (behind : Follows finish tokens (onward false) known look' last) :
    Follows finish tokens (comes token >>= onward) (look finish tokens >>= fun _ => known) look'
      last := by
  cases looked : look finish tokens with
  | error error => exact .asks_fault looked
  | ok found =>
    refine .asks looked ?_
    rwa [decide_eq_false fun same => isOther (looked.trans (congrArg Except.ok same))]

/-- A punctuator is accepted if it comes next. -/
theorem accepts {mark : Punct} {onward : Bool → Descent γ}
    {more : Option (Fewer tokens.length) → Reading δ}
    (isNext : ∀ rest (fewer : rest.length < tokens.length) position,
      tokens = ⟨.punct mark, position⟩ :: rest →
      Follows finish tokens (onward true) (more (some ⟨rest, fewer⟩)) look' last)
    (isOther : Follows finish tokens (onward false) (more none) look' last) :
    Follows finish tokens (sees mark >>= onward) (accept finish mark tokens >>= more) look' last := by
  cases tokens with
  | nil =>
    cases finish with
    | ok position => exact .asks rfl isOther
    | error error => exact .asks_fault rfl
  | cons lexeme rest =>
    obtain ⟨token, position⟩ := lexeme
    by_cases same : token = .punct mark
    · subst same
      rw [accept_next]
      refine .asks rfl ?_
      rw [decide_eq_true rfl]
      exact isNext rest (fewer_behind rest) position rfl
    · rw [accept_of_ne same]
      refine .asks rfl ?_
      rw [decide_eq_false same]
      exact isOther

/-! ### Taking -/

theorem takes {onward : Token → Descent γ} {known : Reading δ} {lexeme : Lexeme}
    {behind : List Lexeme} (follows : Follows finish behind (onward lexeme.token) known look' last) :
    Follows finish (lexeme :: behind) (Descent.next >>= onward) known look' last := by
  intro lexer isLeft
  obtain ⟨after, taken, -, -, isBehind, -⟩ := Lexer.next_token isLeft
  rw [run_bind_ok onward (ran_next taken)]
  exact follows after isBehind

/-- Behind the end of the text a lexer may have anything left. -/
theorem takes_end {onward : Token → Descent γ} {known : Reading δ} {position : Position}
    (follows : FollowsFrom (fun _ => True) (.ok position) (onward .endOfInput) known look' last) :
    Follows (.ok position) [] (Descent.next >>= onward) known look' last := by
  intro lexer isLeft
  obtain ⟨after, taken, -⟩ := Lexer.next_end isLeft
  rw [run_bind_ok onward (ran_next taken)]
  exact follows after trivial

theorem takes_fault {onward : Token → Descent γ} {error : SourceError} :
    Follows (.error error) [] (Descent.next >>= onward) (.error error : Reading δ) look' last := by
  intro lexer isLeft
  obtain ⟨after, failed⟩ := Lexer.next_fault isLeft
  exact ⟨after, run_bind_error onward (ran_next failed), nofun⟩

/-- A token that is not wanted is refused where it stands. -/
theorem refuses {onward : Token → Descent γ} {wanted : String}
    (isRefused : ∀ token, look finish tokens = .ok token → onward token = refuse wanted token) :
    Follows finish tokens (Descent.next >>= onward) (.error (expected finish wanted tokens) : Reading δ)
      look' last := by
  intro lexer isLeft
  cases tokens with
  | cons lexeme rest =>
    obtain ⟨after, taken, -, isPlace, -, -⟩ := Lexer.next_token isLeft
    rw [run_bind_ok onward (ran_next taken), isRefused _ rfl, run_refuse, isPlace]
    exact ⟨after, rfl, nofun⟩
  | nil =>
    cases finish with
    | ok position =>
      obtain ⟨after, taken, isPlace⟩ := Lexer.next_end isLeft
      rw [run_bind_ok onward (ran_next taken), isRefused _ rfl, run_refuse, isPlace]
      exact ⟨after, rfl, nofun⟩
    | error error =>
      obtain ⟨after, failed⟩ := Lexer.next_fault isLeft
      exact ⟨after, run_bind_error onward (ran_next failed), nofun⟩

/-- A token that has to come next is taken, and any other is refused. -/
theorem expects {wanted : Token} {title : String}
    {known : (tokens : List Lexeme) → Reading (Fewer tokens.length)} (isToken : wanted ≠ .endOfInput)
    (taken : ∀ position rest, known (⟨wanted, position⟩ :: rest) = .ok ⟨rest, fewer_behind rest⟩)
    (refused : look finish tokens ≠ .ok wanted →
      known tokens = .error (expected finish title tokens)) :
    Follows finish tokens
      (do
        let token ← Descent.next
        if token = wanted then return () else refuse title token)
      (known tokens) (fun _ => ()) (·.1) := by
  by_cases isNext : look finish tokens = .ok wanted
  · obtain ⟨position, rest, rfl⟩ := eq_cons_of_look isNext isToken
    rw [taken]
    refine .takes ?_
    rw [if_pos rfl]
    exact .pure rfl rfl
  · rw [refused isNext]
    exact .refuses fun token looked => if_neg fun same => isNext (looked.trans (congrArg Except.ok same))

theorem expectPunct (mark : Punct) :
    Follows finish tokens (Descent.expectPunct mark) (Parse.expectPunct finish mark tokens)
      (fun _ => ()) (·.1) :=
  expects (by simp) (expectPunct_next mark) expectPunct_refused

theorem expectKeyword (word : Keyword) :
    Follows finish tokens (Descent.expectKeyword word) (Parse.expectKeyword finish word tokens)
      (fun _ => ()) (·.1) :=
  expects (by simp) (expectKeyword_next word) expectKeyword_refused

/-- A punctuator that comes next is taken. -/
theorem takesPunct {onward : Unit → Descent γ} {known : Reading δ} {mark : Punct} {position : Position}
    {behind : List Lexeme} (follows : Follows finish behind (onward ()) known look' last) :
    Follows finish (⟨.punct mark, position⟩ :: behind) (Descent.expectPunct mark >>= onward) known look'
      last := by
  rw [Descent.expectPunct, bind_assoc]
  refine .takes ?_
  rwa [if_pos rfl, pure_bind]

/-- So is a keyword. -/
theorem takesKeyword {onward : Unit → Descent γ} {known : Reading δ} {word : Keyword}
    {position : Position} {behind : List Lexeme}
    (follows : Follows finish behind (onward ()) known look' last) :
    Follows finish (⟨.keyword word, position⟩ :: behind) (Descent.expectKeyword word >>= onward) known
      look' last := by
  rw [Descent.expectKeyword, bind_assoc]
  refine .takes ?_
  rwa [if_pos rfl, pure_bind]

theorem expectName : Reads finish tokens Descent.expectName (Parse.expectName finish tokens) := by
  cases tokens with
  | nil =>
    refine .refuses fun token looked => ?_
    cases finish with
    | ok position =>
      cases looked
      rfl
    | error error => cases looked
  | cons lexeme rest =>
    obtain ⟨token, position⟩ := lexeme
    cases token with
    | name text => exact .takes (.pure rfl rfl)
    | _ => exact .refuses fun token looked => by cases looked; rfl

/-! ### Looking ahead -/

/-- The state of the lexer is saved. -/
theorem saves {onward : Lexer → Descent γ} {known : Reading δ}
    (behind : ∀ saved : Lexer, saved.left = ⟨tokens, finish⟩ →
      Follows finish tokens (onward saved) known look' last) :
    Follows finish tokens (get >>= onward) known look' last :=
  fun lexer isLeft => behind lexer isLeft lexer isLeft

/-- It is restored, wherever the lexer has got to. -/
theorem restores {onward : PUnit → Descent γ} {known : Reading δ} {saved : Lexer}
    (isLeft : saved.left = ⟨tokens, finish⟩)
    (behind : Follows finish tokens (onward ⟨⟩) known look' last) :
    FollowsFrom start finish (set saved >>= onward) known look' last :=
  fun _ _ => behind saved isLeft

/-- What comes of an attempt is seen. If it fails, the lexer may have got anywhere. -/
theorem attempts {onward : Except SourceError α → Descent γ} {result : Reading δ}
    (here : Follows finish tokens act known view rest)
    (succeeds : ∀ answer, known = .ok answer →
      Follows finish (rest answer) (onward (.ok (view answer))) result look' last)
    (fails : ∀ error, known = .error error →
      FollowsFrom (fun _ => True) finish (onward (.error error)) result look' last) :
    Follows finish tokens (attempt act >>= onward) result look' last := by
  intro lexer isLeft
  obtain ⟨middle, ran, isRest⟩ := here lexer isLeft
  have attempted : (attempt act).run.run lexer = some (.ok (known.map view), middle) := by
    rw [attempt, ExceptT.run_lift, StateT.run_map, ran]
    rfl
  rw [run_bind_ok onward attempted]
  cases known with
  | ok answer => exact succeeds answer rfl middle (isRest answer rfl)
  | error error => exact fails error rfl middle trivial

end FollowsFrom

end Descent

end MethodPatch
