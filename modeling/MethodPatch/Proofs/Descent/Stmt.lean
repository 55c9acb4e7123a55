/-
**Descending through statements.**

Statements are read by descending as they are read from a list of tokens, and the same variables are noted,
behind those that were noted before, even where the text is malformed.

* `Descent.Composes`: descending reads and notes what a reader of tokens reads and notes;
* `Descent.composes_statement`: **descending reads statements**;
* `Descent.run_wholeText`: it comes to an end on every text.
-/

import MethodPatch.Proofs.Constants.Again
import MethodPatch.Proofs.Descent.Parts

namespace MethodPatch.Descent

open Parse

variable {α β γ δ : Type} {finish : Finish} {tokens : List Lexeme} {bound limit count depth : Nat}

/-- Descending from every lexer that has certain tokens left comes to an end, and it reads and notes what is
known to be read and noted. If it does not fail, the tokens behind are left. -/
def Composes (finish : Finish) (tokens : List Lexeme) (act : Composing α) (known : Noting β)
    (view : β → α) (rest : β → List Lexeme) : Prop :=
  ∃ result noted, (∀ declared, known.run.run declared = (result, declared ++ noted)) ∧
    ∀ lexer : Lexer, lexer.left = ⟨tokens, finish⟩ → ∃ behind,
      (∀ declared, act.run.run (lexer, declared) = some (result.map view, behind, declared ++ noted)) ∧
      ∀ answer, result = .ok answer → behind.left = ⟨rest answer, finish⟩

/-- Descending reads a construct and notes its variables. -/
abbrev ReadsNoting (finish : Finish) (tokens : List Lexeme) (act : Composing α)
    (known : Noting (Parsed bound α)) : Prop :=
  Composes finish tokens act known Prod.fst (·.2.1)

namespace Composes

variable {act : Composing α} {onward : α → Composing γ} {known : Noting β} {view : β → α}
  {rest : β → List Lexeme} {more : β → Noting δ} {view' : δ → γ} {last : δ → List Lexeme}

theorem pure {answer : α} {found : β} (isView : answer = view found) (isRest : rest found = tokens) :
    Composes finish tokens (Pure.pure answer) (Pure.pure found) view rest := by
  refine ⟨.ok found, #[], fun declared => congrArg (Prod.mk _) Array.append_empty.symm, ?_⟩
  intro lexer isLeft
  subst isView
  refine ⟨lexer, fun declared => ?_, ?_⟩
  · rw [Array.append_empty]
    rfl
  · rintro _ ⟨⟩
    rw [isRest, isLeft]

theorem throw (error : SourceError) :
    Composes finish tokens (MonadExcept.throw error) (MonadExcept.throw error) view rest := by
  refine ⟨.error error, #[], fun declared => congrArg (Prod.mk _) Array.append_empty.symm, ?_⟩
  intro lexer isLeft
  refine ⟨lexer, fun declared => ?_, nofun⟩
  rw [Array.append_empty]
  rfl

theorem throws {onward : α → Composing γ} (error : SourceError) :
    Composes finish tokens ((MonadExcept.throw error : Composing α) >>= onward)
      (MonadExcept.throw error : Noting δ) view' last :=
  .throw error

theorem bind (here : Composes finish tokens act known view rest)
    (behind : ∀ answer, (known.run.run #[]).1 = .ok answer →
      Composes finish (rest answer) (onward (view answer)) (more answer) view' last) :
    Composes finish tokens (act >>= onward) (known >>= more) view' last := by
  obtain ⟨result, noted, isKnown, ran⟩ := here
  cases result with
  | error error =>
    refine ⟨.error error, noted, fun declared => ?_, fun lexer isLeft => ?_⟩
    · rw [run_bind, isKnown]
    · obtain ⟨middle, isRun, -⟩ := ran lexer isLeft
      exact ⟨middle, fun declared => run_bind_error onward (isRun declared), nofun⟩
  | ok answer =>
    obtain ⟨result, others, isMore, ranMore⟩ := behind answer (congrArg Prod.fst (isKnown #[]))
    refine ⟨result, noted ++ others, fun declared => ?_, fun lexer isLeft => ?_⟩
    · rw [run_bind, isKnown]
      exact (isMore _).trans (congrArg (Prod.mk _) Array.append_assoc)
    · obtain ⟨middle, isRun, isRest⟩ := ran lexer isLeft
      obtain ⟨last, isRunMore, isLast⟩ := ranMore middle (isRest answer rfl)
      refine ⟨last, fun declared => ?_, isLast⟩
      rw [run_bind_ok onward (isRun declared), isRunMore, Array.append_assoc]

theorem reading {act : Descent α} {known : Reading β} (here : Follows finish tokens act known view rest) :
    Composes finish tokens (Descent.reading act) (liftExcept known) view rest := by
  refine ⟨known, #[], fun declared => ?_, fun lexer isLeft => ?_⟩
  · rw [Array.append_empty]
    cases known <;> rfl
  · obtain ⟨behind, isRun, isRest⟩ := here lexer isLeft
    refine ⟨behind, fun declared => ?_, isRest⟩
    rw [Array.append_empty]
    change Option.map _ (act.run.run lexer) = _
    rw [isRun]
    rfl

end Composes

/-- What is known goes on at once. -/
theorem lift_ok_bind (answer : β) (more : β → Noting δ) :
    ((liftExcept (.ok answer : Reading β) : Noting β) >>= more) = more answer := rfl

theorem lift_error_bind (error : SourceError) (more : β → Noting δ) :
    ((liftExcept (.error error : Reading β) : Noting β) >>= more) = MonadExcept.throw error := rfl

namespace Composes

variable {act : Composing α} {onward : α → Composing γ} {known : Noting β} {view : β → α}
  {rest : β → List Lexeme} {more : β → Noting δ} {view' : δ → γ} {last : δ → List Lexeme}

/-- What is read notes nothing. -/
theorem read {act : Descent α} {known : Reading β} (here : Follows finish tokens act known view rest)
    (behind : ∀ answer, known = .ok answer →
      Composes finish (rest answer) (onward (view answer)) (more answer) view' last) :
    Composes finish tokens (Descent.reading act >>= onward) (liftExcept known >>= more) view' last := by
  refine (reading here).bind fun answer isFound => behind answer ?_
  cases known with
  | error error => cases isFound
  | ok found => exact isFound

/-- A step that notes nothing and comes to what is known. -/
theorem steps {act : Descent α} {known : Noting δ} {found : β} {others : List Lexeme}
    (here : Follows finish tokens act (.ok found) view fun _ => others)
    (behind : Composes finish others (onward (view found)) known view' last) :
    Composes finish tokens (Descent.reading act >>= onward) known view' last := by
  rw [← lift_ok_bind found fun _ => known]
  refine read here fun answer isFound => ?_
  cases isFound
  exact behind

theorem fails {act : Descent α} {error : SourceError}
    (here : Follows finish tokens act (.error error) view rest) :
    Composes finish tokens (Descent.reading act >>= onward) (MonadExcept.throw error : Noting δ) view'
      last := by
  rw [← lift_error_bind error fun _ : β => (MonadExcept.throw error : Noting δ)]
  exact (reading here).bind nofun

theorem note {onward : Unit → Composing γ} {more : Unit → Noting δ} (declaration : Declaration)
    (behind : Composes finish tokens (onward ()) (more ()) view' last) :
    Composes finish tokens (Descent.note declaration >>= onward) (Parse.note declaration >>= more) view'
      last := by
  have here : Composes finish tokens (Descent.note declaration) (Parse.note declaration) id
      fun _ => tokens :=
    ⟨.ok (), #[declaration], fun declared => rfl, fun lexer isLeft =>
      ⟨lexer, fun declared => rfl, fun _ _ => isLeft⟩⟩
  exact here.bind fun _ _ => behind

/-! ### Tokens -/

theorem takes {onward : Token → Composing γ} {known : Noting δ} {lexeme : Lexeme}
    {behind : List Lexeme} (follows : Composes finish behind (onward lexeme.token) known view' last) :
    Composes finish (lexeme :: behind) (Descent.reading Descent.next >>= onward) known view' last := by
  have here : Follows finish (lexeme :: behind) Descent.next (.ok lexeme.token) id fun _ => behind := by
    rw [← bind_pure Descent.next]
    exact .takes (.pure rfl rfl)
  exact .steps here follows

theorem places {onward : Position → Composing γ} {known : Noting δ} {position : Position}
    (isPlace : Parse.place finish tokens = .ok position)
    (behind : Composes finish tokens (onward position) known view' last) :
    Composes finish tokens (Descent.reading Descent.place >>= onward) known view' last := by
  have here : Follows finish tokens Descent.place (.ok position) id fun _ => tokens := isPlace ▸ .place
  exact .steps here behind

theorem looks {onward : Token → Composing γ} {known : Noting δ} {token : Token}
    (looked : look finish tokens = .ok token)
    (behind : Composes finish tokens (onward token) known view' last) :
    Composes finish tokens (Descent.reading Descent.peek >>= onward) known view' last := by
  have here : Follows finish tokens Descent.peek (.ok token) id fun _ => tokens := looked ▸ .peek
  exact .steps here behind

theorem asks {onward : Bool → Composing γ} {known : Noting δ} {token found : Token}
    (looked : look finish tokens = .ok found)
    (behind : Composes finish tokens (onward (found = token)) known view' last) :
    Composes finish tokens (Descent.reading (comes token) >>= onward) known view' last := by
  have here : Follows finish tokens (comes token) (.ok (decide (found = token))) id fun _ => tokens := by
    rw [← bind_pure (comes token)]
    exact .asks looked (.pure rfl rfl)
  exact .steps here behind

theorem asks_fault {onward : Bool → Composing γ} {token : Token} {error : SourceError}
    (failed : look finish tokens = .error error) :
    Composes finish tokens (Descent.reading (comes token) >>= onward)
      (MonadExcept.throw error : Noting δ) view' last := by
  have here : Follows finish tokens (comes token) (.error error : Reading Bool) id fun _ => tokens := by
    rw [← bind_pure (comes token)]
    exact .asks_fault failed
  exact .fails here

theorem takesPunct {onward : Unit → Composing γ} {known : Noting δ} {mark : Punct} {position : Position}
    {behind : List Lexeme} (follows : Composes finish behind (onward ()) known view' last) :
    Composes finish (⟨.punct mark, position⟩ :: behind)
      (Descent.reading (Descent.expectPunct mark) >>= onward) known view' last := by
  have here : Follows finish (⟨.punct mark, position⟩ :: behind) (Descent.expectPunct mark) (.ok ()) id
      fun _ => behind := by
    rw [← bind_pure (Descent.expectPunct mark)]
    exact .takesPunct (.pure rfl rfl)
  exact .steps here follows

theorem takesKeyword {onward : Unit → Composing γ} {known : Noting δ} {word : Keyword}
    {position : Position} {behind : List Lexeme}
    (follows : Composes finish behind (onward ()) known view' last) :
    Composes finish (⟨.keyword word, position⟩ :: behind)
      (Descent.reading (Descent.expectKeyword word) >>= onward) known view' last := by
  have here : Follows finish (⟨.keyword word, position⟩ :: behind) (Descent.expectKeyword word) (.ok ())
      id fun _ => behind := by
    rw [← bind_pure (Descent.expectKeyword word)]
    exact .takesKeyword (.pure rfl rfl)
  exact .steps here follows

/-- A punctuator is accepted if it comes next. -/
theorem accepts {mark : Punct} {onward : Bool → Composing γ}
    {more : Option (Fewer tokens.length) → Noting δ}
    (isNext : ∀ rest (fewer : rest.length < tokens.length) position,
      tokens = ⟨.punct mark, position⟩ :: rest →
      Composes finish tokens (onward true) (more (some ⟨rest, fewer⟩)) view' last)
    (isOther : Composes finish tokens (onward false) (more none) view' last) :
    Composes finish tokens (Descent.reading (sees mark) >>= onward)
      (liftExcept (accept finish mark tokens) >>= more) view' last := by
  have here : Follows finish tokens (sees mark) (accept finish mark tokens) Option.isSome
      fun _ => tokens := by
    rw [← bind_pure (sees mark), ← bind_pure (accept finish mark tokens)]
    exact .accepts (fun _ _ _ _ => .pure rfl rfl) (.pure rfl rfl)
  refine read here fun found accepted => ?_
  cases found with
  | none => exact isOther
  | some rest =>
    obtain ⟨position, isCons⟩ := eq_cons_of_accept accepted
    exact isNext rest.1 rest.2 position isCons

end Composes

/-! ### Declarations -/

theorem skipFinal_of_ne {token : Token} (looked : look finish tokens = .ok token)
    (isOther : token ≠ .keyword .final) : skipFinal tokens = (false, ⟨tokens, Nat.le_refl _⟩) := by
  unfold skipFinal
  split
  · cases looked
    exact absurd rfl isOther
  · rfl

/-- One variable after the other. -/
theorem composes_declarators (enough : 8 * tokens.length ≤ limit) (counted : tokens.length < count)
    (type : TypeRef) (read : List Declarator) (fewer : tokens.length < bound) :
    ReadsNoting finish tokens (rounds (declaratorsRound limit type) count read)
      (declaratorsFrom finish type bound read tokens fewer) := by
  induction count generalizing tokens read with
  | zero => exact absurd counted (Nat.not_lt_zero _)
  | succ count ih =>
    rw [rounds, declaratorsRound, declaratorsFrom]
    simp only [bind_assoc]
    refine .read (reads_declarator enough type) ?_
    rintro ⟨first, rest, shorter⟩ -
    refine .note _ (.accepts (fun others further position isNext => ?_) ?_)
    · dsimp only at isNext
      subst isNext
      simp only [if_true, bind_assoc, pure_bind]
      simp only [List.length_cons] at shorter
      exact .takes (ih (by omega) (by omega) _ _)
    · simp only [Bool.false_eq_true, if_false, pure_bind]
      exact .pure rfl rfl

/-- A declaration. -/
theorem composes_declaration (enough : 8 * tokens.length ≤ limit) :
    ReadsNoting finish tokens (Descent.declaration limit) (Parse.declaration finish tokens) := by
  rw [Descent.declaration, Parse.declaration]
  refine .read .place fun position isPlace => ?_
  cases looked : look finish tokens with
  | error error =>
    obtain ⟨rfl, rfl⟩ := eq_nil_of_look looked
    cases isPlace
  | ok token =>
    refine .asks looked ?_
    by_cases isFinal : token = .keyword .final
    · subst isFinal
      obtain ⟨place, behind, rfl⟩ := eq_cons_of_look looked (by simp)
      simp only [decide_true, if_true, skipFinal]
      simp only [List.length_cons] at enough
      refine .takes (.read (reads_typeRef (by omega)) ?_)
      rintro ⟨type, rest, shorter⟩ -
      have restEnough : 8 * rest.length ≤ limit := by omega
      have counted : rest.length < limit := by omega
      refine (composes_declarators restEnough counted type [] _).bind ?_
      rintro ⟨declarators, last⟩ -
      exact .pure rfl rfl
    · simp only [isFinal, decide_false, Bool.false_eq_true, if_false]
      rw [skipFinal_of_ne looked isFinal]
      have typeEnough : tokens.length ≤ limit := by omega
      refine .read (reads_typeRef typeEnough) ?_
      rintro ⟨type, rest, shorter⟩ -
      dsimp only at shorter
      have restEnough : 8 * rest.length ≤ limit := by omega
      have counted : rest.length < limit := by omega
      refine (composes_declarators restEnough counted type [] _).bind ?_
      rintro ⟨declarators, last⟩ -
      exact .pure rfl rfl

/-- Whether a declaration comes next is known. -/
theorem Composes.starts {onward : Bool → Composing γ} {known : Noting δ} {view : δ → γ}
    {last : δ → List Lexeme} {token : Token} (enough : tokens.length ≤ limit)
    (looked : look finish tokens = .ok token)
    (behind : Composes finish tokens (onward (Parse.startsDeclaration finish tokens)) known view last) :
    Composes finish tokens (Descent.reading (Descent.startsDeclaration limit) >>= onward) known view last := by
  have here : Follows finish tokens _ _ _ _ := follows_startsDeclaration enough
  rw [looked, ok_bind] at here
  exact .steps here behind

/-- The start of a `for` loop. -/
theorem composes_loopStart (enough : 8 * tokens.length + 6 ≤ limit) (fewer : tokens.length < bound) :
    ReadsNoting finish tokens (Descent.loopStart limit) (Parse.loopStart finish bound tokens fewer) := by
  rw [Descent.loopStart, Parse.loopStart]
  cases looked : look finish tokens with
  | error error =>
    have failed : accept finish .semicolon tokens = .error error := by rw [accept, looked]; rfl
    rw [failed]
    exact .asks_fault looked
  | ok token =>
    refine .accepts (fun rest shorter position isNext => .pure rfl rfl) ?_
    simp only [Bool.false_eq_true, if_false]
    refine .starts (by omega) looked ?_
    split
    · have declarationEnough : 8 * tokens.length ≤ limit := by omega
      refine (composes_declaration declarationEnough).bind ?_
      rintro ⟨declared, rest, shorter⟩ -
      exact .pure rfl rfl
    · refine .read (reads_statementExpressions enough fewer) ?_
      rintro ⟨expressions, rest⟩ -
      exact .pure rfl rfl

/-! ### Statements in parts -/

section Parts

variable {statement : Composing Stmt} {inLoop : Bool} {size : Nat}
  (reads : ∀ {tokens}, tokens.length < size →
    ReadsNoting finish tokens statement (Parse.statement finish inLoop tokens))

include reads

/-- A statement that belongs to a loop or a branch. -/
theorem composes_substatement (within : tokens.length < size) :
    ReadsNoting finish tokens (Descent.substatement statement)
      (Parse.substatement finish inLoop tokens) := by
  rw [Descent.substatement, Parse.substatement]
  cases looked : look finish tokens with
  | error error => exact .asks_fault looked
  | ok token =>
    refine .asks looked ?_
    by_cases isFinal : token = .keyword .final
    · subst isFinal
      obtain ⟨position, rest, rfl⟩ := eq_cons_of_look looked (by simp)
      simp only [decide_true, if_true]
      exact .places rfl (.throws _)
    · simp only [isFinal, decide_false, Bool.false_eq_true, if_false, lift_ok_bind]
      refine (reads within).bind ?_
      rintro ⟨inner, rest, shorter⟩ -
      cases inner.isDeclaration with
      | false => exact .pure rfl rfl
      | true => exact .throws _

variable {position : Position} {rest : List Lexeme}

/-- `if`. -/
theorem composes_if (within : rest.length ≤ size) (enough : 8 * rest.length ≤ limit) :
    ReadsNoting finish (⟨.keyword .ifWord, position⟩ :: rest) (ifStatement limit statement)
      (Parse.statement finish inLoop (⟨.keyword .ifWord, position⟩ :: rest)) := by
  rw [ifStatement, Parse.statement]
  refine .places rfl (.takesKeyword (.read (reads_test enough) ?_))
  rintro ⟨test, behind, fewer⟩ -
  refine (composes_substatement reads (Nat.lt_of_lt_of_le fewer within)).bind ?_
  rintro ⟨first, middle, shorter⟩ -
  cases looked : look finish middle with
  | error error =>
    simp only [looked]
    exact .asks_fault looked
  | ok token =>
    simp only [looked, lift_ok_bind]
    refine .asks looked ?_
    cases token with
    | keyword word =>
      cases word with
      | elseWord =>
        obtain ⟨place, other, rfl⟩ := eq_cons_of_look looked (by simp)
        simp only [List.length_cons] at shorter
        simp only [decide_true, if_true, expectKeyword_next, lift_ok_bind]
        refine .takes ((composes_substatement reads (by omega)).bind ?_)
        rintro ⟨second, last, further⟩ -
        exact .pure rfl rfl
      | _ => exact .pure rfl rfl
    | _ => exact .pure rfl rfl

/-- The statements of a block up to its end. -/
theorem composes_blockRounds (within : tokens.length < size) (counted : tokens.length < count)
    (read : List Stmt) (fewer : tokens.length < bound) :
    ReadsNoting finish tokens
      (rounds (blockRound statement) count read >>= fun body =>
        reading (Descent.expectPunct .rbrace) >>= fun _ => pure body)
      (Parse.block finish inLoop bound read tokens fewer) := by
  induction count generalizing tokens read with
  | zero => exact absurd counted (Nat.not_lt_zero _)
  | succ count ih =>
    rw [rounds, blockRound, Parse.block]
    simp only [bind_assoc]
    cases looked : look finish tokens with
    | error error => exact .asks_fault looked
    | ok token =>
      simp only [lift_ok_bind]
      refine .asks looked ?_
      by_cases isEnd : token = .punct .rbrace
      · subst isEnd
        obtain ⟨place, behind, rfl⟩ := eq_cons_of_look looked (by simp)
        simp only [decide_true, if_true, pure_bind, expectPunct_next, lift_ok_bind]
        exact .takesPunct (.pure rfl rfl)
      · simp only [isEnd, decide_false, Bool.false_eq_true, if_false, bind_assoc]
        refine .asks looked ?_
        by_cases isLast : token = .endOfInput
        · subst isLast
          simp only [decide_true, if_true, bind_assoc]
          exact .read .place fun _ _ => .throws _
        · simp only [isLast, decide_false, Bool.false_eq_true, if_false, bind_assoc, pure_bind]
          refine (reads within).bind ?_
          rintro ⟨first, rest, shorter⟩ -
          exact ih (by dsimp only; omega) (by dsimp only; omega) _ _

/-- A block. -/
theorem composes_block (within : rest.length < size) (counted : rest.length < limit) :
    ReadsNoting finish (⟨.punct .lbrace, position⟩ :: rest) (Descent.block limit statement)
      (Parse.statement finish inLoop (⟨.punct .lbrace, position⟩ :: rest)) := by
  rw [Descent.block, Parse.statement, blockBody]
  refine .places rfl (.takesPunct ((composes_blockRounds reads within counted [] _).bind ?_))
  rintro ⟨body, last⟩ -
  exact .pure rfl rfl

end Parts

section Loops

variable {statement : Composing Stmt} {inLoop : Bool} {size : Nat} {position : Position}
  {rest : List Lexeme}
  (reads : ∀ {tokens}, tokens.length < size →
    ReadsNoting finish tokens statement (Parse.statement finish true tokens))

include reads

/-- `while`. -/
theorem composes_while (within : rest.length ≤ size) (enough : 8 * rest.length ≤ limit) :
    ReadsNoting finish (⟨.keyword .whileWord, position⟩ :: rest) (whileStatement limit statement)
      (Parse.statement finish inLoop (⟨.keyword .whileWord, position⟩ :: rest)) := by
  rw [whileStatement, Parse.statement]
  refine .places rfl (.takesKeyword (.read (reads_test enough) ?_))
  rintro ⟨test, behind, fewer⟩ -
  refine (composes_substatement reads (Nat.lt_of_lt_of_le fewer within)).bind ?_
  rintro ⟨body, last, shorter⟩ -
  exact .pure rfl rfl

/-- `do`. -/
theorem composes_do (within : rest.length < size) (enough : 8 * rest.length ≤ limit) :
    ReadsNoting finish (⟨.keyword .doWord, position⟩ :: rest) (doStatement limit statement)
      (Parse.statement finish inLoop (⟨.keyword .doWord, position⟩ :: rest)) := by
  rw [doStatement, Parse.statement]
  refine .places rfl (.takesKeyword ((composes_substatement reads within).bind ?_))
  rintro ⟨body, middle, fewer⟩ -
  refine .read (FollowsFrom.expectKeyword .whileWord) ?_
  rintro ⟨behind, shorter⟩ -
  refine .read (reads_test (by dsimp only; omega)) ?_
  rintro ⟨test, tail, further⟩ -
  refine .read (follows_endStatement _) ?_
  rintro last -
  exact .pure rfl rfl

/-- `for`. -/
theorem composes_for (within : rest.length < size) (enough : 8 * rest.length + 6 ≤ limit) :
    ReadsNoting finish (⟨.keyword .forWord, position⟩ :: rest) (forStatement limit statement)
      (Parse.statement finish inLoop (⟨.keyword .forWord, position⟩ :: rest)) := by
  rw [forStatement, Parse.statement, loopHead]
  simp only [bind_assoc]
  refine .places rfl (.takesKeyword (.read (FollowsFrom.expectPunct .lparen) ?_))
  rintro ⟨inside, first⟩ -
  refine (composes_loopStart (by dsimp only; omega) _).bind ?_
  rintro ⟨start, middle, second⟩ -
  refine .read (FollowsFrom.expectPunct .semicolon) ?_
  rintro ⟨behind, third⟩ -
  dsimp only at third
  refine .read (reads_loopTest (by dsimp only; omega) _) ?_
  rintro ⟨test, next, fourth⟩ -
  refine .read (reads_loopUpdates (by dsimp only; omega) _) ?_
  rintro ⟨updates, others, fifth⟩ -
  refine (composes_substatement reads (by dsimp only; omega)).bind ?_
  rintro ⟨body, last, sixth⟩ -
  exact .pure rfl rfl

end Loops

/-! ### Statements -/

/-- A declaration with the semicolon behind it, or an expression. -/
theorem composes_plain {token : Token} (enough : 8 * tokens.length + 6 ≤ limit)
    (looked : look finish tokens = .ok token) :
    ReadsNoting finish tokens
      (do
        if ← reading (Descent.startsDeclaration limit) then
          let declared ← Descent.declaration limit
          reading Descent.endStatement
          return declared
        else reading (Descent.expressionStatement limit))
      (if Parse.startsDeclaration finish tokens then
        Parse.declaration finish tokens >>= fun read =>
          liftExcept (Parse.endStatement finish tokens.length read.2.1 read.2.2) >>= fun last =>
            pure (read.1, last)
      else liftExcept (Parse.expressionStatement finish tokens)) := by
  have declarationEnough : 8 * tokens.length ≤ limit := by omega
  refine .starts (by omega) looked ?_
  split
  · refine (composes_declaration declarationEnough).bind ?_
    rintro ⟨declared, rest, shorter⟩ -
    exact .read (follows_endStatement _) fun last _ => .pure rfl rfl
  · exact .reading (reads_expressionStatement enough)

/-- **Descending reads statements** and notes their variables, up to any limit that is large enough for
their tokens. The statement is within loops if there are any around it. -/
theorem composes_statement {inLoop : Bool} (isLoop : inLoop = (depth != 0))
    (enough : 8 * tokens.length + 7 ≤ limit) :
    ReadsNoting finish tokens (Descent.statement limit depth) (Parse.statement finish inLoop tokens) := by
  induction limit generalizing tokens depth inLoop with
  | zero => exact absurd enough (Nat.not_succ_le_zero _)
  | succ limit ih =>
    rw [Descent.statement]
    cases looked : look finish tokens with
    | error error =>
      obtain ⟨rfl, rfl⟩ := eq_nil_of_look looked
      rw [Parse.statement.eq_def]
      have failed : Follows (.error error) [] Descent.peek (.error error) id fun _ => [] := .peek
      exact .fails failed
    | ok token =>
      refine .looks looked ?_
      have inner {others : List Lexeme} (isFewer : others.length < tokens.length) :
          ReadsNoting finish others (Descent.statement limit depth)
            (Parse.statement finish inLoop others) :=
        ih isLoop (by omega)
      have repeated {others : List Lexeme} (isFewer : others.length < tokens.length) :
          ReadsNoting finish others (Descent.statement limit (depth + 1))
            (Parse.statement finish true others) :=
        ih rfl (by omega)
      have plain := composes_plain (Nat.le_of_succ_le_succ enough) looked
      cases token with
      | keyword word =>
        obtain ⟨position, rest, rfl⟩ := eq_cons_of_look looked (by simp)
        simp only [List.length_cons] at enough inner repeated
        cases word with
        | ifWord => exact composes_if inner (by omega) (by omega)
        | whileWord => exact composes_while repeated (by omega) (by omega)
        | doWord => exact composes_do repeated (by omega) (by omega)
        | forWord => exact composes_for repeated (by omega) (by omega)
        | returnWord =>
          rw [Parse.statement.eq_def]
          exact .reading (reads_returnStatement (by omega) _)
        | breakWord =>
          rw [Parse.statement.eq_def]
          exact .reading (reads_jumpStatement isLoop _)
        | continueWord =>
          rw [Parse.statement.eq_def]
          exact .reading (reads_jumpStatement isLoop _)
        | throwWord =>
          rw [Parse.statement.eq_def]
          refine .reading (.places rfl (.takesKeyword ((reads_expression (by omega)).bind ?_)))
          rintro ⟨thrown, middle, shorter⟩ -
          exact (follows_endStatement _).bind fun last _ => .pure rfl rfl
        | _ =>
          rw [Parse.statement.eq_def]
          exact plain
      | punct mark =>
        obtain ⟨position, rest, rfl⟩ := eq_cons_of_look looked (by simp)
        simp only [List.length_cons] at enough inner repeated
        cases mark with
        | lbrace => exact composes_block inner (by omega) (by omega)
        | semicolon =>
          rw [Parse.statement.eq_def]
          exact .reading (reads_emptyStatement _)
        | _ =>
          rw [Parse.statement.eq_def]
          exact plain
      | _ =>
        rw [Parse.statement.eq_def]
        rcases tokens with _ | ⟨⟨found, position⟩, rest⟩
        · exact plain
        · cases looked
          exact plain

/-! ### Texts -/

/-- The statements of a text up to its end. -/
theorem composes_textRounds (enough : 8 * tokens.length + 7 ≤ limit) (counted : tokens.length < count)
    (read : List Stmt) :
    Composes finish tokens (rounds (textRound (Descent.statement limit 0)) count read)
      (Parse.statements finish read tokens) id fun _ => [] := by
  induction count generalizing tokens read with
  | zero => exact absurd counted (Nat.not_lt_zero _)
  | succ count ih =>
    rw [rounds, textRound, Parse.statements]
    simp only [bind_assoc]
    cases looked : look finish tokens with
    | error error => exact .asks_fault looked
    | ok token =>
      simp only [lift_ok_bind]
      refine .asks looked ?_
      by_cases isLast : token = .endOfInput
      · subst isLast
        simp only [decide_true, if_true, pure_bind]
        rcases tokens with _ | ⟨lexeme, rest⟩
        · exact .pure rfl rfl
        · refine ⟨.ok read.reverse, #[], fun declared => congrArg (Prod.mk _) Array.append_empty.symm,
            fun lexer isLeft => ?_⟩
          -- The end of the text is none of its tokens.
          obtain ⟨-, -, -, -, -, isToken⟩ := Lexer.next_token isLeft
          exact absurd (Except.ok.inj looked) isToken
      · simp only [isLast, decide_false, Bool.false_eq_true, if_false, bind_assoc, pure_bind]
        refine (composes_statement rfl enough).bind ?_
        rintro ⟨first, rest, shorter⟩ -
        exact ih (by dsimp only; omega) (by dsimp only; omega) _

/-- Descending through a whole text comes to an end. It reads the statements that are parsed, and it notes
the same variables behind those that were noted before. -/
theorem run_wholeText (source : String) (enough : 8 * ((lexemes source).items.length + 1) ≤ limit)
    (declared : Array Declaration) :
    ∃ behind, (wholeText limit).run.run (.ofText source, declared) =
      some ((Stmt.parse source).1, behind, declared ++ (Stmt.parse source).2) := by
  have composes : Composes (lexemes source).finish (lexemes source).items (wholeText limit)
      (Parse.statements (lexemes source).finish [] (lexemes source).items) id fun _ => [] :=
    composes_textRounds (by omega) (by omega) []
  obtain ⟨result, noted, isKnown, ran⟩ := composes
  obtain ⟨behind, isRun, -⟩ := ran _ (Lexer.left_ofText source)
  have parsed : Stmt.parse source = (result, noted) :=
    (isKnown #[]).trans (congrArg (Prod.mk _) Array.empty_append)
  refine ⟨behind, (isRun declared).trans ?_⟩
  rw [parsed, Except.map_id]
  rfl

end MethodPatch.Descent
