/-
**Tokens that are spent.**

Whatever descending does to a lexer, if it succeeds then the lexer has some of the tokens left that it had,
from their end. Every construct spends a token of its own. So does every round of a loop that is not its
last one: no loop goes on without a token.

* `Descent.Leads`: what holds after descending if it succeeds;
* `Descent.Advances`, `Descent.Spends`: how far it gets;
* `Descent.Shrinks`: **a loop that goes on has fewer tokens left**;
* `Descent.spendsExpressions`: expressions spend a token.
-/

import MethodPatch.Proofs.Descent.Tokens
import MethodPatch.Syntax.Descent.Stmt

namespace MethodPatch

/-! ### Lexers -/

namespace Lexer

variable {lexer behind : Lexer} {token : Token}

theorem left_of_peek (looked : lexer.peek = (.ok token, behind)) :
    behind.left = lexer.left ∧ behind.held = some token := by
  refine ⟨?_, holds_of_peek looked⟩
  rcases isLeft : lexer.left with ⟨_ | ⟨lexeme, rest⟩, position | error⟩
  · obtain ⟨after, failed⟩ := peek_fault isLeft
    cases looked.symm.trans failed
  · obtain ⟨after, seen, -, stays⟩ := peek_end isLeft
    cases looked.symm.trans seen
    exact stays
  all_goals
    obtain ⟨after, seen, -, stays⟩ := peek_token isLeft
    cases looked.symm.trans seen
    exact stays

/-- Behind a token there are the tokens that were behind it. -/
theorem left_of_next (taken : lexer.next = (.ok token, behind)) (isToken : token ≠ .endOfInput) :
    ∃ position, lexer.left = ⟨⟨token, position⟩ :: behind.left.items, behind.left.finish⟩ := by
  rcases isLeft : lexer.left with ⟨_ | ⟨lexeme, rest⟩, finish⟩
  · cases finish with
    | ok position =>
      obtain ⟨after, found, -⟩ := next_end isLeft
      cases taken.symm.trans found
      exact absurd rfl isToken
    | error error =>
      obtain ⟨after, failed⟩ := next_fault isLeft
      cases taken.symm.trans failed
  · obtain ⟨after, found, -, -, isRest, -⟩ := next_token isLeft
    cases taken.symm.trans found
    rw [isRest]
    exact ⟨lexeme.position, rfl⟩

/-- A lexer has some of these tokens left, from their end, and not all of them if any were spent. -/
structure Within (whole : Lexemes) (spent : Prop) (lexer : Lexer) : Prop where
  finish : lexer.left.finish = whole.finish
  items : lexer.left.items <:+ whole.items
  fewer : spent → lexer.left.items.length < whole.items.length

namespace Within

variable {whole : Lexemes} {spent other : Prop}

theorem refl (lexer : Lexer) : lexer.Within lexer.left False :=
  ⟨rfl, List.suffix_rfl, False.elim⟩

theorem weaken (within : lexer.Within whole spent) (implies : other → spent) :
    lexer.Within whole other :=
  ⟨within.finish, within.items, fun isSpent => within.fewer (implies isSpent)⟩

theorem trans (within : lexer.Within whole spent) (further : behind.Within lexer.left other) :
    behind.Within whole (spent ∨ other) where
  finish := further.finish.trans within.finish
  items := further.items.trans within.items
  fewer := by
    rintro (isSpent | isOther)
    · exact Nat.lt_of_le_of_lt further.items.length_le (within.fewer isSpent)
    · exact Nat.lt_of_lt_of_le (further.fewer isOther) within.items.length_le

theorem peek (within : lexer.Within whole spent) (looked : lexer.peek = (.ok token, behind)) :
    behind.Within whole spent := by
  obtain ⟨isLeft, -⟩ := left_of_peek looked
  exact ⟨isLeft ▸ within.finish, isLeft ▸ within.items, isLeft ▸ within.fewer⟩

theorem next (within : lexer.Within whole spent) (taken : lexer.next = (.ok token, behind))
    (isToken : token ≠ .endOfInput) : behind.Within whole True := by
  obtain ⟨position, isLeft⟩ := left_of_next taken isToken
  have further : behind.Within lexer.left True := by
    rw [isLeft]
    exact ⟨rfl, List.suffix_cons _ _, fun _ => Nat.lt_succ_self _⟩
  exact (within.trans further).weaken .inr

end Within

end Lexer

/-- A round is not the last one. -/
def Round.GoesOn {α : Type} : Round α → Prop
  | .again _ => True
  | .done _ => False

namespace Descent

variable {σ α β : Type}

/-! ### What descending leads to -/

/-- If descending succeeds from a state like this, then its answer and the state behind are like that. -/
def Leads (before : σ → Prop) (act : Descending σ α) (after : α → σ → Prop) : Prop :=
  ∀ state, before state → ∀ answer behind, act.run.run state = some (.ok answer, behind) →
    after answer behind

namespace Leads

variable {before : σ → Prop} {act : Descending σ α} {onward : α → Descending σ β}
  {middle : α → σ → Prop} {after : β → σ → Prop}

theorem pure {answer : β} (isSo : ∀ state, before state → after answer state) :
    Leads before (Pure.pure answer) after := by
  intro state isBefore _ _ ran
  cases ran
  exact isSo state isBefore

theorem throw (error : SourceError) : Leads before (MonadExcept.throw error) after :=
  fun _ _ _ _ ran => nomatch ran

theorem throws (error : SourceError) :
    Leads before ((MonadExcept.throw error : Descending σ α) >>= onward) after :=
  fun _ _ _ _ ran => nomatch ran

theorem bind (here : Leads before act middle)
    (behind : ∀ answer, Leads (middle answer) (onward answer) after) :
    Leads before (act >>= onward) after := by
  intro state isBefore answer last ran
  rcases first : act.run.run state with _ | ⟨error | found, between⟩
  · rw [ExceptT.run_bind, StateT.run_bind, first] at ran
    cases ran
  · cases (run_bind_error onward first).symm.trans ran
  · rw [run_bind_ok onward first] at ran
    exact behind found between (here state isBefore found between first) answer last ran

theorem require {other : σ → Prop} {act : Descending σ β} (here : Leads before act after)
    (implied : ∀ state, other state → before state) : Leads other act after :=
  fun state isOther => here state (implied state isOther)

theorem relax {other : β → σ → Prop} {act : Descending σ β} (here : Leads before act after)
    (implies : ∀ answer state, after answer state → other answer state) : Leads before act other :=
  fun state isBefore answer behind ran => implies answer behind (here state isBefore answer behind ran)

/-- A state is saved. -/
theorem save {onward : σ → Descending σ β} (behind : ∀ saved, before saved → Leads before (onward saved) after) :
    Leads before (get >>= onward) after :=
  fun state isBefore => behind state isBefore state isBefore

theorem set (saved : σ) : Leads before (MonadStateOf.set saved) fun _ state => state = saved := by
  intro state _ _ _ ran
  cases ran
  rfl

theorem any : Leads before act fun _ _ => True := fun _ _ _ _ _ => trivial

/-- What an attempt comes to is what it was an attempt at, if it succeeds. -/
theorem attempt {before : Lexer → Prop} {act : Descent α} {after : α → Lexer → Prop}
    (here : Leads before act after) :
    Leads before (Descent.attempt act) fun result lexer =>
      ∀ answer, result = .ok answer → after answer lexer := by
  intro lexer isBefore result behind ran answer isOk
  subst isOk
  rcases first : act.run.run lexer with _ | ⟨found, middle⟩
  · rw [Descent.attempt, ExceptT.run_lift, StateT.run_map, first] at ran
    cases ran
  · rw [Descent.attempt, ExceptT.run_lift, StateT.run_map, first] at ran
    cases ran
    exact here lexer isBefore answer middle first

theorem lift (known : Except SourceError α) :
    Leads before (liftExcept known) fun _ => before := by
  cases known with
  | error error => exact .throw error
  | ok answer => exact .pure fun _ isBefore => isBefore

end Leads

/-! ### Tokens -/

section Tokens

variable {whole : Lexemes} {spent : Prop} {token : Token}

/-- A lexer holds a token. -/
def Holds (whole : Lexemes) (spent : Prop) (token : Token) (lexer : Lexer) : Prop :=
  lexer.Within whole spent ∧ lexer.held = some token

theorem leads_peek : Leads (Lexer.Within whole spent) peek (Holds whole spent) := by
  intro lexer within token behind ran
  have looked := Option.some.inj ran
  exact ⟨within.peek looked, Lexer.holds_of_peek looked⟩

theorem leads_tokenPosition {before : Lexer → Prop} : Leads before tokenPosition fun _ => before := by
  intro lexer isBefore _ _ ran
  cases ran
  exact isBefore

theorem leads_place : Leads (Lexer.Within whole spent) place fun _ => Lexer.Within whole spent :=
  leads_peek.bind fun _ => leads_tokenPosition.require fun _ holds => holds.1

/-- A lexer that holds a token still does when its place has been looked at. -/
theorem leads_place_holds : Leads (Holds whole spent token) place fun _ => Holds whole spent token := by
  have stays : Leads (Holds whole spent token) peek fun _ => Holds whole spent token := by
    intro lexer holds found behind ran
    cases (Lexer.peek_of_holds holds.2).symm.trans (Option.some.inj ran)
    exact holds
  exact stays.bind fun _ => leads_tokenPosition

theorem leads_comes : Leads (Lexer.Within whole spent) (comes token) fun answer lexer =>
    lexer.Within whole spent ∧ (answer = true → Holds whole spent token lexer) := by
  refine leads_peek.bind fun found => .pure fun lexer holds => ⟨holds.1, fun isSo => ?_⟩
  cases of_decide_eq_true isSo
  exact holds

/-- If a token comes next, it is held. -/
theorem leads_branch {there here : Descent α} {after : α → Lexer → Prop}
    (isNext : Leads (Holds whole spent token) there after)
    (isOther : Leads (Lexer.Within whole spent) here after) :
    Leads (Lexer.Within whole spent) (comes token >>= fun answer => if answer then there else here)
      after := by
  refine leads_comes.bind fun answer => ?_
  cases answer with
  | true => exact isNext.require fun _ found => found.2 rfl
  | false => exact isOther.require fun _ found => found.1

theorem leads_next : Leads (Lexer.Within whole spent) next fun token lexer =>
    token ≠ .endOfInput → lexer.Within whole True := by
  intro lexer within token behind ran isToken
  exact within.next (Option.some.inj ran) isToken

/-- A token that is held is taken. -/
theorem leads_taken {onward : Token → Descent α} {after : α → Lexer → Prop}
    (isToken : token ≠ .endOfInput)
    (behind : ∀ found, Leads (Lexer.Within whole True) (onward found) after) :
    Leads (Holds whole spent token) (next >>= onward) after := by
  refine Leads.bind ?_ behind
  rintro lexer ⟨within, holds⟩ found behind ran
  have taken : lexer.next = (.ok token, { lexer with held := none }) := by rw [Lexer.next, holds]
  cases taken.symm.trans (Option.some.inj ran)
  exact within.next taken isToken

theorem leads_refuse {before : Lexer → Prop} {after : α → Lexer → Prop} (wanted : String) :
    Leads before (refuse wanted token) after :=
  fun _ _ _ _ ran => nomatch ran

end Tokens

/-! ### How far descending gets -/

variable {view : σ → Lexer} {act : Descending σ α} {onward : α → Descending σ β} {spends : α → Prop}
  {whole : Lexemes} {spent : Prop}

/-- Descending goes forward in the text, and with certain answers by a token at least. -/
def Advances (view : σ → Lexer) (act : Descending σ α) (spends : α → Prop) : Prop :=
  ∀ state answer behind, act.run.run state = some (.ok answer, behind) →
    (view behind).Within (view state).left (spends answer)

/-- Descending goes forward by a token at least. -/
abbrev Spends (view : σ → Lexer) (act : Descending σ α) : Prop := Advances view act fun _ => True

/-- A loop goes on only with fewer tokens left. -/
def Shrinks (view : σ → Lexer) (round : α → Descending σ (Round α)) : Prop :=
  ∀ state, Advances view (round state) Round.GoesOn

namespace Advances

theorem of_leads (leads : ∀ whole, Leads (fun state => (view state).Within whole False) act
      fun answer state => (view state).Within whole (spends answer)) : Advances view act spends :=
  fun state answer behind ran => leads _ state (.refl (view state)) answer behind ran

theorem leads (advances : Advances view act spends) :
    Leads (fun state => (view state).Within whole spent) act fun answer state =>
      (view state).Within whole (spent ∨ spends answer) :=
  fun state within answer behind ran => within.trans (advances state answer behind ran)

/-- Nothing but the last step depends on what was spent before. -/
theorem last (advances : Advances view act spends) (isSpent : spent) :
    Leads (fun state => (view state).Within whole spent) act fun _ state =>
      (view state).Within whole True :=
  advances.leads.relax fun _ _ within => within.weaken fun _ => .inl isSpent

end Advances

theorem spends_expectPunct (mark : Punct) : Spends id (expectPunct mark) := by
  refine .of_leads fun whole => leads_next.bind fun token => ?_
  split
  · next isMark => exact .pure fun lexer within => within (isMark ▸ nofun)
  · exact leads_refuse _

theorem spends_expectKeyword (word : Keyword) : Spends id (expectKeyword word) := by
  refine .of_leads fun whole => leads_next.bind fun token => ?_
  split
  · next isWord => exact .pure fun lexer within => within (isWord ▸ nofun)
  · exact leads_refuse _

theorem spends_expectName : Spends id expectName := by
  refine .of_leads fun whole => leads_next.bind fun token => ?_
  split
  · exact .pure fun lexer within => within nofun
  · exact leads_refuse _

/-- A loop goes forward. -/
theorem advances_rounds {round : α → Descending σ (Round α)} (shrinks : Shrinks view round) (limit : Nat)
    (state : α) : Advances view (rounds round limit state) fun _ => False := by
  induction limit generalizing state with
  | zero => exact fun _ _ _ ran => nomatch ran
  | succ limit ih =>
    refine .of_leads fun whole => (shrinks state).leads.bind fun round => ?_
    cases round with
    | again state => exact (ih state).leads.relax fun _ _ within => within.weaken False.elim
    | done answer => exact .pure fun _ within => within.weaken False.elim

/-! ### Types -/

/-- One part more of a dotted name. If the lexer comes back, nothing is spent. -/
theorem shrinks_dotted : Shrinks id dottedRound := by
  refine fun name => .of_leads fun whole => leads_branch ?_ (.pure fun _ within => within.weaken id)
  refine .save fun saved holds => leads_taken nofun fun _ => leads_next.bind fun token => ?_
  cases token with
  | name part => exact .pure fun _ within => (within nofun).weaken id
  | _ => exact (Leads.set saved).bind fun _ => .pure fun _ isSaved => isSaved ▸ holds.1

theorem shrinks_brackets : Shrinks id bracketsRound := by
  refine fun type => .of_leads fun whole => leads_branch ?_ (.pure fun _ within => within.weaken id)
  refine leads_taken nofun fun _ => ?_
  refine ((spends_expectPunct .rbracket).last trivial).bind fun _ => ?_
  exact .pure fun _ within => within

theorem spends_baseType (limit : Nat) : Spends id (baseType limit) := by
  refine .of_leads fun whole => leads_next.bind fun token => ?_
  cases token with
  | name first =>
    have dotted : Leads (Lexer.Within whole True) (rounds dottedRound limit first) fun _ =>
        Lexer.Within whole True :=
      (advances_rounds shrinks_dotted limit first).last trivial
    refine (dotted.require fun _ within => within nofun).bind fun name => ?_
    exact .pure fun _ within => within
  | keyword word =>
    dsimp only
    split
    · exact .pure fun _ within => within nofun
    · exact leads_refuse _
  | endOfInput => exact leads_tokenPosition.bind fun _ => .throw _
  | _ => exact leads_refuse _

theorem spends_typeRef (limit : Nat) : Spends id (typeRef limit) := by
  refine .of_leads fun whole => leads_place.bind fun position => ?_
  refine ((spends_baseType limit).leads).bind fun base => ?_
  exact ((advances_rounds shrinks_brackets limit _).last (.inr trivial))

theorem shrinks_emptyBrackets : Shrinks id emptyBracketsRound := by
  refine fun element => .of_leads fun whole => leads_branch ?_ (.pure fun _ within => within.weaken id)
  refine leads_taken nofun fun _ => leads_branch ?_ (leads_place.bind fun _ => .throw _)
  exact leads_taken nofun fun _ => .pure fun _ within => within

/-- Looking for a declaration spends nothing. -/
theorem advances_startsDeclaration (limit : Nat) :
    Advances id (startsDeclaration limit) fun _ => False := by
  refine .of_leads fun whole => leads_peek.bind fun token => ?_
  cases token with
  | name first =>
    refine .save fun saved holds => ?_
    have comesBack {before : Lexer → Prop} (answer : Bool) :
        Leads before (set saved >>= fun _ => pure answer) fun _ => Lexer.Within whole False :=
      (Leads.set saved).bind fun _ => .pure fun _ isSaved => isSaved ▸ holds.1
    refine Leads.any.bind fun type => ?_
    cases type with
    | error error =>
      simp only [pure_bind]
      exact comesBack _
    | ok type =>
      refine Leads.any.bind fun next => ?_
      split
      all_goals
        simp only [pure_bind]
        exact comesBack _
  | _ => exact .pure fun _ holds => holds.1

/-- The head of a cast spends tokens if there is one. -/
theorem leads_castHead (limit : Nat) :
    Leads (Holds whole spent (.punct .lparen)) (castHead limit) fun answer =>
      Lexer.Within whole (spent ∨ answer.isSome) := by
  refine .save fun saved holds => leads_taken nofun fun _ => ?_
  have comesBack {before : Lexer → Prop} :
      Leads before (set saved >>= fun _ => pure none) fun (answer : Option TypeRef) =>
        Lexer.Within whole (spent ∨ answer.isSome) :=
    (Leads.set saved).bind fun _ => .pure fun _ isSaved =>
      isSaved ▸ holds.1.weaken fun isSpent => isSpent.elim id nofun
  have casts (type : TypeRef) : Leads (Lexer.Within whole True) (pure (some type)) fun answer =>
      Lexer.Within whole (spent ∨ answer.isSome) :=
    .pure fun _ within => within.weaken fun _ => trivial
  refine leads_peek.bind fun token => ?_
  dsimp only
  split
  · exact comesBack
  · have typed : Leads (Lexer.Within whole True) (typeRef limit) fun _ => Lexer.Within whole True :=
      (spends_typeRef limit).last trivial
    refine (typed.attempt.require fun _ holds => holds.1).bind fun type => ?_
    cases type with
    | error error => exact comesBack
    | ok type =>
      refine Leads.require ?_ fun _ within => within type rfl
      refine leads_branch (leads_taken nofun fun _ => ?_) comesBack
      split
      · simp only [pure_bind, if_true]
        exact casts type
      · refine leads_peek.bind fun next => ?_
        simp only [pure_bind]
        split
        · exact (casts type).require fun _ holds => holds.1
        · exact comesBack

/-! ### Parts of expressions -/

section Parts

variable {expression : Descent Expr} (spendsExpression : Spends id expression) (limit : Nat)

include spendsExpression

theorem shrinks_arguments : Shrinks id (argumentsRound expression) := by
  refine fun read => .of_leads fun whole => spendsExpression.leads.bind fun argument => ?_
  refine leads_branch (leads_taken nofun fun _ => .pure fun _ within => within) ?_
  refine (spends_expectPunct .rparen).leads.bind fun _ => ?_
  exact .pure fun _ within => within.weaken False.elim

theorem spends_arguments : Spends id (arguments limit expression) := by
  refine .of_leads fun whole => (spends_expectPunct .lparen).leads.bind fun _ => ?_
  refine leads_branch (leads_taken nofun fun _ => .pure fun _ within => within) ?_
  exact (advances_rounds (shrinks_arguments spendsExpression) limit _).last (.inr trivial)

theorem spends_creation (position : Position) : Spends id (creation limit expression position) := by
  refine .of_leads fun whole => leads_place.bind fun typePosition => ?_
  refine (spends_baseType limit).leads.bind fun base => leads_branch (leads_taken nofun fun _ => ?_) ?_
  · refine (spendsExpression.last trivial).bind fun length => ?_
    refine ((spends_expectPunct .rbracket).last trivial).bind fun _ => ?_
    refine ((advances_rounds shrinks_emptyBrackets limit _).last trivial).bind fun element => ?_
    exact .pure fun _ within => within
  · dsimp only
    split
    · exact .throws _
    · refine ((spends_arguments spendsExpression limit).last (.inr trivial)).bind fun arguments => ?_
      exact .pure fun _ within => within

theorem spends_primary : Spends id (primary limit expression) := by
  refine .of_leads fun whole => leads_place.bind fun position => leads_next.bind fun token => ?_
  by_cases isEnd : token = .endOfInput
  · subst isEnd
    exact .throw _
  · refine Leads.require ?_ fun _ within => within isEnd
    split
    · exact .pure fun _ within => within
    · exact .throw _
    · split
      · exact .pure fun _ within => within
      · exact (spends_creation spendsExpression limit position).last trivial
      · exact .throw _
      · refine leads_branch ?_ (.pure fun _ within => within)
        refine Leads.require ?_ fun _ holds => holds.1
        refine ((spends_arguments spendsExpression limit).last trivial).bind fun arguments => ?_
        exact .pure fun _ within => within
      · refine (spendsExpression.last trivial).bind fun inner => ?_
        refine ((spends_expectPunct .rparen).last trivial).bind fun _ => ?_
        exact .pure fun _ within => within
      · exact .throw _
      · exact .throw _

theorem shrinks_members : Shrinks id (memberRound limit expression) := by
  refine fun object => .of_leads fun whole => leads_branch ?_ (leads_branch ?_ ?_)
  · refine leads_taken nofun fun _ => leads_place.bind fun position => ?_
    refine (spends_expectName.last trivial).bind fun name => leads_branch ?_ ?_
    · refine Leads.require ?_ fun _ holds => holds.1
      refine ((spends_arguments spendsExpression limit).last trivial).bind fun arguments => ?_
      exact .pure fun _ within => within
    · exact .pure fun _ within => within
  · refine leads_place_holds.bind fun position => leads_taken nofun fun _ => ?_
    refine (spendsExpression.last trivial).bind fun index => ?_
    refine ((spends_expectPunct .rbracket).last trivial).bind fun _ => ?_
    exact .pure fun _ within => within
  · exact .pure fun _ within => within.weaken False.elim

omit spendsExpression in
theorem advances_updated (object : Expr) : Advances id (updated object) fun _ => False := by
  refine .of_leads fun whole => leads_peek.bind fun token => ?_
  cases token with
  | punct mark =>
    dsimp only
    split
    · exact .pure fun _ holds => holds.1
    · split
      · exact (leads_place_holds.bind fun _ => .throws _)
      · exact leads_taken (by simp) fun _ => .pure fun _ within => within.weaken False.elim
  | _ => exact .pure fun _ holds => holds.1

theorem spends_operand : Spends id (operand limit expression) := by
  refine .of_leads fun whole => (spends_primary spendsExpression limit).leads.bind fun first => ?_
  refine ((advances_rounds (shrinks_members spendsExpression limit) limit first).last
    (.inr trivial)).bind fun object => ?_
  exact (advances_updated object).last trivial

end Parts

theorem spends_negation {unary : Descent Expr} (spendsUnary : Spends id unary) (position : Position) :
    Spends id (negation unary position) := by
  refine .of_leads fun whole => leads_peek.bind fun token => ?_
  cases isLeast : leastNumber? token with
  | some value =>
    have isToken : token ≠ .endOfInput := by
      rintro rfl
      cases isLeast
    exact leads_taken isToken fun _ => .pure fun _ within => within
  | none =>
    refine Leads.require ?_ fun _ holds => holds.1
    exact spendsUnary.leads.bind fun argument => .pure fun _ within => within.weaken .inr

theorem shrinks_binary {binary : Nat → Descent Expr} (spendsBinary : ∀ level, Spends id (binary level))
    (limit least : Nat) : Shrinks id (binaryRound limit binary least) := by
  refine fun left => .of_leads fun whole => leads_peek.bind fun token => ?_
  have ends : Leads (Holds whole False token) (pure (Round.done left)) fun answer =>
      Lexer.Within whole answer.GoesOn :=
    .pure fun _ holds => holds.1
  cases token with
  | keyword word =>
    cases word with
    | instanceOf =>
      dsimp only
      split
      · exact ends
      · refine leads_taken nofun fun _ => ?_
        exact ((spends_typeRef limit).last trivial).bind fun type => .pure fun _ within => within
    | _ => exact ends
  | punct mark =>
    dsimp only
    split
    · exact ends
    · split
      · exact ends
      · refine leads_taken nofun fun _ => ?_
        exact ((spendsBinary _).last trivial).bind fun right => .pure fun _ within => within
  | _ => exact ends

theorem shrinks_logical (op : LogicalOp) {operand : Descent Expr} (spendsOperand : Spends id operand) :
    Shrinks id (logicalRound op operand) := by
  refine fun left => .of_leads fun whole => leads_branch ?_ (.pure fun _ within => within)
  refine leads_taken nofun fun _ => ?_
  exact (spendsOperand.last trivial).bind fun right => .pure fun _ within => within

/-! ### Expressions -/

/-- Expressions spend a token at least, however deep descending may go. -/
structure SpendsExpressions (limit : Nat) : Prop where
  expression : Spends id (expression limit)
  conditional : Spends id (conditional limit)
  disjunction : Spends id (disjunction limit)
  conjunction : Spends id (conjunction limit)
  binary (least : Nat) : Spends id (binary limit least)
  unary : Spends id (unary limit)

namespace SpendsExpressions

variable {limit : Nat} (inner : SpendsExpressions limit)

include inner

theorem expression_step : Spends id (Descent.expression (limit + 1)) := by
  refine .of_leads fun whole => leads_place.bind fun position => ?_
  refine inner.conditional.leads.bind fun target => leads_peek.bind fun token => ?_
  have ends : Leads (Holds whole (False ∨ True) token) (pure target) fun _ =>
      Lexer.Within whole True :=
    .pure fun _ holds => holds.1.weaken .inr
  cases token with
  | punct mark =>
    dsimp only
    split
    · exact ends
    · split
      · exact leads_place_holds.bind fun _ => .throws _
      · refine leads_taken (by simp) fun _ => ?_
        exact (inner.expression.last trivial).bind fun value => .pure fun _ within => within
  | _ => exact ends

theorem conditional_step : Spends id (Descent.conditional (limit + 1)) := by
  refine .of_leads fun whole => leads_place.bind fun position => ?_
  refine inner.disjunction.leads.bind fun test => leads_branch ?_ ?_
  · refine leads_taken nofun fun _ => (inner.expression.last trivial).bind fun first => ?_
    refine ((spends_expectPunct .colon).last trivial).bind fun _ => ?_
    exact (inner.conditional.last trivial).bind fun second => .pure fun _ within => within
  · exact .pure fun _ within => within.weaken .inr

theorem disjunction_step : Spends id (Descent.disjunction (limit + 1)) := by
  refine .of_leads fun whole => inner.conjunction.leads.bind fun left => ?_
  exact (advances_rounds (shrinks_logical .or inner.conjunction) limit left).last (.inr trivial)

theorem conjunction_step : Spends id (Descent.conjunction (limit + 1)) := by
  refine .of_leads fun whole => (inner.binary 1).leads.bind fun left => ?_
  exact (advances_rounds (shrinks_logical .and (inner.binary 1)) limit left).last (.inr trivial)

theorem binary_step (least : Nat) : Spends id (Descent.binary (limit + 1) least) := by
  refine .of_leads fun whole => inner.unary.leads.bind fun left => ?_
  exact (advances_rounds (shrinks_binary inner.binary limit least) limit left).last (.inr trivial)

theorem unary_step : Spends id (Descent.unary (limit + 1)) := by
  refine .of_leads fun whole => leads_place.bind fun position => leads_peek.bind fun token => ?_
  have operand {spent : Prop} : Leads (Lexer.Within whole spent)
      (operand limit (Descent.expression limit)) fun _ => Lexer.Within whole True :=
    (spends_operand inner.expression limit).leads.relax fun _ _ within => within.weaken .inr
  cases token with
  | punct mark =>
    dsimp only
    split
    · refine leads_taken (by simp) fun _ => (inner.unary.last trivial).bind fun target => ?_
      split
      · exact .throws _
      · exact .pure fun _ within => within
    · refine leads_taken (by simp) fun _ => (inner.unary.last trivial).bind fun argument => ?_
      exact .pure fun _ within => within
    · split
      · refine leads_taken (by simp) fun _ => ?_
        exact (spends_negation inner.unary position).last trivial
      · split
        · next isParen =>
          subst isParen
          refine (leads_castHead limit).bind fun type => ?_
          cases type with
          | some type =>
            refine (inner.unary.last (.inr rfl)).bind fun argument => ?_
            exact .pure fun _ within => within
          | none => exact operand
        · exact operand.require fun _ holds => holds.1
  | _ => exact operand.require fun _ holds => holds.1

end SpendsExpressions

/-- Where the limit is reached, nothing is read. -/
theorem spends_exhausted : Spends view (exhausted : Descending σ α) := fun _ _ _ ran => nomatch ran

/-- **Every expression spends a token.** -/
theorem spendsExpressions : (limit : Nat) → SpendsExpressions limit
  | 0 =>
    { expression := spends_exhausted
      conditional := spends_exhausted
      disjunction := spends_exhausted
      conjunction := spends_exhausted
      binary := fun _ => spends_exhausted
      unary := spends_exhausted }
  | limit + 1 =>
    have inner := spendsExpressions limit
    { expression := inner.expression_step
      conditional := inner.conditional_step
      disjunction := inner.disjunction_step
      conjunction := inner.conjunction_step
      binary := inner.binary_step
      unary := inner.unary_step }

theorem spends_expression (limit : Nat) : Spends id (expression limit) :=
  (spendsExpressions limit).expression

end Descent

end MethodPatch
