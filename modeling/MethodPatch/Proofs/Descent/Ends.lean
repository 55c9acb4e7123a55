/-
**Descending comes to an end.**

Every text is read: with a limit in proportion to the number of its tokens descending comes to what parsing
comes to, so that calls and rounds of loops nest no deeper. Every statement and every expression spends a
token. A look ahead that finds nothing leaves the lexer as it was. And a loop goes on only if it has spent
a token.

* `Descent.spends_statement`: statements spend a token;
* `Descent.Turns`: every loop goes on with fewer tokens only;
* `Descent.castHead_restores`, `Descent.startsDeclaration_restores`, `Descent.dottedRound_restores`: looking
  ahead;
* `Descent.descending_ends`: **descending comes to an end on every text**.
-/

import MethodPatch.Proofs.Descent.Spending
import MethodPatch.Proofs.Descent.Stmt

namespace MethodPatch.Descent

variable {α β : Type} {whole : Lexemes} {spent : Prop}

/-! ### Parts of statements -/

theorem advances_endStatement : Advances id endStatement fun _ => False := by
  refine .of_leads fun whole => leads_branch ?_ (leads_branch ?_ ?_)
  · exact leads_taken nofun fun _ => .pure fun _ within => within.weaken False.elim
  · exact .pure fun _ holds => holds.1
  · exact leads_next.bind fun _ => leads_refuse _

theorem spends_test (limit : Nat) : Spends id (test limit) := by
  refine .of_leads fun whole => (spends_expectPunct .lparen).leads.bind fun _ => ?_
  refine ((spends_expression limit).last (.inr trivial)).bind fun test => ?_
  exact ((spends_expectPunct .rparen).last trivial).bind fun _ => .pure fun _ within => within

theorem shrinks_expressions (limit : Nat) : Shrinks id (expressionsRound limit) := by
  refine fun read => .of_leads fun whole => leads_branch ?_ (.pure fun _ within => within)
  refine leads_taken nofun fun _ => ((spends_expression limit).last trivial).bind fun more => ?_
  exact .pure fun _ within => within

theorem advances_endList (mark : Punct) : Advances id (endList mark) fun _ => False := by
  refine .of_leads fun whole => leads_branch (.pure fun _ holds => holds.1) ?_
  exact leads_next.bind fun _ => leads_refuse _

theorem spends_expressionList (limit : Nat) (last : Punct) : Spends id (expressionList limit last) := by
  refine .of_leads fun whole => (spends_expression limit).leads.bind fun first => ?_
  refine ((advances_rounds (shrinks_expressions limit) limit _).last (.inr trivial)).bind
    fun expressions => ?_
  exact ((advances_endList last).last trivial).bind fun _ => .pure fun _ within => within

/-- Checks spend nothing. -/
theorem leads_checks {before : Lexer → Prop} (expressions : List Expr) :
    Leads before (expressions.forM fun expression => liftExcept (Parse.checkStatement expression))
      fun _ => before := by
  induction expressions with
  | nil => exact .pure fun _ isBefore => isBefore
  | cons first others ih => exact (Leads.lift _).bind fun _ => ih

theorem spends_statementExpressions (limit : Nat) (last : Punct) :
    Spends id (statementExpressions limit last) := by
  refine .of_leads fun whole => (spends_expressionList limit last).leads.bind fun expressions => ?_
  exact (leads_checks expressions).bind fun _ => .pure fun _ within => within.weaken .inr

theorem advances_initialValue (limit : Nat) : Advances id (initialValue limit) fun _ => False := by
  refine .of_leads fun whole => leads_branch ?_ (.pure fun _ within => within)
  refine leads_taken nofun fun _ => leads_branch ?_ ?_
  · exact leads_place_holds.bind fun _ => .throws _
  · exact ((spends_expression limit).last trivial).bind fun value =>
      .pure fun _ within => within.weaken False.elim

theorem spends_declarator (limit : Nat) (type : TypeRef) : Spends id (declarator limit type) := by
  refine .of_leads fun whole => leads_place.bind fun position => ?_
  refine spends_expectName.leads.bind fun name => ?_
  refine ((advances_rounds shrinks_brackets limit type).last (.inr trivial)).bind fun type => ?_
  exact ((advances_initialValue limit).last trivial).bind fun initial => .pure fun _ within => within

theorem spends_loopTest (limit : Nat) : Spends id (loopTest limit) := by
  refine .of_leads fun whole => ?_
  have closes (test : Option Expr) {spent : Prop} : Leads (Lexer.Within whole spent)
      (expectPunct .semicolon >>= fun _ => pure test) fun _ => Lexer.Within whole True :=
    (spends_expectPunct .semicolon).leads.bind fun _ => .pure fun _ within => within.weaken .inr
  refine leads_branch ?_ ?_
  · simp only [pure_bind]
    exact (closes none).require fun _ holds => holds.1
  · simp only [pure_bind]
    exact (spends_expression limit).leads.bind fun test => closes (some test)

theorem spends_loopUpdates (limit : Nat) : Spends id (loopUpdates limit) := by
  refine .of_leads fun whole => ?_
  have closes (updates : List Expr) {spent : Prop} : Leads (Lexer.Within whole spent)
      (expectPunct .rparen >>= fun _ => pure updates) fun _ => Lexer.Within whole True :=
    (spends_expectPunct .rparen).leads.bind fun _ => .pure fun _ within => within.weaken .inr
  refine leads_branch ?_ ?_
  · simp only [pure_bind]
    exact (closes []).require fun _ holds => holds.1
  · exact (spends_statementExpressions limit .rparen).leads.bind fun updates => closes updates

/-! ### Statements without parts -/

theorem spends_returnStatement (limit : Nat) : Spends id (returnStatement limit) := by
  refine .of_leads fun whole => leads_place.bind fun position => ?_
  refine ((spends_expectKeyword .returnWord).leads.relax fun _ _ within => within.weaken .inr).bind
    fun _ => ?_
  have bare : Leads (Lexer.Within whole True) (endStatement >>= fun _ => pure (Stmt.ret none position))
      fun _ => Lexer.Within whole True :=
    (advances_endStatement.last trivial).bind fun _ => .pure fun _ within => within
  refine leads_branch ?_ ?_
  · simp only [pure_bind, if_true]
    exact bare.require fun _ holds => holds.1
  · refine leads_comes.bind fun isEnd => Leads.require ?_ fun _ within => within.1
    cases isEnd with
    | true => exact bare
    | false =>
      refine ((spends_expression limit).last trivial).bind fun result => ?_
      exact (advances_endStatement.last trivial).bind fun _ => .pure fun _ within => within

/-- A jump spends its keyword. -/
theorem leads_jumpStatement (depth : Nat) (word : Keyword) (jump : Position → Stmt) :
    Leads (Holds whole spent (.keyword word)) (jumpStatement depth word jump) fun _ =>
      Lexer.Within whole True := by
  refine leads_place_holds.bind fun position => leads_taken nofun fun _ => ?_
  dsimp only
  split
  · exact .throws _
  · refine leads_peek.bind fun next => ?_
    split
    · exact leads_place_holds.bind fun _ => .throw _
    · refine Leads.require ?_ fun _ holds => holds.1
      exact (advances_endStatement.last trivial).bind fun _ => .pure fun _ within => within

theorem leads_emptyStatement :
    Leads (Holds whole spent (.punct .semicolon)) emptyStatement fun _ => Lexer.Within whole True :=
  leads_place_holds.bind fun _ => leads_taken nofun fun _ => .pure fun _ within => within

theorem spends_throwStatement (limit : Nat) : Spends id (throwStatement limit) := by
  refine .of_leads fun whole => leads_place.bind fun position => ?_
  refine (spends_expectKeyword .throwWord).leads.bind fun _ => ?_
  refine ((spends_expression limit).last (.inr trivial)).bind fun thrown => ?_
  exact (advances_endStatement.last trivial).bind fun _ => .pure fun _ within => within

theorem spends_expressionStatement (limit : Nat) : Spends id (expressionStatement limit) := by
  refine .of_leads fun whole => leads_place.bind fun position => ?_
  refine (spends_expression limit).leads.bind fun expression => (Leads.lift _).bind fun _ => ?_
  exact (advances_endStatement.last (.inr trivial)).bind fun _ => .pure fun _ within => within

/-! ### Noting -/

/-- Whatever descending leads to, it does while variables are noted. -/
theorem Leads.reading {before : Lexer → Prop} {act : Descent α} {after : α → Lexer → Prop}
    (here : Leads before act after) :
    Leads (fun state => before state.1) (Descent.reading act) fun answer state =>
      after answer state.1 := by
  rintro ⟨lexer, declared⟩ isBefore answer ⟨behind, noted⟩ ran
  change Option.map _ (act.run.run lexer) = _ at ran
  rcases first : act.run.run lexer with _ | ⟨found, middle⟩
  · rw [first] at ran
    cases ran
  · rw [first] at ran
    cases ran
    exact here lexer isBefore answer behind first

theorem Advances.reading {act : Descent α} {spends : α → Prop} (advances : Advances id act spends) :
    Advances Prod.fst (Descent.reading act) spends :=
  .of_leads fun _ => advances.leads.reading.relax fun _ _ within => within.weaken .inr

theorem leads_note {before : Lexer → Prop} (declaration : Declaration) :
    Leads (fun state => before state.1) (note declaration) fun _ state => before state.1 := by
  intro state isBefore _ _ ran
  cases ran
  exact isBefore

/-- If a token comes next, it is held. -/
theorem leads_branch_reading {token : Token} {there here : Composing α}
    {after : α → Lexer × Array Declaration → Prop}
    (isNext : Leads (fun state => Holds whole spent token state.1) there after)
    (isOther : Leads (fun state => state.1.Within whole spent) here after) :
    Leads (fun state => state.1.Within whole spent)
      (reading (comes token) >>= fun answer => if answer then there else here) after := by
  refine leads_comes.reading.bind fun answer => ?_
  cases answer with
  | true => exact isNext.require fun _ found => found.2 rfl
  | false => exact isOther.require fun _ found => found.1

theorem leads_taken_reading {token : Token} {onward : Token → Composing α}
    {after : α → Lexer × Array Declaration → Prop} (isToken : token ≠ .endOfInput)
    (behind : ∀ found, Leads (fun state => state.1.Within whole True) (onward found) after) :
    Leads (fun state => Holds whole spent token state.1) (reading next >>= onward) after := by
  have taken : Leads (Holds whole spent token) next fun _ => Lexer.Within whole True := by
    rw [← bind_pure next]
    exact leads_taken isToken fun _ => .pure fun _ within => within
  exact taken.reading.bind behind

/-! ### Declarations -/

theorem shrinks_declarators (limit : Nat) (type : TypeRef) :
    Shrinks Prod.fst (declaratorsRound limit type) := by
  refine fun read => .of_leads fun whole => (spends_declarator limit type).reading.leads.bind fun first => ?_
  refine (leads_note _).bind fun _ => leads_branch_reading ?_ ?_
  · exact leads_taken_reading nofun fun _ => .pure fun _ within => within
  · exact .pure fun _ within => within.weaken False.elim

theorem spends_declaration (limit : Nat) : Spends Prod.fst (declaration limit) := by
  refine .of_leads fun whole => leads_place.reading.bind fun position => leads_comes.reading.bind ?_
  have typed (isFinal : Bool) {spent : Prop} : Leads (fun state => state.1.Within whole spent)
      (do
        let type ← reading (typeRef limit)
        let declarators ← rounds (declaratorsRound limit type) limit []
        return Stmt.declare isFinal declarators position)
      fun _ state => state.1.Within whole True := by
    refine (spends_typeRef limit).reading.leads.bind fun type => ?_
    refine ((advances_rounds (shrinks_declarators limit type) limit []).last (.inr trivial)).bind
      fun declarators => ?_
    exact .pure fun _ within => within
  intro isFinal
  cases isFinal with
  | true =>
    refine Leads.require ?_ fun _ found => found.2 rfl
    exact leads_taken_reading nofun fun _ => typed true
  | false => exact (typed false).require fun _ found => found.1

theorem advances_loopStart (limit : Nat) : Advances Prod.fst (loopStart limit) fun _ => False := by
  refine .of_leads fun whole => leads_branch_reading (.pure fun _ holds => holds.1) ?_
  refine (advances_startsDeclaration limit).reading.leads.bind fun isDeclaration => ?_
  cases isDeclaration with
  | true =>
    exact (spends_declaration limit).leads.bind fun declared =>
      .pure fun _ within => within.weaken False.elim
  | false =>
    exact (spends_statementExpressions limit .semicolon).reading.leads.bind fun expressions =>
      .pure fun _ within => within.weaken False.elim

/-! ### Statements -/

section Parts

variable {statement : Composing Stmt} (spendsStatement : Spends Prod.fst statement) (limit : Nat)

include spendsStatement

omit limit in
theorem spends_substatement : Spends Prod.fst (substatement statement) := by
  refine .of_leads fun whole => leads_branch_reading ?_ ?_
  · exact Leads.any.bind fun _ => .throws _
  · refine spendsStatement.leads.bind fun inner => ?_
    dsimp only
    split
    · exact .throws _
    · exact .pure fun _ within => within.weaken .inr

theorem spends_if : Spends Prod.fst (ifStatement limit statement) := by
  refine .of_leads fun whole => leads_place.reading.bind fun position => ?_
  refine (spends_expectKeyword .ifWord).reading.leads.bind fun _ => ?_
  refine ((spends_test limit).reading.last (.inr trivial)).bind fun test => ?_
  refine ((spends_substatement spendsStatement).last trivial).bind fun first => ?_
  refine leads_branch_reading (leads_taken_reading nofun fun _ => ?_) (.pure fun _ within => within)
  exact ((spends_substatement spendsStatement).last trivial).bind fun second =>
    .pure fun _ within => within

theorem spends_while : Spends Prod.fst (whileStatement limit statement) := by
  refine .of_leads fun whole => leads_place.reading.bind fun position => ?_
  refine (spends_expectKeyword .whileWord).reading.leads.bind fun _ => ?_
  refine ((spends_test limit).reading.last (.inr trivial)).bind fun test => ?_
  exact ((spends_substatement spendsStatement).last trivial).bind fun body =>
    .pure fun _ within => within

theorem spends_do : Spends Prod.fst (doStatement limit statement) := by
  refine .of_leads fun whole => leads_place.reading.bind fun position => ?_
  refine (spends_expectKeyword .doWord).reading.leads.bind fun _ => ?_
  refine ((spends_substatement spendsStatement).last (.inr trivial)).bind fun body => ?_
  refine ((spends_expectKeyword .whileWord).reading.last trivial).bind fun _ => ?_
  refine ((spends_test limit).reading.last trivial).bind fun test => ?_
  exact (advances_endStatement.reading.last trivial).bind fun _ => .pure fun _ within => within

theorem spends_for : Spends Prod.fst (forStatement limit statement) := by
  refine .of_leads fun whole => leads_place.reading.bind fun position => ?_
  refine (spends_expectKeyword .forWord).reading.leads.bind fun _ => ?_
  refine ((spends_expectPunct .lparen).reading.last (.inr trivial)).bind fun _ => ?_
  refine ((advances_loopStart limit).last trivial).bind fun start => ?_
  refine ((spends_expectPunct .semicolon).reading.last trivial).bind fun _ => ?_
  refine ((spends_loopTest limit).reading.last trivial).bind fun test => ?_
  refine ((spends_loopUpdates limit).reading.last trivial).bind fun updates => ?_
  exact ((spends_substatement spendsStatement).last trivial).bind fun body =>
    .pure fun _ within => within

omit limit in
theorem shrinks_block : Shrinks Prod.fst (blockRound statement) := by
  refine fun read => .of_leads fun whole => ?_
  refine leads_branch_reading (.pure fun _ holds => holds.1) (leads_branch_reading ?_ ?_)
  · exact Leads.any.bind fun _ => .throw _
  · exact spendsStatement.leads.bind fun first => .pure fun _ within => within.weaken .inr

omit limit in
theorem shrinks_text : Shrinks Prod.fst (textRound statement) := by
  refine fun read => .of_leads fun whole => ?_
  refine leads_branch_reading (.pure fun _ holds => holds.1) ?_
  exact spendsStatement.leads.bind fun first => .pure fun _ within => within.weaken .inr

theorem spends_blockBody : Spends Prod.fst (blockBody limit statement) := by
  refine .of_leads fun whole => ?_
  refine (advances_rounds (shrinks_block spendsStatement) limit []).leads.bind fun body => ?_
  exact (spends_expectPunct .rbrace).reading.leads.bind fun _ =>
    .pure fun _ within => within.weaken .inr

theorem spends_block : Spends Prod.fst (block limit statement) := by
  refine .of_leads fun whole => leads_place.reading.bind fun position => ?_
  refine (spends_expectPunct .lbrace).reading.leads.bind fun _ => ?_
  exact ((spends_blockBody spendsStatement limit).last (.inr trivial)).bind fun body =>
    .pure fun _ within => within

end Parts

/-- A declaration or an expression spends a token. -/
theorem leads_plain (limit : Nat) : Leads (fun state => state.1.Within whole spent)
    (do
      if ← reading (startsDeclaration limit) then
        let declared ← declaration limit
        reading endStatement
        return declared
      else reading (expressionStatement limit))
    fun _ state => state.1.Within whole True := by
  refine (advances_startsDeclaration limit).reading.leads.bind fun isDeclaration => ?_
  cases isDeclaration with
  | true =>
    refine (spends_declaration limit).leads.bind fun declared => ?_
    exact (advances_endStatement.reading.last (.inr trivial)).bind fun _ =>
      .pure fun _ within => within
  | false =>
    exact (spends_expressionStatement limit).reading.leads.relax fun _ _ within => within.weaken .inr

/-- **Every statement spends a token.** -/
theorem spends_statement (limit depth : Nat) : Spends Prod.fst (statement limit depth) := by
  induction limit generalizing depth with
  | zero => exact spends_exhausted
  | succ limit ih =>
    refine .of_leads fun whole => leads_peek.reading.bind fun token => ?_
    have whatever {act : Composing Stmt} (spends : Spends Prod.fst act) :
        Leads (fun state => Holds whole False token state.1) act fun _ state =>
          state.1.Within whole True :=
      Leads.require (spends.leads.relax fun _ _ within => within.weaken .inr) fun _ holds => holds.1
    split
    · exact whatever (spends_if (ih depth) limit)
    · exact whatever (spends_while (ih _) limit)
    · exact whatever (spends_do (ih _) limit)
    · exact whatever (spends_for (ih _) limit)
    · exact whatever (spends_returnStatement limit).reading
    · exact (leads_jumpStatement depth .breakWord .breakLoop).reading
    · exact (leads_jumpStatement depth .continueWord .continueLoop).reading
    · exact whatever (spends_throwStatement limit).reading
    · exact whatever (spends_block (ih depth) limit)
    · exact leads_emptyStatement.reading
    · exact (leads_plain limit).require fun _ holds => holds.1

/-! ### Loops -/

/-- Every loop goes on with fewer tokens only. -/
structure Turns (limit : Nat) : Prop where
  dotted : Shrinks id dottedRound
  brackets : Shrinks id bracketsRound
  emptyBrackets : Shrinks id emptyBracketsRound
  arguments : Shrinks id (argumentsRound (Descent.expression limit))
  members : Shrinks id (memberRound limit (Descent.expression limit))
  binary (least : Nat) : Shrinks id (binaryRound limit (Descent.binary limit) least)
  conjunction : Shrinks id (logicalRound .and (Descent.binary limit 1))
  disjunction : Shrinks id (logicalRound .or (Descent.conjunction limit))
  expressions : Shrinks id (expressionsRound limit)
  declarators (type : TypeRef) : Shrinks Prod.fst (declaratorsRound limit type)
  block (depth : Nat) : Shrinks Prod.fst (blockRound (statement limit depth))
  text : Shrinks Prod.fst (textRound (statement limit 0))

theorem turns (limit : Nat) : Turns limit where
  dotted := shrinks_dotted
  brackets := shrinks_brackets
  emptyBrackets := shrinks_emptyBrackets
  arguments := shrinks_arguments (spends_expression limit)
  members := shrinks_members (spends_expression limit) limit
  binary := shrinks_binary (spendsExpressions limit).binary limit
  conjunction := shrinks_logical .and ((spendsExpressions limit).binary 1)
  disjunction := shrinks_logical .or (spendsExpressions limit).conjunction
  expressions := shrinks_expressions limit
  declarators := shrinks_declarators limit
  block depth := shrinks_block (spends_statement limit depth)
  text := shrinks_text (spends_statement limit 0)

/-! ### Coming back -/

/-- If there is no head of a cast, the lexer is as it was. -/
theorem castHead_restores (limit : Nat) (start : Lexer) :
    Leads (· = start) (castHead limit) fun answer lexer => answer = none → lexer = start := by
  refine .save fun saved isStart => Leads.any.bind fun _ => ?_
  have comesBack {before : Lexer → Prop} : Leads before (set saved >>= fun _ => pure none)
      fun (answer : Option TypeRef) lexer => answer = none → lexer = start :=
    (Leads.set saved).bind fun _ => .pure fun _ isSaved _ => isSaved.trans isStart
  have casts {before : Lexer → Prop} (type : TypeRef) : Leads before (pure (some type))
      fun answer lexer => answer = none → lexer = start :=
    .pure fun _ _ => nofun
  refine Leads.any.bind fun token => ?_
  dsimp only
  split
  · exact comesBack
  · refine Leads.any.bind fun type => ?_
    cases type with
    | error error => exact comesBack
    | ok type =>
      refine Leads.any.bind fun isClosed => ?_
      cases isClosed with
      | false => exact comesBack
      | true =>
        refine Leads.any.bind fun _ => ?_
        split
        · simp only [pure_bind, if_true]
          exact casts type
        · refine Leads.any.bind fun next => ?_
          simp only [pure_bind]
          split
          · exact casts type
          · exact comesBack

theorem peek_leaves (start : Lexer) : Leads (· = start) peek fun _ lexer => lexer = start.peek.2 := by
  rintro _ rfl answer behind ran
  exact (congrArg Prod.snd (Option.some.inj ran)).symm

/-- After looking for a declaration, the lexer is as it was after a look at the next token. -/
theorem startsDeclaration_restores (limit : Nat) (start : Lexer) :
    Leads (· = start) (startsDeclaration limit) fun _ lexer => lexer = start.peek.2 := by
  refine (peek_leaves start).bind fun token => ?_
  cases token with
  | name first =>
    refine .save fun saved isPeeked => ?_
    have comesBack {before : Lexer → Prop} (answer : Bool) :
        Leads before (set saved >>= fun _ => pure answer) fun _ lexer => lexer = start.peek.2 :=
      (Leads.set saved).bind fun _ => .pure fun _ isSaved => isSaved.trans isPeeked
    refine Leads.any.bind fun type => ?_
    cases type with
    | error error =>
      simp only [pure_bind]
      exact comesBack _
    | ok type =>
      refine Leads.any.bind fun next => ?_
      split
      all_goals
        simp only [pure_bind]
        exact comesBack _
  | _ => exact .pure fun _ isPeeked => isPeeked

/-- So it is at the end of a dotted name. -/
theorem dottedRound_restores (name : String) (start : Lexer) :
    Leads (· = start) (dottedRound name) fun answer lexer =>
      ¬ answer.GoesOn → lexer = start.peek.2 := by
  have looked : Leads (· = start) (sees .dot) fun _ lexer => lexer = start.peek.2 :=
    (peek_leaves start).bind fun _ => .pure fun _ isPeeked => isPeeked
  refine looked.bind fun isDot => ?_
  cases isDot with
  | false => exact .pure fun _ isPeeked _ => isPeeked
  | true =>
    refine .save fun saved isPeeked => Leads.any.bind fun _ => Leads.any.bind fun token => ?_
    cases token with
    | name part => exact .pure fun _ _ goesOn => absurd trivial goesOn
    | _ => exact (Leads.set saved).bind fun _ => .pure fun _ isSaved _ => isSaved.trans isPeeked

/-! ### The end -/

/-- **Descending comes to an end.** With a limit of eight for each token, and eight more, every text is read
as it is parsed, whatever variables were noted before; no larger limit makes a difference. Every expression
and every statement that is read spends a token. A look for a declaration, the head of a cast or one part more
of a dotted name that finds none leaves the lexer as it was, but for the token that it may hold after a look.
And every loop goes on with fewer tokens only. -/
theorem descending_ends :
    (∀ (source : String) (declared : Array Declaration) (limit : Nat),
      8 * ((lexemes source).items.length + 1) ≤ limit →
      (∃ behind, (wholeText limit).run.run (.ofText source, declared) =
        some ((Stmt.parse source).1, behind, declared ++ (Stmt.parse source).2)) ∧
      ∃ behind, (wholeExpression limit).run.run (.ofText source) =
        some (Expr.parse source, behind)) ∧
    (∀ limit, Spends id (expression limit) ∧ ∀ depth, Spends Prod.fst (statement limit depth)) ∧
    (∀ (limit : Nat) (lexer behind : Lexer),
      ((castHead limit).run.run lexer = some (.ok none, behind) → behind = lexer) ∧
      (∀ answer, (startsDeclaration limit).run.run lexer = some (.ok answer, behind) →
        behind = lexer.peek.2) ∧
      ∀ name last, (dottedRound name).run.run lexer = some (.ok (.done last), behind) →
        behind = lexer.peek.2) ∧
    (∀ (lexer : Lexer) (token : Token), lexer.held = some token → lexer.peek.2 = lexer) ∧
    ∀ limit, Turns limit := by
  refine ⟨fun source declared limit enough => ?_, fun limit => ?_, fun limit lexer behind => ?_,
    fun lexer token holds => ?_, turns⟩
  · exact ⟨run_wholeText source enough declared, run_wholeExpression source enough⟩
  · exact ⟨spends_expression limit, spends_statement limit⟩
  · refine ⟨fun ran => ?_, fun answer ran => ?_, fun name last ran => ?_⟩
    · exact castHead_restores limit lexer lexer rfl none behind ran rfl
    · exact startsDeclaration_restores limit lexer lexer rfl answer behind ran
    · exact dottedRound_restores name lexer lexer rfl (.done last) behind ran id
  · rw [Lexer.peek_of_holds holds]

/-- An assignment has four tokens. -/
theorem descending_ends_assignment : 8 * ((lexemes "x = y;").items.length + 1) ≤ 40 ∧
    (Stmt.parse "x = y;").1.isOk = true ∧
    ∃ behind, (wholeText 40).run.run (.ofText "x = y;", #[]) =
      some ((Stmt.parse "x = y;").1, behind, #[] ++ (Stmt.parse "x = y;").2) := by
  have enough : 8 * ((lexemes "x = y;").items.length + 1) ≤ 40 := by decide +kernel
  refine ⟨enough, by decide +kernel, ?_⟩
  exact (descending_ends.1 "x = y;" #[] 40 enough).1

end MethodPatch.Descent
