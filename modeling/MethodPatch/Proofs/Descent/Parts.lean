/-
**Descending through parts of statements.**

The parts of a statement are read by descending as they are read from a list of tokens, and so are the
statements that need no other statement and declare nothing.

* `Descent.reads_expressionList`, `Descent.reads_declarator`, …: parts of statements;
* `Descent.reads_expressionStatement`, `Descent.reads_returnStatement`, …: statements without parts.
-/

import MethodPatch.Proofs.Descent.Expr
import MethodPatch.Syntax.Descent.Stmt

namespace MethodPatch.Descent

open Parse

variable {finish : Finish} {tokens : List Lexeme} {bound limit count : Nat}

/-! ### Ends and lists -/

/-- The semicolon behind a statement. -/
theorem follows_endStatement (fewer : tokens.length < bound) :
    Follows finish tokens Descent.endStatement (Parse.endStatement finish bound tokens fewer)
      (fun _ => ()) (·.1) := by
  rw [Descent.endStatement, Parse.endStatement]
  refine .accepts (fun rest shorter position isNext => ?_) ?_
  · subst isNext
    exact .takes (.pure rfl rfl)
  · simp only [Bool.false_eq_true, if_false]
    cases looked : look finish tokens with
    | error error => exact .asks_fault looked
    | ok token =>
      refine .asks looked ?_
      cases token with
      | endOfInput => exact .pure rfl rfl
      | _ => exact .refuses fun _ _ => rfl

/-- A test in parentheses. -/
theorem reads_test (enough : 8 * tokens.length ≤ limit) :
    Reads finish tokens (Descent.test limit) (Parse.test finish tokens) := by
  rw [Descent.test, Parse.test]
  refine (FollowsFrom.expectPunct .lparen).bind ?_
  rintro ⟨inside, fewer⟩ -
  refine (reads_expression (by dsimp only; omega)).bind ?_
  rintro ⟨test, middle, shorter⟩ -
  refine (FollowsFrom.expectPunct .rparen).bind ?_
  rintro ⟨rest, last⟩ -
  exact .pure rfl rfl

/-- Expressions between commas, behind others. -/
theorem reads_expressions {last : Punct} (enough : 8 * tokens.length + 6 ≤ limit)
    (counted : tokens.length ≤ count) (read : List Expr) (fewer : tokens.length < bound) :
    Reads finish tokens
      (do
        let first ← Descent.expression limit
        let expressions ← rounds (expressionsRound limit) count (first :: read)
        endList last
        return expressions)
      (expressionsFrom finish last bound read tokens fewer) := by
  induction count generalizing tokens read with
  | zero =>
    rw [expressionsFrom]
    refine (reads_expression enough).bind ?_
    rintro ⟨first, rest, shorter⟩ -
    exact absurd (Nat.lt_of_lt_of_le shorter counted) (Nat.not_lt_zero _)
  | succ count ih =>
    rw [expressionsFrom]
    refine (reads_expression enough).bind ?_
    rintro ⟨first, rest, shorter⟩ -
    rw [rounds, expressionsRound]
    simp only [bind_assoc]
    refine .accepts (fun others further position isNext => ?_) ?_
    · subst isNext
      simp only [if_true, bind_assoc, pure_bind]
      simp only [List.length_cons] at shorter
      exact .takes (ih (by omega) (by omega) _ _)
    · simp only [Bool.false_eq_true, if_false, pure_bind, endList, bind_assoc]
      refine .accepts (fun behind further position isNext => ?_) ?_
      · exact .pure rfl rfl
      · simp only [Bool.false_eq_true, if_false, bind_assoc]
        exact .refuses fun _ _ => rfl

theorem reads_expressionList {last : Punct} (enough : 8 * tokens.length + 6 ≤ limit)
    (fewer : tokens.length < bound) :
    Reads finish tokens (Descent.expressionList limit last)
      (expressionsFrom finish last bound [] tokens fewer) :=
  reads_expressions enough (by omega) [] fewer

/-- Checks read nothing. -/
theorem follows_checks (expressions : List Expr) :
    Follows finish tokens (expressions.forM fun expression => liftExcept (checkStatement expression))
      (expressions.forM checkStatement) id fun _ => tokens := by
  induction expressions with
  | nil => exact .pure rfl rfl
  | cons first others ih => exact (FollowsFrom.lift _).bind fun _ _ => ih

/-- Expressions that may stand alone. -/
theorem reads_statementExpressions {last : Punct} (enough : 8 * tokens.length + 6 ≤ limit)
    (fewer : tokens.length < bound) :
    Reads finish tokens (Descent.statementExpressions limit last)
      (Parse.statementExpressions finish last bound tokens fewer) := by
  rw [Descent.statementExpressions, Parse.statementExpressions]
  refine (reads_expressionList enough fewer).bind ?_
  rintro ⟨expressions, rest⟩ -
  exact (follows_checks expressions).bind fun _ _ => .pure rfl rfl

/-- The initial value behind a declared name. -/
theorem reads_initialValue (enough : 8 * tokens.length ≤ limit) (fewer : tokens.length < bound) :
    Reads finish tokens (Descent.initialValue limit) (Parse.initialValue finish bound tokens fewer) := by
  rw [Descent.initialValue, Parse.initialValue]
  refine .accepts (fun behind shorter position isNext => ?_) (.pure rfl rfl)
  subst isNext
  simp only [if_true]
  simp only [List.length_cons] at enough
  refine .takes (.accepts (fun inside further place isNext => ?_) ?_)
  · simp only [if_true]
    exact FollowsFrom.place.bind fun _ _ => .throws _
  · refine (reads_expression (by omega)).bind ?_
    rintro ⟨value, rest, shorter⟩ -
    exact .pure rfl rfl

/-- One variable of a declaration. -/
theorem reads_declarator (enough : 8 * tokens.length ≤ limit) (type : TypeRef) :
    Reads finish tokens (Descent.declarator limit type) (Parse.declarator finish type tokens) := by
  rw [Descent.declarator, Parse.declarator]
  refine FollowsFrom.place.bind fun position _ => ?_
  refine FollowsFrom.expectName.bind ?_
  rintro ⟨name, behind, fewer⟩ -
  refine (reads_brackets (by omega) type fewer).bind ?_
  rintro ⟨type, rest, shorter⟩ -
  refine (reads_initialValue (by omega) shorter).bind ?_
  rintro ⟨initial, last⟩ -
  exact .pure rfl rfl

/-! ### Parts of loops -/

/-- The test of a `for` loop. -/
theorem reads_loopTest (enough : 8 * tokens.length + 6 ≤ limit) (fewer : tokens.length < bound) :
    Reads finish tokens (Descent.loopTest limit) (Parse.loopTest finish bound tokens fewer) := by
  rw [Descent.loopTest, Parse.loopTest]
  refine .accepts (fun rest shorter position isNext => ?_) ?_
  · subst isNext
    simp only [if_true, pure_bind]
    exact .takesPunct (.pure rfl rfl)
  · simp only [Bool.false_eq_true, if_false, pure_bind]
    refine (reads_expression enough).bind ?_
    rintro ⟨test, middle, shorter⟩ -
    refine (FollowsFrom.expectPunct .semicolon).bind ?_
    rintro ⟨rest, last⟩ -
    exact .pure rfl rfl

/-- The updates of a `for` loop. -/
theorem reads_loopUpdates (enough : 8 * tokens.length + 6 ≤ limit) (fewer : tokens.length < bound) :
    Reads finish tokens (Descent.loopUpdates limit) (Parse.loopUpdates finish bound tokens fewer) := by
  rw [Descent.loopUpdates, Parse.loopUpdates]
  refine .accepts (fun rest shorter position isNext => ?_) ?_
  · subst isNext
    simp only [if_true, pure_bind]
    exact .takesPunct (.pure rfl rfl)
  · simp only [Bool.false_eq_true, if_false]
    refine (reads_statementExpressions enough fewer).bind ?_
    rintro ⟨updates, middle, shorter⟩ -
    refine (FollowsFrom.expectPunct .rparen).bind ?_
    rintro ⟨rest, last⟩ -
    exact .pure rfl rfl

/-! ### Statements -/

/-- `return`. -/
theorem reads_returnStatement {position : Position} {rest : List Lexeme}
    (enough : 8 * rest.length + 6 ≤ limit) (fewer : rest.length < bound) :
    Reads finish (⟨.keyword .returnWord, position⟩ :: rest) (Descent.returnStatement limit)
      (Parse.returnStatement finish position bound rest fewer) := by
  rw [Descent.returnStatement, Parse.returnStatement]
  refine .places rfl (.takesKeyword ?_)
  refine .accepts (fun behind shorter place isNext => ?_) ?_
  · simp only [if_true, pure_bind]
    exact (follows_endStatement fewer).bind fun last _ => .pure rfl rfl
  · simp only [Bool.false_eq_true, if_false]
    cases looked : look finish rest with
    | error error => exact .asks_fault looked
    | ok token =>
      refine .asks looked ?_
      by_cases isEnd : token = .endOfInput
      · simp only [isEnd, decide_true, if_true, ok_bind, pure_bind, beq_self_eq_true]
        exact (follows_endStatement fewer).bind fun last _ => .pure rfl rfl
      · have goesOn : (token == .endOfInput) = false := beq_false_of_ne isEnd
        simp only [isEnd, goesOn, decide_false, Bool.false_eq_true, if_false, ok_bind, pure_bind]
        refine (reads_expression enough).bind ?_
        rintro ⟨result, middle, shorter⟩ -
        exact (follows_endStatement _).bind fun last _ => .pure rfl rfl

/-- `break` and `continue`. -/
theorem reads_jumpStatement {depth : Nat} {word : Keyword} {jump : Position → Stmt} {inLoop : Bool}
    {token : Token} {position : Position} {rest : List Lexeme} (isLoop : inLoop = (depth != 0))
    (fewer : rest.length < bound) :
    Reads finish (⟨token, position⟩ :: rest) (Descent.jumpStatement depth word jump)
      (Parse.jumpStatement finish inLoop word jump position bound rest fewer) := by
  rw [Descent.jumpStatement, Parse.jumpStatement]
  refine .places rfl (.takes ?_)
  subst isLoop
  cases depth with
  | zero => exact .throws _
  | succ depth =>
    refine FollowsFrom.peek.bind fun next looked => ?_
    cases next with
    | name text => exact FollowsFrom.place.bind fun _ _ => .throw _
    | _ => exact (follows_endStatement _).bind fun last _ => .pure rfl rfl

/-- A semicolon. -/
theorem reads_emptyStatement {position : Position} {rest : List Lexeme} (fewer : rest.length < bound) :
    Reads finish (⟨.punct .semicolon, position⟩ :: rest) emptyStatement
      (.ok (.empty position, (⟨rest, fewer⟩ : Fewer bound))) :=
  .places rfl (.takes (.pure rfl rfl))

/-- An expression as a statement. -/
theorem reads_expressionStatement (enough : 8 * tokens.length + 6 ≤ limit) :
    Reads finish tokens (Descent.expressionStatement limit)
      (Parse.expressionStatement finish tokens) := by
  rw [Descent.expressionStatement, Parse.expressionStatement]
  refine FollowsFrom.place.bind fun position _ => ?_
  refine (reads_expression enough).bind ?_
  rintro ⟨expression, rest, fewer⟩ -
  refine (FollowsFrom.lift _).bind fun _ _ => ?_
  exact (follows_endStatement _).bind fun last _ => .pure rfl rfl

end MethodPatch.Descent
