/-
**Descending through expressions.**

What is read with expressions is read right if they are, and it begins with a token that is no part of
them: so it is enough that expressions of fewer tokens are read right. With a limit of eight for each token,
and some more for the constructs that begin with the same token, descending reads all of them as they are
read from a list of tokens.

* `Descent.reads_operand`: operands;
* `Descent.reads_expression`: **descending reads expressions**;
* `Descent.run_wholeExpression`: it comes to an end on every text.
-/

import MethodPatch.Proofs.Descent.Operators

namespace MethodPatch.Descent

open Parse

variable {finish : Finish} {tokens : List Lexeme} {bound limit count size : Nat}

/-! ### Parts of expressions -/

section Parts

variable {expression : Descent Expr}
  (reads : ∀ {tokens}, tokens.length < size → Reads finish tokens expression (Parse.expression finish tokens))

include reads

/-- One argument after the other. -/
theorem reads_argumentsRounds (within : tokens.length < size) (enough : tokens.length < count)
    (read : List Expr) (fewer : tokens.length < bound) :
    Reads finish tokens (rounds (argumentsRound expression) count read)
      (Parse.argumentsFrom finish bound read tokens fewer) := by
  induction count generalizing tokens read with
  | zero => exact absurd enough (Nat.not_lt_zero _)
  | succ count ih =>
    rw [rounds, argumentsRound, Parse.argumentsFrom]
    simp only [bind_assoc]
    refine (reads within).bind ?_
    rintro ⟨argument, rest, shorter⟩ -
    refine .accepts (fun others further position isNext => ?_) ?_
    · dsimp only at isNext
      subst isNext
      simp only [if_true, bind_assoc, pure_bind]
      simp only [List.length_cons] at shorter
      exact .takes (ih (by omega) (by omega) _ _)
    · simp only [Bool.false_eq_true, if_false, bind_assoc, pure_bind]
      refine (FollowsFrom.expectPunct .rparen).bind ?_
      rintro ⟨last, further⟩ -
      exact .pure rfl rfl

/-- Arguments in parentheses. -/
theorem reads_arguments (within : tokens.length ≤ size) (enough : tokens.length ≤ limit) :
    Reads finish tokens (Descent.arguments limit expression) (Parse.arguments finish tokens) := by
  rw [Descent.arguments, Parse.arguments]
  refine (FollowsFrom.expectPunct .lparen).bind ?_
  rintro ⟨inside, fewer⟩ -
  refine .accepts (fun last further position isNext => ?_) ?_
  · dsimp only at isNext
    subst isNext
    exact .takes (.pure rfl rfl)
  · exact reads_argumentsRounds reads (Nat.lt_of_lt_of_le fewer within) (Nat.lt_of_lt_of_le fewer enough)
      _ _

/-- What `new` creates. -/
theorem reads_creation (within : tokens.length ≤ size) (enough : tokens.length ≤ limit)
    (position : Position) :
    Reads finish tokens (Descent.creation limit expression position)
      (Parse.creation finish position tokens) := by
  rw [Descent.creation, Parse.creation]
  refine FollowsFrom.place.bind fun typePosition _ => ?_
  refine (reads_baseType enough).bind ?_
  rintro ⟨base, rest, fewer⟩ -
  refine .accepts (fun inside further place isNext => ?_) ?_
  · dsimp only at isNext
    subst isNext
    simp only [List.length_cons] at fewer
    refine .takes ((reads (by omega)).bind ?_)
    rintro ⟨length, middle, shorter⟩ -
    refine (FollowsFrom.expectPunct .rbracket).bind ?_
    rintro ⟨behind, last⟩ -
    dsimp only at shorter last
    refine (reads_emptyBrackets (by dsimp only; omega) _ _).bind ?_
    rintro ⟨element, rest⟩ -
    exact .pure rfl rfl
  · simp only [id, Bool.false_eq_true, if_false]
    split
    · exact .throws _
    · refine (reads_arguments reads (Nat.le_of_lt (Nat.lt_of_lt_of_le fewer within))
        (Nat.le_of_lt (Nat.lt_of_lt_of_le fewer enough))).bind ?_
      rintro ⟨arguments, last, shorter⟩ -
      exact .pure rfl rfl

/-- A primary expression. -/
theorem reads_primary (within : tokens.length ≤ size) (enough : tokens.length ≤ limit) :
    Reads finish tokens (Descent.primary limit expression) (Parse.primary finish tokens) := by
  rw [Descent.primary]
  rcases tokens with _ | ⟨⟨token, position⟩, rest⟩
  · rw [Parse.primary.eq_def]
    cases finish with
    | ok ending => exact .places rfl (.takes_end (.throw _))
    | error error => exact .places_fault rfl
  · rw [Parse.primary.eq_def]
    refine .of_token fun isToken => .places rfl (.takes ?_)
    dsimp only
    cases isLiteral : Parse.literal? token with
    | some found =>
      cases found with
      | ok value => exact .pure rfl rfl
      | error fault => exact .throw _
    | none =>
      simp only [List.length_cons] at within enough
      cases token with
      | keyword word =>
        cases word with
        | newWord =>
          simp only
          rw [← bind_pure (Descent.creation limit expression position)]
          refine (reads_creation reads (Nat.le_of_lt within) (Nat.le_of_lt enough) position).bind ?_
          rintro ⟨created, last, shorter⟩ -
          exact .pure rfl rfl
        | thisWord => exact .pure rfl rfl
        | _ => exact .throw _
      | name name =>
        refine .accepts (fun inside further place isNext => ?_) (.pure rfl rfl)
        refine (reads_arguments reads (Nat.le_of_lt within) (Nat.le_of_lt enough)).bind ?_
        rintro ⟨arguments, last, shorter⟩ -
        exact .pure rfl rfl
      | punct mark =>
        cases mark with
        | lparen =>
          refine (reads within).bind ?_
          rintro ⟨inner, middle, shorter⟩ -
          refine (FollowsFrom.expectPunct .rparen).bind ?_
          rintro ⟨last, further⟩ -
          exact .pure rfl rfl
        | _ => exact .throw _
      | endOfInput => exact absurd rfl isToken
      | _ => exact .throw _

omit reads in
/-- An operator behind an operand, where neither a member nor an index comes next. -/
theorem reads_updated {token : Token} (looked : look finish tokens = .ok token)
    (notDot : token ≠ .punct .dot) (notBracket : token ≠ .punct .lbracket) (object : Expr)
    (fewer : tokens.length < bound) :
    Reads finish tokens (updated object) (Parse.operandFrom finish bound object tokens fewer) := by
  rw [updated, Parse.operandFrom, looked]
  refine .looks looked ?_
  cases token with
  | punct mark =>
    obtain ⟨position, behind, rfl⟩ := eq_cons_of_look looked (by simp)
    have isNoDot : mark ≠ .dot := fun same => notDot (congrArg Token.punct same)
    have isNoBracket : mark ≠ .lbracket := fun same => notBracket (congrArg Token.punct same)
    simp only [ok_bind, nextPunct?, if_neg isNoDot, if_neg isNoBracket]
    cases Parse.updateOp? mark with
    | none => exact .pure rfl rfl
    | some op =>
      cases object.isAssignable with
      | false =>
        simp only [Bool.not_false, if_true]
        exact .places rfl (.throws _)
      | true => exact .takes (.pure rfl rfl)
  | _ =>
    rw [nextPunct?_of_look looked (by simp)]
    exact .pure rfl rfl

/-- Members, indices and calls behind an expression, and an operator behind them. -/
theorem reads_operandFrom (within : tokens.length ≤ size) (limited : tokens.length ≤ limit)
    (enough : tokens.length < count) (object : Expr) (fewer : tokens.length < bound) :
    Reads finish tokens (rounds (memberRound limit expression) count object >>= updated)
      (Parse.operandFrom finish bound object tokens fewer) := by
  induction count generalizing tokens object with
  | zero => exact absurd enough (Nat.not_lt_zero _)
  | succ count ih =>
    rw [rounds, memberRound]
    simp only [bind_assoc]
    cases looked : look finish tokens with
    | error error =>
      rw [Parse.operandFrom, looked]
      exact .asks_fault looked
    | ok token =>
      refine .asks looked ?_
      by_cases isDot : token = .punct .dot
      · subst isDot
        obtain ⟨position, behind, rfl⟩ := eq_cons_of_look looked (by simp)
        rw [Parse.operandFrom, looked]
        simp only [decide_true, if_true, bind_assoc, ok_bind, nextPunct?]
        simp only [List.length_cons] at within enough limited
        refine .takes (FollowsFrom.place.bind fun place _ => ?_)
        refine FollowsFrom.expectName.bind ?_
        rintro ⟨name, rest, shorter⟩ -
        refine .accepts (fun inside further _ isNext => ?_) ?_
        · simp only [if_true, bind_assoc, pure_bind]
          dsimp only at isNext shorter
          refine (reads_arguments reads (by omega) (by omega)).bind ?_
          rintro ⟨arguments, last, last_fewer⟩ -
          dsimp only at last_fewer ⊢
          exact ih (by omega) (by omega) (by omega) _ _
        · simp only [Bool.false_eq_true, if_false, pure_bind]
          exact ih (by omega) (by omega) (by omega) _ _
      · simp only [isDot, decide_false, Bool.false_eq_true, if_false, bind_assoc]
        refine .asks looked ?_
        by_cases isBracket : token = .punct .lbracket
        · subst isBracket
          obtain ⟨position, behind, rfl⟩ := eq_cons_of_look looked (by simp)
          rw [Parse.operandFrom, looked]
          simp only [decide_true, if_true, bind_assoc, ok_bind, pure_bind, nextPunct?, reduceCtorEq,
            if_false]
          simp only [List.length_cons] at within enough limited
          refine .places rfl (.takes ((reads within).bind ?_))
          rintro ⟨index, rest, shorter⟩ -
          refine (FollowsFrom.expectPunct .rbracket).bind ?_
          rintro ⟨last, further⟩ -
          dsimp only at shorter further ⊢
          exact ih (by omega) (by omega) (by omega) _ _
        · simp only [isBracket, decide_false, Bool.false_eq_true, if_false, pure_bind]
          exact reads_updated looked isDot isBracket object fewer

/-- An operand. -/
theorem reads_operand (within : tokens.length ≤ size) (enough : tokens.length ≤ limit) :
    Reads finish tokens (Descent.operand limit expression) (Parse.operand finish tokens) := by
  rw [Descent.operand, Parse.operand]
  refine (reads_primary reads within enough).bind ?_
  rintro ⟨first, rest, fewer⟩ -
  exact reads_operandFrom reads (Nat.le_of_lt (Nat.lt_of_lt_of_le fewer within))
    (Nat.le_of_lt (Nat.lt_of_lt_of_le fewer enough)) (Nat.lt_of_lt_of_le fewer enough) _ _

end Parts

/-! ### Expressions -/

theorem leastNumber?_of_look {token : Token} (looked : look finish tokens = .ok token) :
    Parse.leastNumber? tokens = Descent.leastNumber? token := by
  rcases tokens with _ | ⟨⟨found, position⟩, rest⟩
  · cases finish with
    | ok ending =>
      cases looked
      rfl
    | error error => cases looked
  · cases looked
    cases found <;> rfl

/-- Descending up to a limit reads expressions: eight for each token are enough, and a little more for what
begins with the same token. -/
structure ReadsExpressions (limit : Nat) : Prop where
  expression {finish : Finish} {tokens : List Lexeme} : 8 * tokens.length + 6 ≤ limit →
    Reads finish tokens (Descent.expression limit) (Parse.expression finish tokens)
  conditional {finish : Finish} {tokens : List Lexeme} : 8 * tokens.length + 5 ≤ limit →
    Reads finish tokens (Descent.conditional limit) (Parse.conditional finish tokens)
  disjunction {finish : Finish} {tokens : List Lexeme} : 8 * tokens.length + 4 ≤ limit →
    Reads finish tokens (Descent.disjunction limit) (climb finish 0 tokens)
  conjunction {finish : Finish} {tokens : List Lexeme} : 8 * tokens.length + 3 ≤ limit →
    Reads finish tokens (Descent.conjunction limit) (climb finish LogicalOp.and.precedence tokens)
  binary {finish : Finish} {tokens : List Lexeme} {least : Nat} : 1 ≤ least →
    8 * tokens.length + 2 ≤ limit →
    Reads finish tokens (Descent.binary limit least) (climb finish (least + 2) tokens)
  unary {finish : Finish} {tokens : List Lexeme} : 8 * tokens.length + 1 ≤ limit →
    Reads finish tokens (Descent.unary limit) (Parse.unary finish tokens)

namespace ReadsExpressions

variable (reads : ReadsExpressions limit)

include reads

theorem expression_step (enough : 8 * tokens.length + 6 ≤ limit + 1) :
    Reads finish tokens (Descent.expression (limit + 1)) (Parse.expression finish tokens) := by
  rw [Parse.expression]
  refine FollowsFrom.place.bind fun position _ => ?_
  refine (reads.conditional (by omega)).bind ?_
  rintro ⟨target, rest, fewer⟩ -
  refine FollowsFrom.peek.bind fun token looked => ?_
  cases token with
  | punct mark =>
    obtain ⟨place, behind, rfl⟩ := eq_cons_of_look looked (by simp)
    simp only [id, nextPunct?]
    cases Parse.assignOp? mark with
    | none => exact .pure rfl rfl
    | some op =>
      cases target.isAssignable with
      | false =>
        simp only [Bool.not_false, if_true]
        exact .places rfl (.throws _)
      | true =>
        simp only [List.length_cons] at fewer
        refine .takes ((reads.expression (by omega)).bind ?_)
        rintro ⟨value, last, shorter⟩ -
        exact .pure rfl rfl
  | _ =>
    dsimp only at looked
    rw [nextPunct?_of_look looked (by simp)]
    exact .pure rfl rfl

theorem conditional_step (enough : 8 * tokens.length + 5 ≤ limit + 1) :
    Reads finish tokens (Descent.conditional (limit + 1)) (Parse.conditional finish tokens) := by
  rw [Parse.conditional]
  refine FollowsFrom.place.bind fun position _ => ?_
  refine (reads.disjunction (by omega)).bind ?_
  rintro ⟨test, rest, fewer⟩ -
  refine .accepts (fun behind further place isNext => ?_) (.pure rfl rfl)
  dsimp only at isNext
  subst isNext
  simp only [List.length_cons] at fewer
  refine .takes ((reads.expression (by omega)).bind ?_)
  rintro ⟨first, middle, shorter⟩ -
  refine (FollowsFrom.expectPunct .colon).bind ?_
  rintro ⟨other, last⟩ -
  dsimp only at shorter last
  refine (reads.conditional (by dsimp only; omega)).bind ?_
  rintro ⟨second, remaining, least⟩ -
  exact .pure rfl rfl

theorem disjunction_step (enough : 8 * tokens.length + 4 ≤ limit + 1) :
    Reads finish tokens (Descent.disjunction (limit + 1)) (climb finish 0 tokens) := by
  have inner {others : List Lexeme} (isFewer : others.length < tokens.length) :
      Reads finish others (Descent.conjunction limit) (climb finish (LogicalOp.or.precedence + 1) others) :=
    reads.conjunction (by omega)
  rw [climb_split (Nat.zero_le LogicalOp.and.precedence)]
  refine (reads.conjunction (by omega)).bind ?_
  rintro ⟨left, rest, fewer⟩ read
  have stops : Stops (LogicalOp.or.precedence + 1) rest := stops_of_climb read
  rw [climbFrom_loosest]
  exact reads_logicalRounds inner (Nat.le_of_lt fewer) (by omega) left stops fewer

theorem conjunction_step (enough : 8 * tokens.length + 3 ≤ limit + 1) :
    Reads finish tokens (Descent.conjunction (limit + 1))
      (climb finish LogicalOp.and.precedence tokens) := by
  have inner {others : List Lexeme} (isFewer : others.length < tokens.length) :
      Reads finish others (Descent.binary limit 1) (climb finish (LogicalOp.and.precedence + 1) others) :=
    reads.binary (Nat.le_refl 1) (by omega)
  rw [climb_split (Nat.le_succ LogicalOp.and.precedence)]
  refine (reads.binary (Nat.le_refl 1) (by omega)).bind ?_
  rintro ⟨left, rest, fewer⟩ read
  have stops : Stops (LogicalOp.and.precedence + 1) rest := stops_of_climb read
  exact reads_logicalRounds inner (Nat.le_of_lt fewer) (by omega) left stops fewer

theorem binary_step {least : Nat} (isLevel : 1 ≤ least) (enough : 8 * tokens.length + 2 ≤ limit + 1) :
    Reads finish tokens (Descent.binary (limit + 1) least) (climb finish (least + 2) tokens) := by
  rw [climb]
  refine (reads.unary (by omega)).bind ?_
  rintro ⟨left, rest, fewer⟩ -
  have inner {others : List Lexeme} {level : Nat} (isLevel : 1 ≤ level)
      (isFewer : others.length < tokens.length) :
      Reads finish others (Descent.binary limit level) (climb finish (level + 2) others) :=
    reads.binary isLevel (by omega)
  exact reads_binaryRounds isLevel inner (Nat.le_of_lt fewer) (by omega) (by omega) left fewer

/-- Where only a fault is left, no operand is read. -/
theorem unary_fault {error : SourceError} (enough : 1 ≤ limit) :
    Reads (.error error) [] (Descent.unary limit) (.error error : Reading (Parsed 0 Expr)) := by
  have nothing : Parse.unary (.error error) [] = .error error := by
    rw [Parse.unary]
    rfl
  have here : Reads (.error error) [] (Descent.unary limit) (Parse.unary (.error error) []) :=
    reads.unary enough
  rwa [nothing] at here

theorem operand_step (enough : 8 * tokens.length + 1 ≤ limit + 1) :
    Reads finish tokens (Descent.operand limit (Descent.expression limit))
      (Parse.operand finish tokens) := by
  have inner {others : List Lexeme} (isFewer : others.length < tokens.length) :
      Reads finish others (Descent.expression limit) (Parse.expression finish others) :=
    reads.expression (by omega)
  exact reads_operand inner (Nat.le_refl _) (by omega)

section Unary

variable {mark : Punct} {place : Position} {behind : List Lexeme}
  (enough : 8 * (behind.length + 1) + 1 ≤ limit + 1)

include enough

/-- An operator that changes its operand. -/
theorem unary_update {op : UpdateOp} (isUpdate : Parse.updateOp? mark = some op) :
    Reads finish (⟨.punct mark, place⟩ :: behind) (Descent.unary (limit + 1))
      (Parse.unary finish (⟨.punct mark, place⟩ :: behind)) := by
  rw [Parse.unary]
  refine FollowsFrom.place.bind fun position _ => .looks rfl ?_
  simp only [nextPunct?, isUpdate]
  refine .takes ((reads.unary (by omega)).bind ?_)
  rintro ⟨target, rest, fewer⟩ -
  cases target.isAssignable with
  | false => exact .throw _
  | true => exact .pure rfl rfl

/-- Any other operator but a minus sign. -/
theorem unary_operator {op : UnaryOp} (isUpdate : Parse.updateOp? mark = none)
    (isUnary : Parse.unaryOp? mark = some op) :
    Reads finish (⟨.punct mark, place⟩ :: behind) (Descent.unary (limit + 1))
      (Parse.unary finish (⟨.punct mark, place⟩ :: behind)) := by
  rw [Parse.unary]
  refine FollowsFrom.place.bind fun position _ => .looks rfl ?_
  simp only [nextPunct?, isUpdate, isUnary]
  refine .takes ((reads.unary (by omega)).bind ?_)
  rintro ⟨argument, rest, fewer⟩ -
  exact .pure rfl rfl

/-- A minus sign, before the magnitude of a least number or another operand. -/
theorem unary_minus : Reads finish (⟨.punct .minus, place⟩ :: behind) (Descent.unary (limit + 1))
    (Parse.unary finish (⟨.punct .minus, place⟩ :: behind)) := by
  rw [Parse.unary]
  refine FollowsFrom.place.bind fun position _ => .looks rfl ?_
  simp only [nextPunct?, Parse.updateOp?, Parse.unaryOp?, if_true]
  refine .takes (FollowsFrom.peek.bind fun found looked => ?_)
  simp only [id, leastNumber?_of_look looked]
  cases isLeast : Descent.leastNumber? found with
  | some value =>
    obtain ⟨position, rest, rfl⟩ := eq_cons_of_look looked (by rintro rfl; cases isLeast)
    exact .takes (.pure rfl rfl)
  | none =>
    refine (reads.unary (by omega)).bind ?_
    rintro ⟨argument, rest, fewer⟩ -
    exact .pure rfl rfl

/-- A parenthesis, which may begin a cast. -/
theorem unary_paren : Reads finish (⟨.punct .lparen, place⟩ :: behind) (Descent.unary (limit + 1))
    (Parse.unary finish (⟨.punct .lparen, place⟩ :: behind)) := by
  rw [Parse.unary]
  refine FollowsFrom.place.bind fun position _ => .looks rfl ?_
  simp only [nextPunct?, Parse.updateOp?, Parse.unaryOp?, reduceCtorEq, if_false, if_true]
  refine follows_castHead (by omega) ?_ ?_ (reads.operand_step enough)
  · rintro type ⟨inside, fewer⟩
    refine (reads.unary (by dsimp only; omega)).bind ?_
    rintro ⟨argument, rest, shorter⟩ -
    exact .pure rfl rfl
  · rintro type error rfl
    exact (reads.unary_fault (by omega)).fails

/-- Any other punctuator. -/
theorem unary_punct (isUpdate : Parse.updateOp? mark = none) (isUnary : Parse.unaryOp? mark = none)
    (notMinus : mark ≠ .minus) (notParen : mark ≠ .lparen) :
    Reads finish (⟨.punct mark, place⟩ :: behind) (Descent.unary (limit + 1))
      (Parse.unary finish (⟨.punct mark, place⟩ :: behind)) := by
  rw [Parse.unary]
  refine FollowsFrom.place.bind fun position _ => .looks rfl ?_
  simp only [nextPunct?, isUpdate, isUnary, if_neg notMinus, if_neg notParen]
  exact reads.operand_step enough

end Unary

theorem unary_step (enough : 8 * tokens.length + 1 ≤ limit + 1) :
    Reads finish tokens (Descent.unary (limit + 1)) (Parse.unary finish tokens) := by
  obtain ⟨mark, place, behind, rfl⟩ | ⟨noMark, -⟩ := nextPunct?_cases tokens
  · simp only [List.length_cons] at enough
    cases isUpdate : Parse.updateOp? mark with
    | some op => exact reads.unary_update enough isUpdate
    | none =>
      cases isUnary : Parse.unaryOp? mark with
      | some op => exact reads.unary_operator enough isUpdate isUnary
      | none =>
        by_cases isMinus : mark = .minus
        · exact isMinus ▸ reads.unary_minus enough
        · by_cases isParen : mark = .lparen
          · exact isParen ▸ reads.unary_paren enough
          · exact reads.unary_punct enough isUpdate isUnary isMinus isParen
  · rw [Parse.unary, noMark]
    refine FollowsFrom.place.bind fun position isPlace => ?_
    cases looked : look finish tokens with
    | error error =>
      obtain ⟨rfl, rfl⟩ := eq_nil_of_look looked
      cases isPlace
    | ok token =>
      refine .looks looked ?_
      cases token with
      | punct mark =>
        obtain ⟨place, behind, rfl⟩ := eq_cons_of_look looked (by simp)
        cases noMark
      | _ => exact reads.operand_step enough

end ReadsExpressions

/-- **Descending reads expressions**, up to any limit that is large enough for their tokens. -/
theorem readsExpressions : (limit : Nat) → ReadsExpressions limit
  | 0 =>
    { expression := fun enough => absurd enough (Nat.not_succ_le_zero _)
      conditional := fun enough => absurd enough (Nat.not_succ_le_zero _)
      disjunction := fun enough => absurd enough (Nat.not_succ_le_zero _)
      conjunction := fun enough => absurd enough (Nat.not_succ_le_zero _)
      binary := fun _ enough => absurd enough (Nat.not_succ_le_zero _)
      unary := fun enough => absurd enough (Nat.not_succ_le_zero _) }
  | limit + 1 =>
    have reads := readsExpressions limit
    { expression := reads.expression_step
      conditional := reads.conditional_step
      disjunction := reads.disjunction_step
      conjunction := reads.conjunction_step
      binary := reads.binary_step
      unary := reads.unary_step }

theorem reads_expression (enough : 8 * tokens.length + 6 ≤ limit) :
    Reads finish tokens (Descent.expression limit) (Parse.expression finish tokens) :=
  (readsExpressions limit).expression enough

/-- Descending through a whole text comes to an end, and it reads the expression that is parsed. -/
theorem run_wholeExpression (source : String)
    (enough : 8 * ((lexemes source).items.length + 1) ≤ limit) :
    ∃ behind, (wholeExpression limit).run.run (.ofText source) = some (Expr.parse source, behind) := by
  have isLeft := Lexer.left_ofText source
  rcases whole : lexemes source with ⟨tokens, finish⟩
  rw [whole] at enough isLeft
  have follows : Follows finish tokens (wholeExpression limit) (Expr.parse source) id fun _ => [] := by
    rw [wholeExpression, Expr.parse, whole]
    refine (reads_expression (by dsimp only at enough; omega)).bind ?_
    rintro ⟨read, rest, fewer⟩ -
    cases looked : look finish rest with
    | error error =>
      simp only [looked]
      exact .asks_fault looked
    | ok token =>
      simp only [looked, ok_bind]
      refine .asks looked ?_
      cases token with
      | endOfInput =>
        rcases rest with _ | ⟨lexeme, rest⟩
        · exact .pure rfl rfl
        · exact .of_token fun isToken => absurd (Except.ok.inj looked) isToken
      | _ =>
        refine .refuses fun found seen => ?_
        rfl
  obtain ⟨behind, ran, -⟩ := follows _ isLeft
  exact ⟨behind, ran.trans (congrArg (fun read => some (read, behind)) (congrFun Except.map_id _))⟩

end MethodPatch.Descent
