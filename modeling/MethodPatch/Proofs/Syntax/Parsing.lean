/-
**Expressions are read as they are written.**

A part of an expression stands in parentheses or is a single token, and a parenthesis around more
than one part begins no cast: an operator, a bracket or the end of the parenthesis is in the way, and
behind the parenthesis no operand follows. So each part is read by itself, whatever surrounds it, and
an expression is read from its parts.

* `Parse.IsRead`, `Parse.IsPart`: an expression is read from its tokens, alone or as a part;
* `Parse.unary_wrapped`: no part is taken for a cast;
* `Parse.isRead_of_isPrintable`: every expression that can be written is read from its tokens;
* `Expr.parse_print`: **an expression is read from its text.**
-/

import Mathlib.Logic.Basic
import MethodPatch.Proofs.Syntax.Reading

namespace MethodPatch

namespace Parse

variable {ending : Position} {behind : List Token} {tokens : List Lexeme}

/-! ### Operators and their marks -/

theorem joinOp?_compute (op : ComputeOp) : joinOp? op.mark = some (.binary (.compute op)) := by
  rcases op with op | op | op <;> cases op <;> rfl

theorem joinOp?_compare (comparison : Comparison) :
    joinOp? comparison.mark = some (.binary (.compare comparison)) := by
  cases comparison <;> rfl

theorem joinOp?_mark (op : JoinOp) : joinOp? op.mark = some op := by
  rcases op with (op | comparison) | op
  · exact joinOp?_compute op
  · exact joinOp?_compare comparison
  · cases op <;> rfl

theorem assignOp?_mark (op : Option ComputeOp) : assignOp? (assignMark op) = some op := by
  rcases op with _ | op | op | op <;> first | rfl | cases op <;> rfl

theorem updateOp?_mark (op : UpdateOp) : updateOp? op.mark = some op := by
  cases op <;> rfl

/-- An operand ends in front of an operator that joins it to another one. -/
theorem operandEnds_mark {mark : Punct} {op : JoinOp} (isOp : joinOp? mark = some op) :
    operandEnds (.punct mark) = true := by
  cases mark <;> first | rfl | cases isOp

/-- A target ends in front of the sign of an assignment. -/
theorem testEnds_mark {mark : Punct} {op : Option ComputeOp} (isOp : assignOp? mark = some op) :
    testEnds (.punct mark) = true := by
  cases mark <;> first | rfl | cases isOp

/-- Tokens that may stand behind a name in the parentheses of a cast. -/
def goesOnType (token : Token) : Bool :=
  token = .punct .dot || token = .punct .lbracket || token = .punct .rparen

theorem goesOnType_of_isOperator {mark : Punct}
    (isOperator : ((joinOp? mark).isSome || (assignOp? mark).isSome || (updateOp? mark).isSome) = true) :
    goesOnType (.punct mark) = false := by
  cases mark <;> first | rfl | cases isOperator

/-! ### Parentheses that begin no cast -/

/-- A part is a name, or begins with a token that begins an operand but no type. -/
theorem wrapped_cases (expression : Expr) :
    (∃ identifier, expression.wrapped = [.name identifier]) ∨
      ∃ first others, expression.wrapped = first :: others ∧ (startsType first).1 = false ∧
        startsOperand first = true ∧ ∀ mark, first = .punct mark → mark = .lparen := by
  cases expression with
  | name identifier position => exact .inl ⟨identifier, rfl⟩
  | this position => exact .inr ⟨_, _, rfl, rfl, rfl, nofun⟩
  | literal value position =>
    refine .inr ?_
    show ∃ first others, value.tokens = first :: others ∧ _
    cases value with
    | int value | long value =>
      rw [Literal.tokens, Literal.signed]
      split
      · exact ⟨_, _, rfl, rfl, rfl, nofun⟩
      · exact ⟨_, _, rfl, rfl, rfl, fun mark same => (Token.punct.inj same).symm⟩
    | boolean value => cases value <;> exact ⟨_, _, rfl, rfl, rfl, nofun⟩
    | _ => exact ⟨_, _, rfl, rfl, rfl, nofun⟩
  | _ => exact .inr ⟨_, _, rfl, rfl, rfl, fun mark same => (Token.punct.inj same).symm⟩

/-- The first token of a part begins an operand. -/
theorem startsOperand_wrapped (expression : Expr) (behind : List Token) :
    startsOperand (front (expression.wrapped ++ behind)) = true := by
  obtain ⟨identifier, isName⟩ | ⟨first, others, isFirst, _, isOperand, _⟩ := wrapped_cases expression
  · rw [isName]
    rfl
  · rw [isFirst]
    exact isOperand

/-- A part that a parenthesis begins with is no type in front of an operator. -/
theorem castHead_wrapped {part : Expr}
    (isTokens : tokens.map Lexeme.token = .punct .lparen :: (part.wrapped ++ behind))
    (noType : goesOnType (front behind) = false) :
    castHead (.ok ending) tokens = .ok none := by
  simp only [goesOnType, Bool.or_eq_false_iff, decide_eq_false_iff_not] at noType
  obtain ⟨⟨noDot, noBracket⟩, noParen⟩ := noType
  obtain ⟨identifier, isName⟩ | ⟨first, others, isFirst, noType, _⟩ := wrapped_cases part
  · rw [isName] at isTokens
    refine castHead_none_of_dotted [] isTokens noDot noBracket ?_
    rintro last rfl
    exact absurd rfl noParen
  · rw [isFirst] at isTokens
    exact castHead_none_of_front isTokens noType

/-- A part with a member that a parenthesis begins with is no type in front of an operator, or where
no operand follows the parenthesis. -/
theorem castHead_member {object : Expr} {identifier : String}
    (isTokens : tokens.map Lexeme.token =
      .punct .lparen :: (object.wrapped ++ .punct .dot :: .name identifier :: behind))
    (noDot : front behind ≠ .punct .dot) (noBracket : front behind ≠ .punct .lbracket)
    (noOperand : ∀ last, behind = .punct .rparen :: last → startsOperand (front last) = false) :
    castHead (.ok ending) tokens = .ok none := by
  obtain ⟨first, isName⟩ | ⟨first, others, isFirst, noType, _⟩ := wrapped_cases object
  · rw [isName] at isTokens
    exact castHead_none_of_dotted [identifier] isTokens noDot noBracket noOperand
  · rw [isFirst] at isTokens
    exact castHead_none_of_front isTokens noType

/-- An expression in parentheses is no type where no operand follows it. -/
theorem castHead_parenthesized {expression : Expr}
    (isTokens : tokens.map Lexeme.token = parenthesized expression.tokens ++ behind)
    (ends : startsOperand (front behind) = false) :
    castHead (.ok ending) tokens = .ok none := by
  have noOperand : ∀ last, .punct .rparen :: behind = .punct .rparen :: last →
      startsOperand (front last) = false := by
    rintro _ ⟨⟩
    exact ends
  rw [parenthesized, List.cons_append, List.append_assoc] at isTokens
  cases expression with
  | literal value position =>
    cases value with
    | int value | long value =>
      rw [Expr.tokens, Literal.tokens, Literal.signed] at isTokens
      split at isTokens <;> exact castHead_none_of_front isTokens rfl
    | boolean value => cases value <;> exact castHead_none_of_front isTokens rfl
    | _ => exact castHead_none_of_front isTokens rfl
  | name identifier position =>
    exact castHead_none_of_dotted [] isTokens (by rintro ⟨⟩) (by rintro ⟨⟩) noOperand
  | member object identifier position =>
    rw [Expr.tokens, List.append_assoc] at isTokens
    exact castHead_member isTokens (by rintro ⟨⟩) (by rintro ⟨⟩) noOperand
  | call callee method arguments position =>
    cases callee with
    | none => exact castHead_none_of_dotted [] isTokens (by rintro ⟨⟩) (by rintro ⟨⟩) (by rintro _ ⟨⟩)
    | some object =>
      rw [Expr.tokens, List.append_assoc] at isTokens
      exact castHead_member isTokens (by rintro ⟨⟩) (by rintro ⟨⟩) (by rintro _ ⟨⟩)
  | this | new | newArray | cast => exact castHead_none_of_front isTokens rfl
  | index array inside position =>
    simp only [Expr.tokens, Expr.wrap_tokens, List.append_assoc, List.cons_append,
      List.nil_append] at isTokens
    obtain ⟨identifier, isName⟩ | ⟨first, others, isFirst, noType, _⟩ := wrapped_cases array
    · rw [isName] at isTokens
      refine castHead_none_of_index isTokens fun closes => ?_
      have isOperand := startsOperand_wrapped inside
        (.punct .rbracket :: .punct .rparen :: behind)
      rw [closes] at isOperand
      cases isOperand
    · rw [isFirst] at isTokens
      exact castHead_none_of_front isTokens noType
  | assign target op value position =>
    rw [Expr.tokens, List.append_assoc] at isTokens
    exact castHead_wrapped isTokens (goesOnType_of_isOperator (by simp [assignOp?_mark]))
  | update op before target position =>
    cases before with
    | true => exact castHead_none_of_front isTokens rfl
    | false =>
      rw [Expr.tokens, List.append_assoc] at isTokens
      exact castHead_wrapped isTokens (goesOnType_of_isOperator (by simp [updateOp?_mark]))
  | unary => exact castHead_none_of_front isTokens rfl
  | binary op left right position =>
    rw [Expr.tokens, List.append_assoc] at isTokens
    exact castHead_wrapped isTokens (goesOnType_of_isOperator (by simp [joinOp?_mark]))
  | logical op left right position =>
    rw [Expr.tokens, List.append_assoc] at isTokens
    exact castHead_wrapped isTokens (goesOnType_of_isOperator (by simp [joinOp?_mark]))
  | conditional | instanceOf =>
    rw [Expr.tokens, List.append_assoc] at isTokens
    exact castHead_wrapped isTokens rfl

/-! ### Parts -/

/-- An expression is read from its tokens. -/
def IsRead (expression : Expr) : Prop :=
  ∀ ⦃ending : Position⦄ ⦃behind : List Token⦄ ⦃tokens : List Lexeme⦄,
    tokens.map Lexeme.token = expression.tokens ++ behind → expressionEnds (front behind) = true →
    ReadsTo behind (·.unplaced = expression.unplaced) (Parse.expression (.ok ending) tokens)

/-- An expression is read from its tokens where it is a part of another one. -/
def IsPart (expression : Expr) : Prop :=
  ∀ ⦃ending : Position⦄ ⦃behind : List Token⦄ ⦃tokens : List Lexeme⦄,
    tokens.map Lexeme.token = expression.wrapped ++ behind → startsOperand (front behind) = false →
    ReadsTo behind (·.unplaced = expression.unplaced) (primary (.ok ending) tokens)

/-- A literal begins an operand, whether or not it has a sign. -/
theorem unary_literal {value : Literal}
    (isTokens : tokens.map Lexeme.token = value.tokens ++ behind) :
    unary (.ok ending) tokens = operand (.ok ending) tokens := by
  have single {token : Token} {others : List Token}
      (isFirst : tokens.map Lexeme.token = token :: others) (other : ∀ mark, token ≠ .punct mark) :
      unary (.ok ending) tokens = operand (.ok ending) tokens :=
    unary_of_front (by rwa [isFirst])
  cases value with
  | int value | long value =>
    rw [Literal.tokens, Literal.signed] at isTokens
    split at isTokens
    · exact single isTokens nofun
    · exact unary_of_paren isTokens (castHead_none_of_front isTokens rfl)
  | boolean value => cases value <;> exact single isTokens nofun
  | _ => exact single isTokens nofun

/-- **No part is taken for a cast.** -/
theorem unary_wrapped {part : Expr} (isTokens : tokens.map Lexeme.token = part.wrapped ++ behind)
    (ends : startsOperand (front behind) = false) :
    unary (.ok ending) tokens = operand (.ok ending) tokens := by
  by_cases compound : part.isCompound = true
  · rw [Expr.wrapped, Expr.wrap, if_pos compound] at isTokens
    exact unary_of_paren isTokens (castHead_parenthesized isTokens ends)
  · cases part with
    | literal => exact unary_literal isTokens
    | name | this => exact unary_of_front (by rw [isTokens]; exact nofun)
    | _ => exact absurd rfl compound

/-- A part is read in front of a token where operands end. -/
theorem unary_part {part : Expr} (isPart : IsPart part)
    (isTokens : tokens.map Lexeme.token = part.wrapped ++ behind)
    (ends : operandEnds (front behind) = true) :
    ReadsTo behind (·.unplaced = part.unplaced) (unary (.ok ending) tokens) := by
  have noOperand := startsOperand_of_operandEnds ends
  rw [unary_wrapped isTokens noOperand, operand]
  refine (isPart isTokens noOperand).bind fun read rest fewer isRest same => ?_
  exact operandFrom_ends isRest ends same

/-- A part is read in front of a token where joined operands end. -/
theorem climb_part {part : Expr} {least : Nat} (isPart : IsPart part)
    (isTokens : tokens.map Lexeme.token = part.wrapped ++ behind)
    (ends : joinEnds (front behind) = true) :
    ReadsTo behind (·.unplaced = part.unplaced) (climb (.ok ending) least tokens) :=
  climb_of_unary (unary_part isPart isTokens (operandEnds_of_joinEnds ends)) ends

/-- A part is read in front of a token where a test ends. -/
theorem conditional_part {part : Expr} (isPart : IsPart part)
    (isTokens : tokens.map Lexeme.token = part.wrapped ++ behind)
    (ends : testEnds (front behind) = true) :
    ReadsTo behind (·.unplaced = part.unplaced) (conditional (.ok ending) tokens) :=
  conditional_of_climb (climb_part isPart isTokens (joinEnds_of_testEnds ends)) ends

/-- A part is read in front of a token where expressions end. -/
theorem expression_part {part : Expr} (isPart : IsPart part)
    (isTokens : tokens.map Lexeme.token = part.wrapped ++ behind)
    (ends : expressionEnds (front behind) = true) :
    ReadsTo behind (·.unplaced = part.unplaced) (expression (.ok ending) tokens) :=
  expression_of_conditional
    (conditional_part isPart isTokens (testEnds_of_expressionEnds ends)) ends

/-! ### Expressions of one token -/

theorem literal?_name (text : String) : literal? (.name text) = none := rfl

theorem literal?_punct (mark : Punct) : literal? (.punct mark) = none := rfl

theorem literal?_newWord : literal? (.keyword .newWord) = none := rfl

/-- A literal is read from its token, at the place of the token. -/
theorem primary_placed {finish : Finish} {token : Token} {value : Literal}
    (isValue : literal? token = some (.ok value)) (position : Position) (rest : List Lexeme) :
    primary finish (⟨token, position⟩ :: rest) =
      .ok (.literal value position, ⟨rest, fewer_behind rest⟩) := by
  rw [primary.eq_def]
  simp only [isValue]
  rfl

theorem primary_literal {token : Token} {value : Literal} (isValue : literal? token = some (.ok value))
    (isTokens : tokens.map Lexeme.token = token :: behind) :
    ReadsTo behind (·.unplaced = .literal value .start) (primary (.ok ending) tokens) := by
  obtain ⟨position, rest, rfl, isRest⟩ := exists_lexeme isTokens
  rw [primary_placed isValue]
  exact .ok isRest rfl

/-- An expression in parentheses is read as a part. -/
theorem primary_parenthesized {inside : Expr} (isRead : IsRead inside)
    (isTokens : tokens.map Lexeme.token = parenthesized inside.tokens ++ behind) :
    ReadsTo behind (·.unplaced = inside.unplaced) (primary (.ok ending) tokens) := by
  rw [parenthesized, List.cons_append, List.append_assoc] at isTokens
  obtain ⟨position, rest, rfl, isRest⟩ := exists_lexeme isTokens
  rw [primary.eq_def]
  simp only [literal?_punct]
  refine (isRead isRest rfl).bind fun read middle fewer isMiddle same => ?_
  obtain ⟨_, last, rfl, isLast⟩ := exists_lexeme isMiddle
  exact .after (expectPunct_next ..) (.ok isLast same)

/-- An expression in parentheses is read in front of a token where operands end. -/
theorem unary_parenthesized {inside : Expr} (isRead : IsRead inside)
    (isTokens : tokens.map Lexeme.token = parenthesized inside.tokens ++ behind)
    (ends : operandEnds (front behind) = true) :
    ReadsTo behind (·.unplaced = inside.unplaced) (unary (.ok ending) tokens) := by
  have noCast : castHead (.ok ending) tokens = .ok none :=
    castHead_parenthesized isTokens (startsOperand_of_operandEnds ends)
  rw [unary_of_paren isTokens noCast, operand]
  refine (primary_parenthesized isRead isTokens).bind fun read last fewer isLast same => ?_
  exact operandFrom_ends isLast ends same

theorem isPart_name {identifier : String} {position : Position} :
    IsPart (.name identifier position) := by
  intro ending behind tokens isTokens ends
  have noParen : front behind ≠ .punct .lparen := by
    intro isParen
    rw [isParen] at ends
    cases ends
  obtain ⟨position, rest, rfl, isRest⟩ := exists_lexeme isTokens
  rw [primary.eq_def]
  simp only [literal?_name]
  refine .after (accept_other ?_) (.ok isRest rfl)
  rw [isRest]
  exact noParen

theorem isPart_this {position : Position} : IsPart (.this position) := by
  intro ending behind tokens isTokens ends
  obtain ⟨position, rest, rfl, isRest⟩ := exists_lexeme isTokens
  rw [primary.eq_def]
  exact .ok isRest rfl

/-! ### Literals -/

/-- A token that is a literal, or would be one but for a fault, is read as an operand. -/
theorem unary_of_literal? {token : Token} {answer : Except SyntaxFault Literal}
    (isAnswer : literal? token = some answer) (position : Position) (rest : List Lexeme) :
    unary (.ok ending) (⟨token, position⟩ :: rest) = operand (.ok ending) (⟨token, position⟩ :: rest) := by
  refine unary_of_front fun mark same => ?_
  rw [show token = .punct mark from same] at isAnswer
  cases isAnswer

/-- A literal in front of a token where operands end is an operand. -/
theorem unary_placed {token : Token} {value : Literal} (isValue : literal? token = some (.ok value))
    (position : Position) {rest : List Lexeme}
    (ends : operandEnds (front (rest.map Lexeme.token)) = true) :
    ReadsTo (rest.map Lexeme.token) (· = .literal value position)
      (unary (.ok ending) (⟨token, position⟩ :: rest)) := by
  rw [unary_of_literal? isValue, operand, primary_placed isValue]
  exact operandFrom_ends rfl ends rfl

/-- A token that would be a literal but for a fault is refused. -/
theorem unary_fault {token : Token} {fault : SyntaxFault} (isFault : literal? token = some (.error fault))
    (position : Position) (rest : List Lexeme) :
    unary (.ok ending) (⟨token, position⟩ :: rest) = .error (malformed fault (some position)) := by
  rw [unary_of_literal? isFault, operand, primary.eq_def]
  simp only [isFault]
  rfl

/-- Behind a minus sign the magnitude of the least number of a type is that number. -/
theorem unary_least {place : Position} {size : Token} {value : Literal} {rest : List Lexeme}
    (isLeast : leastNumber? (⟨size, place⟩ :: rest) = some value) (position : Position) :
    ReadsTo (rest.map Lexeme.token) (· = .literal value position)
      (unary (.ok ending) (⟨.punct .minus, position⟩ :: ⟨size, place⟩ :: rest)) := by
  rw [unary]
  simp only [nextPunct?, updateOp?, unaryOp?, isLeast, if_true]
  exact .after rfl (.after (look_ok _) (.ok rfl rfl))

/-- Behind a minus sign any other number is made part of its opposite. -/
theorem unary_number {place : Position} {size : Token} {opposite value : Literal} {rest : List Lexeme}
    (notLeast : leastNumber? (⟨size, place⟩ :: rest) = none)
    (isSize : literal? size = some (.ok opposite)) (isOpposite : negated? opposite = some value)
    (position : Position) (ends : operandEnds (front (rest.map Lexeme.token)) = true) :
    ReadsTo (rest.map Lexeme.token) (· = .literal value position)
      (unary (.ok ending) (⟨.punct .minus, position⟩ :: ⟨size, place⟩ :: rest)) := by
  rw [unary]
  simp only [nextPunct?, updateOp?, unaryOp?, notLeast, if_true]
  refine .after rfl (.after (look_ok _) ((unary_placed isSize place ends).bind ?_))
  rintro read last fewer isLast rfl
  refine .ok isLast ?_
  rw [negation, isOpposite]

/-- A number is read from its tokens. -/
theorem primary_signed {token : Int → Token} {literal : Int → Literal} {value least most : Int}
    (isTokens : tokens.map Lexeme.token = Literal.signed token value ++ behind)
    (isLiteral : ∀ size ≤ most, literal? (token size) = some (.ok (literal size)))
    (isOpposite : ∀ size, negated? (literal size) = some (literal (-size)))
    (isLeast : ∀ size position rest, leastNumber? (⟨token size, position⟩ :: rest) =
      if size = -least then some (literal least) else none)
    (above : least ≤ value) (below : value ≤ most) (even : -least = most + 1) :
    ReadsTo behind (·.unplaced = .literal (literal value) .start) (primary (.ok ending) tokens) := by
  rw [Literal.signed] at isTokens
  split at isTokens
  · exact primary_literal (isLiteral value below) isTokens
  · next negative =>
    obtain ⟨_, _, rfl, isInside⟩ := exists_lexeme isTokens
    obtain ⟨position, _, rfl, isSize⟩ := exists_lexeme isInside
    obtain ⟨place, closing, rfl, isClosing⟩ := exists_lexeme isSize
    have isNumber : ReadsTo (.punct .rparen :: behind) (· = .literal (literal value) position)
        (unary (.ok ending) (⟨.punct .minus, position⟩ :: ⟨token (-value), place⟩ :: closing)) := by
      rw [← show closing.map Lexeme.token = .punct .rparen :: behind from isClosing]
      by_cases isLast : value = least
      · subst isLast
        exact unary_least (by rw [isLeast, if_pos rfl]) position
      · refine unary_number ?_ (isLiteral (-value) (by omega)) ?_ position (by rw [isClosing]; rfl)
        · rw [isLeast, if_neg (by omega)]
        · rw [isOpposite, Int.neg_neg]
    rw [primary.eq_def]
    simp only [literal?_punct]
    refine (expression_of_unary isNumber rfl).bind ?_
    rintro read middle fewer isMiddle rfl
    obtain ⟨_, last, rfl, isLast⟩ := exists_lexeme isMiddle
    exact .after (expectPunct_next ..) (.ok isLast rfl)

theorem literal?_int (size : Int) (small : size ≤ 0x7fffffff) :
    literal? (.int size) = some (.ok (.int (Int32.ofInt size))) :=
  congrArg some (if_pos small)

theorem literal?_long (size : Int) (small : size ≤ 0x7fffffffffffffff) :
    literal? (.long size) = some (.ok (.long (Int64.ofInt size))) :=
  congrArg some (if_pos small)

theorem isPart_literal {value : Literal} {position : Position} (printable : value.isPrintable = true) :
    IsPart (.literal value position) := by
  intro ending behind tokens isTokens ends
  cases value with
  | int value =>
    have below : value.toInt ≤ 0x7fffffff := value.toInt_le
    have found : ReadsTo behind _ (primary (.ok ending) tokens) :=
      primary_signed isTokens literal?_int (fun size => by rw [negated?, Int32.ofInt_neg])
        (fun size position rest => rfl) value.le_toInt below rfl
    rwa [Int32.ofInt_toInt] at found
  | long value =>
    have below : value.toInt ≤ 0x7fffffffffffffff := value.toInt_le
    have found : ReadsTo behind _ (primary (.ok ending) tokens) :=
      primary_signed isTokens literal?_long (fun size => by rw [negated?, Int64.ofInt_neg])
        (fun size position rest => rfl) value.le_toInt below rfl
    rwa [Int64.ofInt_toInt] at found
  | float | double => cases printable
  | char | string | null => exact primary_literal rfl isTokens
  | boolean value => cases value <;> exact primary_literal rfl isTokens

/-! ### Operators between parts -/

/-- Two parts with an operator between them are read as joined by it. -/
theorem climb_join (op : JoinOp) {left right : Expr} (leftPart : IsPart left)
    (rightPart : IsPart right)
    (isTokens : tokens.map Lexeme.token =
      left.wrapped ++ .punct op.mark :: (right.wrapped ++ behind))
    (ends : joinEnds (front behind) = true) :
    ReadsTo behind (fun read => ∃ first second, read = op.join first second ∧
      first.unplaced = left.unplaced ∧ second.unplaced = right.unplaced)
      (climb (.ok ending) 0 tokens) := by
  have leftEnds := operandEnds_mark (joinOp?_mark op)
  rw [climb]
  refine (unary_part leftPart isTokens leftEnds).bind fun first rest fewer isRest isLeft => ?_
  obtain ⟨_, others, rfl, isOthers⟩ := exists_lexeme isRest
  dsimp only
  rw [climbFrom]
  refine .after (look_ok _) ?_
  simp only [List.map_cons, front_cons, nextPunct?, joinOp?_mark, Nat.not_lt_zero, if_false]
  refine (climb_part rightPart isOthers ends).bind fun second last _ isLast isRight => ?_
  exact climbFrom_ends isLast ends ⟨first, second, rfl, isLeft, isRight⟩

theorem isRead_join (op : JoinOp) {left right : Expr} (leftPart : IsPart left)
    (rightPart : IsPart right) : IsRead (op.join left right) := by
  intro ending behind tokens isTokens ends
  have joined : (op.join left right).tokens = left.wrapped ++ .punct op.mark :: right.wrapped := by
    cases op <;> rfl
  rw [joined, List.append_assoc, List.cons_append] at isTokens
  have testing := testEnds_of_expressionEnds ends
  refine expression_of_conditional (conditional_of_climb ?_ testing) ends
  refine (climb_join op leftPart rightPart isTokens (joinEnds_of_testEnds testing)).mono ?_
  rintro _ ⟨first, second, rfl, isLeft, isRight⟩
  cases op with
  | binary op => exact congrArg₂ (Expr.binary op · · .start) isLeft isRight
  | logical op => exact congrArg₂ (Expr.logical op · · .start) isLeft isRight

theorem isRead_instanceOf {operand : Expr} {type : TypeRef} {position : Position}
    (isPart : IsPart operand) (printable : type.isPrintable = true) :
    IsRead (.instanceOf operand type position) := by
  intro ending behind tokens isTokens ends
  simp only [Expr.tokens, Expr.wrap_tokens, List.append_assoc, List.cons_append] at isTokens
  have testing := testEnds_of_expressionEnds ends
  have joining := joinEnds_of_testEnds testing
  refine expression_of_conditional (conditional_of_climb ?_ testing) ends
  rw [climb]
  refine (unary_part isPart isTokens rfl).bind fun read rest fewer isRest isOperand => ?_
  obtain ⟨_, others, rfl, isOthers⟩ := exists_lexeme isRest
  dsimp only
  rw [climbFrom]
  refine .after (look_ok _) ?_
  simp only [List.map_cons, front_cons, Nat.not_lt_zero, if_false]
  refine .after (expectKeyword_next ..) ?_
  have typeEnds := operandEnds_of_joinEnds joining
  refine (typeRef_tokens printable isOthers (ne_of_operandEnds rfl typeEnds)
    (ne_of_operandEnds rfl typeEnds)).bind fun found last _ isLast isType => ?_
  exact climbFrom_ends isLast joining (congrArg₂ (Expr.instanceOf · · .start) isOperand isType)

theorem isRead_assign {target value : Expr} {op : Option ComputeOp} {position : Position}
    (targetPart : IsPart target) (valuePart : IsPart value)
    (assignable : target.isAssignable = true) : IsRead (.assign target op value position) := by
  intro ending behind tokens isTokens ends
  simp only [Expr.tokens, Expr.wrap_tokens, List.append_assoc, List.cons_append] at isTokens
  have targetEnds := testEnds_mark (assignOp?_mark op)
  rw [Parse.expression]
  refine .place fun position => ?_
  refine (conditional_part targetPart isTokens targetEnds).bind fun read rest fewer isRest same => ?_
  obtain ⟨_, others, rfl, isOthers⟩ := exists_lexeme isRest
  have readable := (Expr.isAssignable_of_unplaced same).trans assignable
  refine .after (look_ok _) ?_
  simp only [nextPunct?, assignOp?_mark, readable]
  refine (expression_part valuePart isOthers ends).bind fun found last _ isLast isValue => ?_
  exact .ok isLast (congrArg₂ (Expr.assign · op · .start) same isValue)

theorem isRead_conditional {test first second : Expr} {position : Position}
    (testPart : IsPart test) (firstPart : IsPart first) (secondPart : IsPart second) :
    IsRead (.conditional test first second position) := by
  intro ending behind tokens isTokens ends
  simp only [Expr.tokens, Expr.wrap_tokens, List.append_assoc, List.cons_append] at isTokens
  have testing := testEnds_of_expressionEnds ends
  refine expression_of_conditional ?_ ends
  rw [conditional]
  refine .place fun position => ?_
  refine (climb_part testPart isTokens rfl).bind fun read rest fewer isRest isTest => ?_
  obtain ⟨_, behind, rfl, isBehind⟩ := exists_lexeme isRest
  refine .after (accept_next ..) ?_
  refine (expression_part firstPart isBehind rfl).bind fun one middle _ isMiddle isFirst => ?_
  obtain ⟨_, other, rfl, isOther⟩ := exists_lexeme isMiddle
  refine .after (expectPunct_next ..) ?_
  refine (conditional_part secondPart isOther testing).bind fun two last _ isLast isSecond => ?_
  have parts : Expr.conditional read.unplaced one.unplaced two.unplaced .start =
      .conditional test.unplaced first.unplaced second.unplaced .start := by
    rw [isTest, isFirst, isSecond]
  exact .ok isLast parts

/-! ### Operators in front of a part -/

/-- Only a number begins with a number. -/
theorem leastNumber?_wrapped {part : Expr} (noNumber : part.isNumber = false)
    (isTokens : tokens.map Lexeme.token = part.wrapped ++ behind) : leastNumber? tokens = none := by
  cases part with
  | literal value position =>
    cases value with
    | int | long | float | double => cases noNumber
    | boolean value => cases value <;> (obtain ⟨_, rest, rfl, _⟩ := exists_lexeme isTokens; rfl)
    | _ => obtain ⟨_, rest, rfl, _⟩ := exists_lexeme isTokens; rfl
  | _ => obtain ⟨_, rest, rfl, _⟩ := exists_lexeme isTokens; rfl

/-- A minus sign stays one in front of what is no number. -/
theorem negation_of_isNumber {operand : Expr} (noNumber : operand.isNumber = false)
    (position : Position) : negation operand position = .unary .minus operand position := by
  cases operand with
  | literal value place => cases value <;> first | rfl | cases noNumber
  | _ => rfl

theorem isRead_unary {op : UnaryOp} {operand : Expr} {position : Position} (isPart : IsPart operand)
    (noNumber : op = .minus → operand.isNumber = false) : IsRead (.unary op operand position) := by
  intro ending behind tokens isTokens ends
  simp only [Expr.tokens, Expr.wrap_tokens, List.cons_append] at isTokens
  have stops := operandEnds_of_expressionEnds ends
  refine expression_of_unary ?_ ends
  obtain ⟨_, rest, rfl, isRest⟩ := exists_lexeme isTokens
  have isOperand : ReadsTo behind _ (Parse.unary (.ok ending) rest) :=
    unary_part isPart isRest stops
  rw [Parse.unary]
  refine .place fun position => ?_
  cases op with
  | minus =>
    have isNone := leastNumber?_wrapped (noNumber rfl) isRest
    simp only [nextPunct?, UnaryOp.mark, updateOp?, unaryOp?, isNone, if_true]
    refine .after (look_ok _) (isOperand.bind fun read last _ isLast same => .ok isLast ?_)
    have stays := (Expr.isNumber_of_unplaced same).trans (noNumber rfl)
    rw [negation_of_isNumber stays]
    exact congrArg (Expr.unary .minus · .start) same
  | plus | not | complement =>
    simp only [nextPunct?, UnaryOp.mark, updateOp?, unaryOp?]
    exact isOperand.bind fun read last _ isLast same =>
      .ok isLast (congrArg (Expr.unary _ · .start) same)

theorem isRead_updateBefore {op : UpdateOp} {target : Expr} {position : Position}
    (isPart : IsPart target) (assignable : target.isAssignable = true) :
    IsRead (.update op true target position) := by
  intro ending behind tokens isTokens ends
  simp only [Expr.tokens, Expr.wrap_tokens, List.cons_append] at isTokens
  have stops := operandEnds_of_expressionEnds ends
  refine expression_of_unary ?_ ends
  obtain ⟨_, rest, rfl, isRest⟩ := exists_lexeme isTokens
  rw [Parse.unary]
  refine .place fun position => ?_
  simp only [nextPunct?, updateOp?_mark]
  refine (unary_part isPart isRest stops).bind fun read last _ isLast same => ?_
  have readable := (Expr.isAssignable_of_unplaced same).trans assignable
  simp only [readable]
  exact .ok isLast (congrArg (Expr.update op true · .start) same)

theorem isRead_cast {type : TypeRef} {operand : Expr} {position : Position}
    (printable : type.isPrintable = true) (isRead : IsRead operand) :
    IsRead (.cast type operand position) := by
  intro ending behind tokens isTokens ends
  simp only [Expr.tokens, List.append_assoc] at isTokens
  have stops := operandEnds_of_expressionEnds ends
  have paren : startsOperand (front (parenthesized operand.tokens ++ behind)) = true := rfl
  obtain ⟨found, ⟨rest, fewer⟩, isCast, isRest, isType⟩ :=
    castHead_type ending printable isTokens paren
  obtain ⟨_, _, rfl, _⟩ := exists_lexeme isTokens
  refine expression_of_unary ?_ ends
  rw [Parse.unary]
  refine .place fun position => ?_
  simp only [nextPunct?, updateOp?, unaryOp?, reduceCtorEq, if_true, if_false]
  refine .after isCast ?_
  dsimp only
  refine (unary_parenthesized isRead isRest stops).bind fun read last _ isLast same => ?_
  exact .ok isLast (congrArg₂ (Expr.cast · · .start) isType same)

/-! ### What follows a part -/

/-- Behind a part the expression goes on with what follows it. -/
theorem expression_of_part {part : Expr} {others : List Token} {holds : Expr → Prop}
    (isPart : IsPart part) (isTokens : tokens.map Lexeme.token = part.wrapped ++ others)
    (noOperand : startsOperand (front others) = false)
    (goesOn : ∀ ⦃read rest⦄ (fewer : rest.length < tokens.length),
      rest.map Lexeme.token = others → read.unplaced = part.unplaced →
      ReadsTo behind holds (operandFrom (.ok ending) tokens.length read rest fewer))
    (ends : expressionEnds (front behind) = true) :
    ReadsTo behind holds (expression (.ok ending) tokens) := by
  refine expression_of_unary ?_ ends
  rw [unary_wrapped isTokens noOperand, operand]
  exact (isPart isTokens noOperand).bind fun read rest fewer isRest same => goesOn fewer isRest same

theorem isRead_updateBehind {op : UpdateOp} {target : Expr} {position : Position}
    (isPart : IsPart target) (assignable : target.isAssignable = true) :
    IsRead (.update op false target position) := by
  intro ending behind tokens isTokens ends
  simp only [Expr.tokens, Expr.wrap_tokens, List.append_assoc, List.cons_append,
    List.nil_append] at isTokens
  have noOperand : startsOperand (.punct op.mark) = false := by cases op <;> rfl
  refine expression_of_part isPart isTokens noOperand (fun read rest fewer isRest same => ?_) ends
  have readable := (Expr.isAssignable_of_unplaced same).trans assignable
  have noDot : op.mark ≠ .dot := by cases op <;> exact nofun
  have noBracket : op.mark ≠ .lbracket := by cases op <;> exact nofun
  obtain ⟨_, last, rfl, isLast⟩ := exists_lexeme isRest
  rw [operandFrom]
  refine .after (look_ok _) ?_
  simp only [nextPunct?, if_neg noDot, if_neg noBracket, updateOp?_mark, readable]
  exact .ok isLast (congrArg (Expr.update op false · .start) same)

theorem isRead_member {object : Expr} {identifier : String} {position : Position}
    (isPart : IsPart object) : IsRead (.member object identifier position) := by
  intro ending behind tokens isTokens ends
  simp only [Expr.tokens, Expr.wrap_tokens, List.append_assoc, List.cons_append,
    List.nil_append] at isTokens
  have stops := operandEnds_of_expressionEnds ends
  refine expression_of_part isPart isTokens rfl (fun read rest fewer isRest same => ?_) ends
  obtain ⟨_, _, rfl, isName⟩ := exists_lexeme isRest
  obtain ⟨_, last, rfl, isLast⟩ := exists_lexeme isName
  rw [operandFrom]
  refine .after (look_ok _) ?_
  simp only [nextPunct?, if_true]
  have noParen : front (last.map Lexeme.token) ≠ .punct .lparen := by
    rw [isLast]
    exact ne_of_operandEnds rfl stops
  refine .place fun position => .after (expectName_next ..) (.after (accept_other noParen) ?_)
  exact operandFrom_ends isLast stops (congrArg (Expr.member · identifier .start) same)

theorem isRead_index {array inside : Expr} {position : Position} (arrayPart : IsPart array)
    (insidePart : IsPart inside) : IsRead (.index array inside position) := by
  intro ending behind tokens isTokens ends
  simp only [Expr.tokens, Expr.wrap_tokens, List.append_assoc, List.cons_append,
    List.nil_append] at isTokens
  have stops := operandEnds_of_expressionEnds ends
  refine expression_of_part arrayPart isTokens rfl (fun read rest fewer isRest isArray => ?_) ends
  obtain ⟨_, others, rfl, isOthers⟩ := exists_lexeme isRest
  rw [operandFrom]
  refine .after (look_ok _) ?_
  simp only [nextPunct?, reduceCtorEq, if_true, if_false]
  refine (expression_part insidePart isOthers rfl).bind fun index middle _ isMiddle isInside => ?_
  obtain ⟨_, last, rfl, isLast⟩ := exists_lexeme isMiddle
  refine .after (expectPunct_next ..) ?_
  exact operandFrom_ends isLast stops (congrArg₂ (Expr.index · · .start) isArray isInside)

/-! ### Arguments -/

/-- The tokens of arguments begin with those of the first one. -/
theorem exists_commas (first : Expr) (others : List Expr) :
    ∃ rest, commas (Expr.wrappedAll (first :: others)) = first.wrapped ++ rest := by
  cases others with
  | nil => exact ⟨[], (List.append_nil _).symm⟩
  | cons second more => exact ⟨_, rfl⟩

theorem argumentsFrom_tokens {bound : Nat} {first : Expr} {others read : List Expr}
    {fewer : tokens.length < bound} (areParts : ∀ argument ∈ first :: others, IsPart argument)
    (isTokens : tokens.map Lexeme.token =
      commas (Expr.wrappedAll (first :: others)) ++ .punct .rparen :: behind) :
    ReadsTo behind (fun found =>
      Expr.unplacedAll found = Expr.unplacedAll (read.reverse ++ first :: others))
      (argumentsFrom (.ok ending) bound read tokens fewer) := by
  induction others generalizing first read tokens with
  | nil =>
    have isPart := areParts first List.mem_cons_self
    rw [argumentsFrom]
    refine (expression_part isPart isTokens rfl).bind fun argument rest _ isRest same => ?_
    obtain ⟨_, last, rfl, isLast⟩ := exists_lexeme isRest
    refine .after (accept_other nofun) (.after (expectPunct_next ..) (.ok isLast ?_))
    simp [Expr.unplacedAll_eq_map, same]
  | cons second more ih =>
    obtain ⟨isPart, areMore⟩ := List.forall_mem_cons.mp areParts
    simp only [Expr.wrappedAll, commas, Expr.wrap_tokens, List.append_assoc,
      List.cons_append] at isTokens
    rw [argumentsFrom]
    refine (expression_part isPart isTokens rfl).bind fun argument rest _ isRest same => ?_
    obtain ⟨_, last, rfl, isLast⟩ := exists_lexeme isRest
    refine .after (accept_next ..) ((ih areMore isLast).mono fun found isFound => ?_)
    simp [isFound, Expr.unplacedAll_eq_map, same]

/-- Arguments are read from their tokens. -/
theorem arguments_tokens {values : List Expr} (areParts : ∀ value ∈ values, IsPart value)
    (isTokens : tokens.map Lexeme.token =
      parenthesized (commas (Expr.wrappedAll values)) ++ behind) :
    ReadsTo behind (fun found => Expr.unplacedAll found = Expr.unplacedAll values)
      (arguments (.ok ending) tokens) := by
  rw [parenthesized, List.cons_append, List.append_assoc] at isTokens
  obtain ⟨_, inside, rfl, isInside⟩ := exists_lexeme isTokens
  rw [arguments]
  refine .after (expectPunct_next ..) ?_
  cases values with
  | nil =>
    obtain ⟨_, last, rfl, isLast⟩ := exists_lexeme isInside
    exact .after (accept_next ..) (.ok isLast rfl)
  | cons first others =>
    refine .after (accept_other fun closes => ?_) (argumentsFrom_tokens areParts isInside)
    obtain ⟨rest, isFirst⟩ := exists_commas first others
    have isOperand := startsOperand_wrapped first (rest ++ ([Token.punct .rparen] ++ behind))
    rw [← List.append_assoc, ← isFirst, ← isInside, closes] at isOperand
    cases isOperand

theorem isRead_call {method : String} {values : List Expr} {position : Position}
    (areParts : ∀ value ∈ values, IsPart value) : IsRead (.call none method values position) := by
  intro ending behind tokens isTokens ends
  rw [Expr.tokens, List.cons_append] at isTokens
  refine expression_of_primary (unary_of_front (by rw [isTokens]; rintro mark ⟨⟩)) ?_ ends
  obtain ⟨_, rest, rfl, isRest⟩ := exists_lexeme isTokens
  obtain ⟨_, inside, rfl, _⟩ := exists_lexeme isRest
  rw [primary.eq_def]
  simp only [literal?_name]
  refine .after (accept_next ..) ((arguments_tokens areParts isRest).bind ?_)
  intro found last _ isLast same
  exact .ok isLast (congrArg (Expr.call none method · .start) same)

theorem isRead_callOn {object : Expr} {method : String} {values : List Expr} {position : Position}
    (isPart : IsPart object) (areParts : ∀ value ∈ values, IsPart value) :
    IsRead (.call (some object) method values position) := by
  intro ending behind tokens isTokens ends
  simp only [Expr.tokens, Expr.wrap_tokens, List.append_assoc, List.cons_append] at isTokens
  have stops := operandEnds_of_expressionEnds ends
  refine expression_of_part isPart isTokens rfl (fun read rest fewer isRest same => ?_) ends
  obtain ⟨_, _, rfl, isName⟩ := exists_lexeme isRest
  obtain ⟨_, last, rfl, isLast⟩ := exists_lexeme isName
  obtain ⟨_, inside, rfl, _⟩ := exists_lexeme isLast
  rw [operandFrom]
  refine .after (look_ok _) ?_
  simp only [nextPunct?, if_true]
  refine .place fun position => .after (expectName_next ..) (.after (accept_next ..) ?_)
  refine (arguments_tokens areParts isLast).bind fun found last _ isLast isFound => ?_
  exact operandFrom_ends isLast stops
    (congrArg₂ (fun object found => Expr.call (some object) method found .start) same isFound)

/-! ### Creations -/

/-- What `new` creates is read behind it. -/
theorem primary_creation {holds : Expr → Prop}
    (isTokens : tokens.map Lexeme.token = .keyword .newWord :: behind) {last : List Token}
    (isCreation : ∀ ⦃position rest⦄, rest.map Lexeme.token = behind →
      ReadsTo last holds (creation (.ok ending) position rest)) :
    ReadsTo last holds (primary (.ok ending) tokens) := by
  obtain ⟨position, rest, rfl, isRest⟩ := exists_lexeme isTokens
  rw [primary.eq_def]
  simp only [literal?_newWord]
  exact (isCreation isRest).bind fun created last _ isLast isSo => .ok isLast isSo

theorem isRead_new {type : TypeRef} {values : List Expr} {position : Position}
    (printable : type.isPrintable = true) (isClass : type.primitive?.isNone = true)
    (single : type.dimensions = 0) (areParts : ∀ value ∈ values, IsPart value) :
    IsRead (.new type values position) := by
  intro ending behind tokens isTokens ends
  simp only [Expr.tokens, List.append_assoc, List.cons_append] at isTokens
  refine expression_of_primary (unary_of_front (by rw [isTokens]; rintro mark ⟨⟩)) ?_ ends
  refine primary_creation isTokens fun position rest isRest => ?_
  rw [creation]
  refine .place fun place => ?_
  refine (baseType_tokens printable isRest (by rintro ⟨⟩)).bind ?_
  rintro _ rest _ isArguments rfl
  have noPrimitive : TypeRef.primitive? ⟨type.base, 0, some place⟩ = none := by
    unfold TypeRef.primitive? at isClass ⊢
    split at isClass
    · cases isClass
    · next isName => rw [isName]
  have noBracket : front (rest.map Lexeme.token) ≠ .punct .lbracket := by
    rw [isArguments]
    rintro ⟨⟩
  refine .after (accept_other noBracket) ?_
  simp only [noPrimitive]
  refine (arguments_tokens areParts isArguments).bind fun found last _ isLast same => .ok isLast ?_
  have isType : TypeRef.unplaced ⟨type.base, 0, some place⟩ = type.unplaced := by
    rw [TypeRef.unplaced, TypeRef.unplaced, single]
  exact congrArg₂ (Expr.new · · .start) isType same

theorem isRead_newArray {element : TypeRef} {length : Expr} {position : Position}
    (printable : element.isPrintable = true) (isPart : IsPart length) :
    IsRead (.newArray element length position) := by
  intro ending behind tokens isTokens ends
  simp only [Expr.tokens, Expr.wrap_tokens, List.append_assoc, List.cons_append] at isTokens
  have stops := operandEnds_of_expressionEnds ends
  refine expression_of_primary (unary_of_front (by rw [isTokens]; rintro mark ⟨⟩)) ?_ ends
  refine primary_creation isTokens fun position rest isRest => ?_
  rw [creation]
  refine .place fun place => ?_
  refine (baseType_tokens printable isRest (by rintro ⟨⟩)).bind ?_
  rintro _ rest _ isLength rfl
  obtain ⟨_, inside, rfl, isInside⟩ := exists_lexeme isLength
  refine .after (accept_next ..) ?_
  refine (expression_part isPart isInside rfl).bind fun read middle _ isMiddle same => ?_
  obtain ⟨_, last, rfl, isLast⟩ := exists_lexeme isMiddle
  refine .after (expectPunct_next ..) ?_
  refine (emptyBrackets_pairs isLast (ne_of_operandEnds rfl stops)).bind ?_
  rintro _ last _ isLast rfl
  have isType : TypeRef.unplaced ⟨element.base, 0 + UInt8.ofNat element.dimensions.toNat, some place⟩ =
      element.unplaced := by
    rw [TypeRef.unplaced, TypeRef.unplaced, UInt8.zero_add, UInt8.ofNat_toNat]
  exact .ok isLast (congrArg₂ (Expr.newArray · · .start) isType same)

/-! ### All expressions -/

/-- An expression that is read alone is read as a part. -/
theorem IsRead.isPart {expression : Expr} (isRead : IsRead expression)
    (printable : expression.isPrintable = true) : IsPart expression := by
  have compound (several : expression.isCompound = true) : IsPart expression := by
    intro ending behind tokens isTokens ends
    rw [Expr.wrapped, Expr.wrap, if_pos several] at isTokens
    exact primary_parenthesized isRead isTokens
  cases expression with
  | literal => exact isPart_literal printable
  | name => exact isPart_name
  | this => exact isPart_this
  | _ => exact compound rfl

/-- An expression of a single part is read alone as it is as a part. -/
theorem IsPart.isRead {expression : Expr} (isPart : IsPart expression)
    (single : expression.isCompound = false) : IsRead expression := by
  intro ending behind tokens isTokens ends
  refine expression_part isPart ?_ ends
  rw [Expr.wrapped, Expr.wrap, single]
  exact isTokens

mutual

/-- **Every expression that can be written is read from its tokens.** -/
theorem isRead_of_isPrintable : ∀ {expression : Expr}, expression.isPrintable = true →
    IsRead expression
  | .literal value position, printable => (isPart_literal printable).isRead rfl
  | .name identifier position, _ => isPart_name.isRead rfl
  | .this position, _ => isPart_this.isRead rfl
  | .member object identifier position, printable => by
    simp only [Expr.isPrintable, Bool.and_eq_true] at printable
    exact isRead_member ((isRead_of_isPrintable printable.1).isPart printable.1)
  | .call none method values position, printable => by
    simp only [Expr.isPrintable, Bool.and_eq_true] at printable
    exact isRead_call (areParts_of_allPrintable printable.2)
  | .call (some object) method values position, printable => by
    simp only [Expr.isPrintable, Bool.and_eq_true] at printable
    exact isRead_callOn ((isRead_of_isPrintable printable.1.1).isPart printable.1.1)
      (areParts_of_allPrintable printable.2)
  | .new type values position, printable => by
    simp only [Expr.isPrintable, Bool.and_eq_true, decide_eq_true_eq] at printable
    obtain ⟨⟨⟨isType, isClass⟩, single⟩, others⟩ := printable
    exact isRead_new isType isClass single (areParts_of_allPrintable others)
  | .newArray element length position, printable => by
    simp only [Expr.isPrintable, Bool.and_eq_true] at printable
    exact isRead_newArray printable.1 ((isRead_of_isPrintable printable.2).isPart printable.2)
  | .index array inside position, printable => by
    simp only [Expr.isPrintable, Bool.and_eq_true] at printable
    exact isRead_index ((isRead_of_isPrintable printable.1).isPart printable.1)
      ((isRead_of_isPrintable printable.2).isPart printable.2)
  | .assign target op value position, printable => by
    simp only [Expr.isPrintable, Bool.and_eq_true] at printable
    exact isRead_assign ((isRead_of_isPrintable printable.1.2).isPart printable.1.2)
      ((isRead_of_isPrintable printable.2).isPart printable.2)
      printable.1.1
  | .update op true target position, printable => by
    simp only [Expr.isPrintable, Bool.and_eq_true] at printable
    exact isRead_updateBefore ((isRead_of_isPrintable printable.2).isPart printable.2) printable.1
  | .update op false target position, printable => by
    simp only [Expr.isPrintable, Bool.and_eq_true] at printable
    exact isRead_updateBehind ((isRead_of_isPrintable printable.2).isPart printable.2) printable.1
  | .unary op operand position, printable => by
    simp only [Expr.isPrintable, Bool.and_eq_true, Bool.not_eq_true', Bool.and_eq_false_iff,
      decide_eq_false_iff_not] at printable
    exact isRead_unary ((isRead_of_isPrintable printable.1).isPart printable.1) fun isMinus =>
      printable.2.resolve_left (not_not_intro isMinus)
  | .binary op left right position, printable => by
    simp only [Expr.isPrintable, Bool.and_eq_true] at printable
    exact isRead_join (.binary op) ((isRead_of_isPrintable printable.1).isPart printable.1)
      ((isRead_of_isPrintable printable.2).isPart printable.2)
  | .logical op left right position, printable => by
    simp only [Expr.isPrintable, Bool.and_eq_true] at printable
    exact isRead_join (.logical op) ((isRead_of_isPrintable printable.1).isPart printable.1)
      ((isRead_of_isPrintable printable.2).isPart printable.2)
  | .conditional test first second position, printable => by
    simp only [Expr.isPrintable, Bool.and_eq_true] at printable
    exact isRead_conditional ((isRead_of_isPrintable printable.1.1).isPart printable.1.1)
      ((isRead_of_isPrintable printable.1.2).isPart printable.1.2)
      ((isRead_of_isPrintable printable.2).isPart printable.2)
  | .cast type operand position, printable => by
    simp only [Expr.isPrintable, Bool.and_eq_true] at printable
    exact isRead_cast printable.1 (isRead_of_isPrintable printable.2)
  | .instanceOf operand type position, printable => by
    simp only [Expr.isPrintable, Bool.and_eq_true] at printable
    exact isRead_instanceOf ((isRead_of_isPrintable printable.1).isPart printable.1) printable.2

theorem areParts_of_allPrintable : ∀ {expressions : List Expr},
    Expr.allPrintable expressions = true → ∀ expression ∈ expressions, IsPart expression
  | [], _ => List.forall_mem_nil _
  | first :: rest, printable => by
    rw [Expr.allPrintable, Bool.and_eq_true] at printable
    exact List.forall_mem_cons.mpr ⟨(isRead_of_isPrintable printable.1).isPart printable.1,
      areParts_of_allPrintable printable.2⟩

end

end Parse

/-- An expression is read from every text that its tokens are spelled in. -/
theorem Expr.parse_of_spells {expression : Expr} (printable : expression.isPrintable = true)
    {text : String} (spells : Spells expression.tokens text.toList) :
    ∃ read, Expr.parse text = .ok read ∧ read.unplaced = expression.unplaced := by
  obtain ⟨items, ending, isLexed, isTokens⟩ := lexemes_of_spells spells
  rw [← List.append_nil expression.tokens] at isTokens
  have reads : Parse.ReadsTo _ _ (Parse.expression (.ok ending) items) :=
    Parse.isRead_of_isPrintable printable isTokens rfl
  obtain ⟨read, ⟨rest, fewer⟩, isRead, isRest, same⟩ := reads
  refine ⟨read, ?_, same⟩
  rw [Expr.parse, isLexed]
  simp only [isRead, Parse.look_ok, isRest, bind, Except.bind]
  rfl

/-- **An expression is read from its text** with nothing but its places changed, and so it is from
every other text that spells the same tokens. -/
theorem Expr.parse_print {expression : Expr} (printable : expression.isPrintable = true) :
    (∃ read, Expr.parse expression.print = .ok read ∧ read.unplaced = expression.unplaced) ∧
      ∀ text : String, Spells expression.tokens text.toList →
        ∃ read, Expr.parse text = .ok read ∧ read.unplaced = expression.unplaced :=
  ⟨Expr.parse_of_spells printable (Expr.spells_print printable),
    fun _ spells => Expr.parse_of_spells printable spells⟩

/-- A cast to an array of a dotted type, a dotted name in parentheses in front of a minus sign, and
the least number. -/
theorem Expr.parse_print_cast :
    let difference : Expr := .binary (.compute (.arithmetic .sub))
      (.member (.name "a" .start) "b" .start) (.literal (.int Int32.minValue) .start) .start
    let written : Expr := .cast ⟨.named "lang.Row", 1, none⟩ difference .start
    written.isPrintable = true ∧
      written.print = "( lang . Row [ ] ) ( ( a . b ) - ( - 2147483648 ) )" ∧
      ∃ read, Expr.parse written.print = .ok read ∧ read.unplaced = written.unplaced :=
  ⟨by decide, by decide, (Expr.parse_print (by decide)).1⟩

end MethodPatch
