/-
**Expressions written out.**

An expression is written with every compound expression in it in parentheses. A negative number is a
minus sign and its magnitude in parentheses, a cast has its operand in parentheses, and a new array
has its length in front of the empty brackets.

* `Expr.tokens`, `Expr.wrapped`: an expression as it stands, and as a part of another one;
* `Expr.isPrintable`: expressions that can be written in this way;
* `Expr.unplaced`: an expression without its places;
* `Expr.isSpelled_tokens`: the tokens of an expression have spellings.
-/

import MethodPatch.Proofs.Syntax.Spelling
import MethodPatch.Syntax.Parse.Expr

namespace MethodPatch

/-! ### Operators -/

/-- The punctuator of an operator. -/
def ComputeOp.mark : ComputeOp → Punct
  | .arithmetic .add => .plus
  | .arithmetic .sub => .minus
  | .arithmetic .mul => .star
  | .arithmetic .div => .slash
  | .arithmetic .rem => .percent
  | .shift .left => .ltLt
  | .shift .right => .gtGt
  | .shift .unsignedRight => .gtGtGt
  | .bitwise .and => .and
  | .bitwise .or => .or
  | .bitwise .xor => .xor

/-- The punctuator of a relation. -/
def Comparison.mark : Comparison → Punct
  | .eq => .eqEq
  | .ne => .notEq
  | .lt => .lt
  | .le => .ltEq
  | .gt => .gt
  | .ge => .gtEq

/-- The punctuator of an operator between two operands. -/
def Parse.JoinOp.mark : Parse.JoinOp → Punct
  | .binary (.compute op) => op.mark
  | .binary (.compare comparison) => comparison.mark
  | .logical .and => .andAnd
  | .logical .or => .orOr

/-- The punctuator of an assignment. -/
def assignMark : Option ComputeOp → Punct
  | none => .assign
  | some (.arithmetic .add) => .plusEq
  | some (.arithmetic .sub) => .minusEq
  | some (.arithmetic .mul) => .starEq
  | some (.arithmetic .div) => .slashEq
  | some (.arithmetic .rem) => .percentEq
  | some (.shift .left) => .ltLtEq
  | some (.shift .right) => .gtGtEq
  | some (.shift .unsignedRight) => .gtGtGtEq
  | some (.bitwise .and) => .andEq
  | some (.bitwise .or) => .orEq
  | some (.bitwise .xor) => .xorEq

/-- The punctuator of an operator on one value. -/
def UnaryOp.mark : UnaryOp → Punct
  | .minus => .minus
  | .plus => .plus
  | .not => .not
  | .complement => .tilde

/-- The punctuator of an operator that changes a variable by one. -/
def UpdateOp.mark : UpdateOp → Punct
  | .increment => .plusPlus
  | .decrement => .minusMinus

/-! ### Types -/

/-- The keyword of a primitive type. -/
def FieldType.keyword? : FieldType → Option Keyword
  | .boolean => some .boolean
  | .byte => some .byte
  | .char => some .char
  | .short => some .short
  | .int => some .int
  | .long => some .long
  | .float => some .float
  | .double => some .double
  | .object _ | .array _ => none

/-- The parts of a name between its points. -/
def nameParts (name : String) : List String := (name.toList.splitOn '.').map String.ofList

/-- Names with points between them. -/
def dotted : List String → List Token
  | [] => []
  | first :: others => .name first :: others.flatMap fun part => [.punct .dot, .name part]

/-- Pairs of brackets. -/
def bracketPairs : Nat → List Token
  | 0 => []
  | pairs + 1 => .punct .lbracket :: .punct .rbracket :: bracketPairs pairs

/-- The tokens of an element type. -/
def BaseType.tokens : BaseType → List Token
  | .primitive type => type.keyword?.toList.map .keyword
  | .named name => dotted (nameParts name)

/-- The element types that can be written. -/
def BaseType.isPrintable : BaseType → Bool
  | .primitive type => type.isPrimitive
  | .named name => (nameParts name).all isIdentifier

namespace TypeRef

/-- The tokens of a type. -/
def tokens (type : TypeRef) : List Token := type.base.tokens ++ bracketPairs type.dimensions.toNat

/-- The types that can be written. -/
def isPrintable (type : TypeRef) : Bool := type.base.isPrintable

/-- A type without its place. -/
def unplaced (type : TypeRef) : TypeRef := { type with position := none }

end TypeRef

/-! ### Literals -/

namespace Literal

/-- The tokens of a whole number. -/
def signed (token : Int → Token) (value : Int) : List Token :=
  if 0 ≤ value then [token value]
  else [.punct .lparen, .punct .minus, token (-value), .punct .rparen]

/-- The tokens of a literal. -/
def tokens : Literal → List Token
  | .int value => signed .int value.toInt
  | .long value => signed .long value.toInt
  | .float bits => [.float bits]
  | .double bits => [.double bits]
  | .char unit => [.char unit]
  | .string text => [.string text]
  | .boolean true => [.keyword .trueWord]
  | .boolean false => [.keyword .falseWord]
  | .null => [.keyword .nullWord]

/-- Numbers, whose sign is a part of them. -/
def isNumber : Literal → Bool
  | .int _ | .long _ | .float _ | .double _ => true
  | _ => false

/-- The literals without a fraction. -/
def isPrintable : Literal → Bool
  | .float _ | .double _ => false
  | _ => true

end Literal

/-! ### Expressions -/

/-- Tokens in parentheses. -/
def parenthesized (tokens : List Token) : List Token :=
  .punct .lparen :: (tokens ++ [.punct .rparen])

/-- Lists of tokens with commas between them. -/
def commas : List (List Token) → List Token
  | [] => []
  | [one] => one
  | one :: rest => one ++ .punct .comma :: commas rest

namespace Expr

/-- Expressions of more than one part. -/
def isCompound : Expr → Bool
  | .literal _ _ | .name _ _ | .this _ => false
  | _ => true

/-- The tokens of an expression where it is a part of another one. -/
def wrap (expression : Expr) (tokens : List Token) : List Token :=
  if expression.isCompound then parenthesized tokens else tokens

mutual

/-- The tokens of an expression. -/
def tokens : Expr → List Token
  | .literal value _ => value.tokens
  | .name identifier _ => [.name identifier]
  | .this _ => [.keyword .thisWord]
  | .member object identifier _ => object.wrap object.tokens ++ [.punct .dot, .name identifier]
  | .call none method arguments _ =>
    .name method :: parenthesized (commas (wrappedAll arguments))
  | .call (some object) method arguments _ =>
    object.wrap object.tokens ++
      .punct .dot :: .name method :: parenthesized (commas (wrappedAll arguments))
  | .new type arguments _ =>
    .keyword .newWord :: (type.base.tokens ++ parenthesized (commas (wrappedAll arguments)))
  | .newArray element length _ =>
    .keyword .newWord :: (element.base.tokens ++ .punct .lbracket :: (length.wrap length.tokens ++
      .punct .rbracket :: bracketPairs element.dimensions.toNat))
  | .index array inside _ =>
    array.wrap array.tokens ++ .punct .lbracket :: (inside.wrap inside.tokens ++ [.punct .rbracket])
  | .assign target op value _ =>
    target.wrap target.tokens ++ .punct (assignMark op) :: value.wrap value.tokens
  | .update op true target _ => .punct op.mark :: target.wrap target.tokens
  | .update op false target _ => target.wrap target.tokens ++ [.punct op.mark]
  | .unary op operand _ => .punct op.mark :: operand.wrap operand.tokens
  | .binary op left right _ =>
    left.wrap left.tokens ++ .punct (Parse.JoinOp.mark (.binary op)) :: right.wrap right.tokens
  | .logical op left right _ =>
    left.wrap left.tokens ++ .punct (Parse.JoinOp.mark (.logical op)) :: right.wrap right.tokens
  | .conditional test first second _ =>
    test.wrap test.tokens ++ .punct .question :: (first.wrap first.tokens ++
      .punct .colon :: second.wrap second.tokens)
  | .cast type operand _ =>
    parenthesized type.tokens ++ parenthesized operand.tokens
  | .instanceOf operand type _ =>
    operand.wrap operand.tokens ++ .keyword .instanceOf :: type.tokens

/-- The tokens of expressions that are parts of another one. -/
def wrappedAll : List Expr → List (List Token)
  | [] => []
  | first :: rest => first.wrap first.tokens :: wrappedAll rest

end

/-- The tokens of an expression that is a part of another one. -/
def wrapped (expression : Expr) : List Token := expression.wrap expression.tokens

theorem wrap_tokens (expression : Expr) : expression.wrap expression.tokens = expression.wrapped := rfl

/-- Literal numbers. -/
def isNumber : Expr → Bool
  | .literal value _ => value.isNumber
  | _ => false

mutual

/-- The expressions that can be written: they name only what can be named, assign only to what can be
assigned, create instances of classes alone, and have no minus sign in front of a number but that of
the number. -/
def isPrintable : Expr → Bool
  | .literal value _ => value.isPrintable
  | .name identifier _ => isIdentifier identifier
  | .this _ => true
  | .member object identifier _ => object.isPrintable && isIdentifier identifier
  | .call none method arguments _ => isIdentifier method && allPrintable arguments
  | .call (some object) method arguments _ =>
    object.isPrintable && isIdentifier method && allPrintable arguments
  | .new type arguments _ =>
    type.isPrintable && type.primitive?.isNone && type.dimensions = 0 && allPrintable arguments
  | .newArray element length _ => element.isPrintable && length.isPrintable
  | .index array inside _ => array.isPrintable && inside.isPrintable
  | .assign target _ value _ => target.isAssignable && target.isPrintable && value.isPrintable
  | .update _ _ target _ => target.isAssignable && target.isPrintable
  | .unary op operand _ => operand.isPrintable && !(op = .minus && operand.isNumber)
  | .binary _ left right _ | .logical _ left right _ => left.isPrintable && right.isPrintable
  | .conditional test first second _ =>
    test.isPrintable && first.isPrintable && second.isPrintable
  | .cast type operand _ => type.isPrintable && operand.isPrintable
  | .instanceOf operand type _ => operand.isPrintable && type.isPrintable

/-- Expressions all of which can be written. -/
def allPrintable : List Expr → Bool
  | [] => true
  | first :: rest => first.isPrintable && allPrintable rest

end

mutual

/-- An expression without its places. -/
def unplaced : Expr → Expr
  | .literal value _ => .literal value .start
  | .name identifier _ => .name identifier .start
  | .this _ => .this .start
  | .member object identifier _ => .member object.unplaced identifier .start
  | .call none method arguments _ => .call none method (unplacedAll arguments) .start
  | .call (some object) method arguments _ =>
    .call (some object.unplaced) method (unplacedAll arguments) .start
  | .new type arguments _ => .new type.unplaced (unplacedAll arguments) .start
  | .newArray element length _ => .newArray element.unplaced length.unplaced .start
  | .index array inside _ => .index array.unplaced inside.unplaced .start
  | .assign target op value _ => .assign target.unplaced op value.unplaced .start
  | .update op before target _ => .update op before target.unplaced .start
  | .unary op operand _ => .unary op operand.unplaced .start
  | .binary op left right _ => .binary op left.unplaced right.unplaced .start
  | .logical op left right _ => .logical op left.unplaced right.unplaced .start
  | .conditional test first second _ =>
    .conditional test.unplaced first.unplaced second.unplaced .start
  | .cast type operand _ => .cast type.unplaced operand.unplaced .start
  | .instanceOf operand type _ => .instanceOf operand.unplaced type.unplaced .start

/-- Expressions without their places. -/
def unplacedAll : List Expr → List Expr
  | [] => []
  | first :: rest => first.unplaced :: unplacedAll rest

end

/-- The text of an expression, with a space between every two tokens. -/
def print (expression : Expr) : String := String.ofList (spaced expression.tokens)

theorem isAssignable_unplaced (expression : Expr) :
    expression.unplaced.isAssignable = expression.isAssignable := by
  cases expression with
  | call callee => cases callee <;> rfl
  | _ => rfl

theorem isNumber_unplaced (expression : Expr) : expression.unplaced.isNumber = expression.isNumber := by
  cases expression with
  | call callee => cases callee <;> rfl
  | _ => rfl

/-- Expressions that differ in their places alone are assigned to alike. -/
theorem isAssignable_of_unplaced {one other : Expr} (same : one.unplaced = other.unplaced) :
    one.isAssignable = other.isAssignable := by
  rw [← isAssignable_unplaced, same, isAssignable_unplaced]

/-- Expressions that differ in their places alone are numbers alike. -/
theorem isNumber_of_unplaced {one other : Expr} (same : one.unplaced = other.unplaced) :
    one.isNumber = other.isNumber := by
  rw [← isNumber_unplaced, same, isNumber_unplaced]

theorem unplacedAll_eq_map (expressions : List Expr) :
    unplacedAll expressions = expressions.map unplaced := by
  induction expressions with
  | nil => rfl
  | cons first rest ih => rw [unplacedAll, ih, List.map_cons]

end Expr

/-! ### Spellings -/

@[simp] theorem Token.isSpelled_name (text : String) :
    (Token.name text).isSpelled = isIdentifier text :=
  rfl

@[simp] theorem Token.isSpelled_keyword (word : Keyword) : (Token.keyword word).isSpelled = true :=
  rfl

@[simp] theorem Token.isSpelled_punct (mark : Punct) : (Token.punct mark).isSpelled = true :=
  rfl

theorem all_parenthesized {tokens : List Token} (spelled : tokens.all Token.isSpelled = true) :
    (parenthesized tokens).all Token.isSpelled = true := by
  simp only [parenthesized, List.all_cons, List.all_append, spelled]
  rfl

theorem all_commas {parts : List (List Token)}
    (spelled : ∀ part ∈ parts, part.all Token.isSpelled = true) :
    (commas parts).all Token.isSpelled = true := by
  induction parts with
  | nil => rfl
  | cons first rest ih =>
    obtain ⟨one, others⟩ := List.forall_mem_cons.mp spelled
    cases rest with
    | nil => exact one
    | cons second more =>
      simp only [commas, List.all_append, List.all_cons, one, ih others]
      rfl

theorem all_dotted {parts : List String} (names : parts.all isIdentifier = true) :
    (dotted parts).all Token.isSpelled = true := by
  cases parts with
  | nil => rfl
  | cons first others =>
    simp only [List.all_cons, Bool.and_eq_true, List.all_eq_true] at names
    simp only [dotted, List.all_cons, List.all_flatMap, Bool.and_eq_true, List.all_eq_true]
    exact ⟨names.1, fun part isIn => by simp [names.2 part isIn]⟩

theorem all_bracketPairs (pairs : Nat) : (bracketPairs pairs).all Token.isSpelled = true := by
  induction pairs with
  | zero => rfl
  | succ pairs ih => simp [bracketPairs, ih]

theorem all_base {base : BaseType} (printable : base.isPrintable = true) :
    base.tokens.all Token.isSpelled = true := by
  cases base with
  | named name => exact all_dotted printable
  | primitive type => cases type <;> rfl

theorem all_type {type : TypeRef} (printable : type.isPrintable = true) :
    type.tokens.all Token.isSpelled = true := by
  rw [TypeRef.tokens, List.all_append, all_base printable, all_bracketPairs]
  rfl

theorem all_signed {token : Int → Token} {value : Int} {large : Int}
    (spelled : ∀ size : Int, 0 ≤ size → size ≤ large → (token size).isSpelled = true)
    (least : -large ≤ value) (greatest : value ≤ large) :
    (Literal.signed token value).all Token.isSpelled = true := by
  unfold Literal.signed
  split
  · next positive => simp [spelled value positive greatest]
  · next negative =>
    have fits := spelled (-value) (by omega) (by omega)
    simp [fits]

theorem all_literal {value : Literal} (printable : value.isPrintable = true) :
    value.tokens.all Token.isSpelled = true := by
  cases value with
  | int value =>
    have most : value.toInt ≤ 0x7fffffff := value.toInt_le
    refine all_signed (fun size positive small => ?_) value.le_toInt (by omega)
    exact Bool.and_eq_true_iff.mpr ⟨decide_eq_true positive, decide_eq_true small⟩
  | long value =>
    have most : value.toInt ≤ 0x7fffffffffffffff := value.toInt_le
    refine all_signed (fun size positive small => ?_) value.le_toInt (by omega)
    exact Bool.and_eq_true_iff.mpr ⟨decide_eq_true positive, decide_eq_true small⟩
  | float | double => cases printable
  | char | string | null => rfl
  | boolean value => cases value <;> rfl

namespace Expr

theorem all_wrap {expression : Expr} {tokens : List Token}
    (spelled : tokens.all Token.isSpelled = true) :
    (expression.wrap tokens).all Token.isSpelled = true := by
  unfold wrap
  split
  · exact all_parenthesized spelled
  · exact spelled

mutual

/-- The tokens of an expression have spellings. -/
theorem isSpelled_tokens : ∀ {expression : Expr}, expression.isPrintable = true →
    expression.tokens.all Token.isSpelled = true
  | .literal value _, printable => by
    rw [tokens]
    exact all_literal printable
  | .name identifier _, printable => by
    simpa [tokens, isPrintable] using printable
  | .this _, _ => by rfl
  | .member object identifier _, printable => by
    simp only [isPrintable, Bool.and_eq_true] at printable
    simp [tokens, all_wrap (isSpelled_tokens printable.1), printable.2]
  | .call none method arguments _, printable => by
    simp only [isPrintable, Bool.and_eq_true] at printable
    have behind := all_parenthesized (all_commas (isSpelled_wrappedAll printable.2))
    simp [tokens, printable.1, behind]
  | .call (some object) method arguments _, printable => by
    simp only [isPrintable, Bool.and_eq_true] at printable
    have behind := all_parenthesized (all_commas (isSpelled_wrappedAll printable.2))
    simp [tokens, all_wrap (isSpelled_tokens printable.1.1), printable.1.2, behind]
  | .new type arguments _, printable => by
    simp only [isPrintable, Bool.and_eq_true] at printable
    have behind := all_parenthesized (all_commas (isSpelled_wrappedAll printable.2))
    simp [tokens, all_base printable.1.1.1, behind]
  | .newArray element length _, printable => by
    simp only [isPrintable, Bool.and_eq_true] at printable
    simp [tokens, all_base printable.1, all_wrap (isSpelled_tokens printable.2), all_bracketPairs]
  | .index array inside _, printable => by
    simp only [isPrintable, Bool.and_eq_true] at printable
    simp [tokens, all_wrap (isSpelled_tokens printable.1),
      all_wrap (isSpelled_tokens printable.2)]
  | .assign target op value _, printable => by
    simp only [isPrintable, Bool.and_eq_true] at printable
    simp [tokens, all_wrap (isSpelled_tokens printable.1.2),
      all_wrap (isSpelled_tokens printable.2)]
  | .update op true target _, printable => by
    simp only [isPrintable, Bool.and_eq_true] at printable
    simp [tokens, all_wrap (isSpelled_tokens printable.2)]
  | .update op false target _, printable => by
    simp only [isPrintable, Bool.and_eq_true] at printable
    simp [tokens, all_wrap (isSpelled_tokens printable.2)]
  | .unary op operand _, printable => by
    simp only [isPrintable, Bool.and_eq_true] at printable
    simp [tokens, all_wrap (isSpelled_tokens printable.1)]
  | .binary op left right _, printable | .logical op left right _, printable => by
    simp only [isPrintable, Bool.and_eq_true] at printable
    simp [tokens, all_wrap (isSpelled_tokens printable.1),
      all_wrap (isSpelled_tokens printable.2)]
  | .conditional test first second _, printable => by
    simp only [isPrintable, Bool.and_eq_true] at printable
    simp [tokens, all_wrap (isSpelled_tokens printable.1.1),
      all_wrap (isSpelled_tokens printable.1.2), all_wrap (isSpelled_tokens printable.2)]
  | .cast type operand _, printable => by
    simp only [isPrintable, Bool.and_eq_true] at printable
    rw [tokens, List.all_append, all_parenthesized (all_type printable.1),
      all_parenthesized (isSpelled_tokens printable.2)]
    rfl
  | .instanceOf operand type _, printable => by
    simp only [isPrintable, Bool.and_eq_true] at printable
    simp [tokens, all_wrap (isSpelled_tokens printable.1), all_type printable.2]

theorem isSpelled_wrappedAll : ∀ {expressions : List Expr}, allPrintable expressions = true →
    ∀ part ∈ wrappedAll expressions, part.all Token.isSpelled = true
  | [], _ => by
    rw [wrappedAll]
    exact List.forall_mem_nil _
  | first :: rest, printable => by
    rw [allPrintable, Bool.and_eq_true] at printable
    rw [wrappedAll]
    exact List.forall_mem_cons.mpr
      ⟨all_wrap (isSpelled_tokens printable.1), isSpelled_wrappedAll printable.2⟩

end

/-- The text of an expression spells its tokens. -/
theorem spells_print {expression : Expr} (printable : expression.isPrintable = true) :
    Spells expression.tokens expression.print.toList := by
  rw [print, String.toList_ofList]
  exact spells_spaced (List.all_eq_true.mp (isSpelled_tokens printable))

end Expr

end MethodPatch
