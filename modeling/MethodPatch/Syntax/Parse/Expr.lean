/-
**Reading expressions.**

From the loosest to the tightest: assignments, the conditional, binary operators by precedence,
unary operators and casts, and what follows an operand (members, indices, `++`). Assignments and
the conditional group to the right, binary operators to the left.

Every reader but those that only go on with an operand takes a token at least. The measure of a
reader counts the tokens, and among readers of the same tokens the looser one comes first.

* `climb`: operands joined by operators that bind at least so tightly;
* `Expr.parse`: an expression that is a whole text.
-/

import MethodPatch.Syntax.Parse.Type

namespace MethodPatch.Parse

/-- The operator of an assignment; the plain one has none. -/
def assignOp? : Punct → Option (Option ComputeOp)
  | .assign => some none
  | .plusEq => some (some (.arithmetic .add))
  | .minusEq => some (some (.arithmetic .sub))
  | .starEq => some (some (.arithmetic .mul))
  | .slashEq => some (some (.arithmetic .div))
  | .percentEq => some (some (.arithmetic .rem))
  | .andEq => some (some (.bitwise .and))
  | .orEq => some (some (.bitwise .or))
  | .xorEq => some (some (.bitwise .xor))
  | .ltLtEq => some (some (.shift .left))
  | .gtGtEq => some (some (.shift .right))
  | .gtGtGtEq => some (some (.shift .unsignedRight))
  | _ => none

/-- Operators between two operands. -/
inductive JoinOp where
  | binary (op : BinaryOp)
  | logical (op : LogicalOp)
  deriving DecidableEq

/-- How tightly an operator binds. -/
def JoinOp.precedence : JoinOp → Nat
  | .binary op => op.precedence
  | .logical op => op.precedence

/-- Two operands joined; the place is that of the left one. -/
def JoinOp.join (op : JoinOp) (left right : Expr) : Expr :=
  match op with
  | .binary op => .binary op left right left.position
  | .logical op => .logical op left right left.position

/-- The operator of a punctuator. -/
def joinOp? : Punct → Option JoinOp
  | .orOr => some (.logical .or)
  | .andAnd => some (.logical .and)
  | .or => some (.binary (.compute (.bitwise .or)))
  | .xor => some (.binary (.compute (.bitwise .xor)))
  | .and => some (.binary (.compute (.bitwise .and)))
  | .eqEq => some (.binary (.compare .eq))
  | .notEq => some (.binary (.compare .ne))
  | .lt => some (.binary (.compare .lt))
  | .ltEq => some (.binary (.compare .le))
  | .gt => some (.binary (.compare .gt))
  | .gtEq => some (.binary (.compare .ge))
  | .ltLt => some (.binary (.compute (.shift .left)))
  | .gtGt => some (.binary (.compute (.shift .right)))
  | .gtGtGt => some (.binary (.compute (.shift .unsignedRight)))
  | .plus => some (.binary (.compute (.arithmetic .add)))
  | .minus => some (.binary (.compute (.arithmetic .sub)))
  | .star => some (.binary (.compute (.arithmetic .mul)))
  | .slash => some (.binary (.compute (.arithmetic .div)))
  | .percent => some (.binary (.compute (.arithmetic .rem)))
  | _ => none

/-- The operator of a punctuator that changes a variable by one. -/
def updateOp? : Punct → Option UpdateOp
  | .plusPlus => some .increment
  | .minusMinus => some .decrement
  | _ => none

/-- The operator of a punctuator before an operand; the minus sign is read apart from these. -/
def unaryOp? : Punct → Option UnaryOp
  | .plus => some .plus
  | .not => some .not
  | .tilde => some .complement
  | _ => none

/-- The literal with the opposite number, if it is a number. -/
def negated? : Literal → Option Literal
  | .int value => some (.int (-value))
  | .long value => some (.long (-value))
  | .float bits => some (.float (bits ^^^ 0x80000000))
  | .double bits => some (.double (bits ^^^ 0x8000000000000000))
  | _ => none

/-- A minus sign before an operand; before a literal number it becomes part of it. -/
def negation (operand : Expr) (position : Position) : Expr :=
  match operand with
  | .literal value _ =>
    match negated? value with
    | some value => .literal value position
    | none => .unary .minus operand position
  | _ => .unary .minus operand position

/-- The least number of a type, if its magnitude comes next. Only a minus sign may precede it. -/
def leastNumber? : List Lexeme → Option Literal
  | ⟨.int value, _⟩ :: _ => if value = -Int32.minValue.toInt then some (.int Int32.minValue) else none
  | ⟨.long value, _⟩ :: _ => if value = -Int64.minValue.toInt then some (.long Int64.minValue) else none
  | _ => none

/-- The literal of a token. -/
def literal? : Token → Option (Except SyntaxFault Literal)
  | .int value =>
    some (if value ≤ Int32.maxValue.toInt then .ok (.int (Int32.ofInt value))
      else .error .integerTooLarge)
  | .long value =>
    some (if value ≤ Int64.maxValue.toInt then .ok (.long (Int64.ofInt value))
      else .error .longTooLarge)
  | .float bits => some (.ok (.float bits))
  | .double bits => some (.ok (.double bits))
  | .char unit => some (.ok (.char unit))
  | .string text => some (.ok (.string text))
  | .keyword .trueWord => some (.ok (.boolean true))
  | .keyword .falseWord => some (.ok (.boolean false))
  | .keyword .nullWord => some (.ok .null)
  | _ => none

/-- Pairs of brackets behind the length of a new array. A second length is refused. -/
def emptyBrackets (finish : Finish) (bound : Nat) (element : TypeRef) (tokens : List Lexeme)
    (fewer : tokens.length < bound) : Reading (Parsed bound TypeRef) := do
  match ← accept finish .lbracket tokens with
  | none => return (element, ⟨tokens, fewer⟩)
  | some ⟨inside, _⟩ =>
    match ← accept finish .rbracket inside with
    | none => throw (malformed .arrayOfArrays (some (← place finish inside)))
    | some ⟨behind, _⟩ => emptyBrackets finish bound element.arrayOf behind (by omega)
termination_by tokens.length

mutual

/-- An expression. -/
def expression (finish : Finish) (tokens : List Lexeme) : Reading (Parsed tokens.length Expr) := do
  let position ← place finish tokens
  let (target, ⟨rest, fewer⟩) ← conditional finish tokens
  let _ ← look finish rest
  match nextPunct? rest with
  | none => return (target, ⟨rest, fewer⟩)
  | some (mark, markPosition, ⟨behind, _⟩) =>
    match assignOp? mark with
    | none => return (target, ⟨rest, fewer⟩)
    | some op =>
      if !target.isAssignable then
        throw (malformed .invalidAssignmentTarget (some markPosition))
      let (value, ⟨last, _⟩) ← expression finish behind
      return (.assign target op value position, ⟨last, by omega⟩)
termination_by 8 * tokens.length + 6

/-- An expression that is no assignment. -/
def conditional (finish : Finish) (tokens : List Lexeme) : Reading (Parsed tokens.length Expr) := do
  let position ← place finish tokens
  let (test, ⟨rest, fewer⟩) ← climb finish 0 tokens
  match ← accept finish .question rest with
  | none => return (test, ⟨rest, fewer⟩)
  | some ⟨behind, one⟩ =>
    let (first, ⟨middle, two⟩) ← expression finish behind
    let ⟨other, three⟩ ← expectPunct finish .colon middle
    let (second, last) ← conditional finish other
    return (.conditional test first second position,
      (((last.within three).within two).within one).within fewer)
termination_by 8 * tokens.length + 5

/-- Operands joined by operators that bind at least as tightly as `least`. -/
def climb (finish : Finish) (least : Nat) (tokens : List Lexeme) :
    Reading (Parsed tokens.length Expr) := do
  let (left, ⟨rest, fewer⟩) ← unary finish tokens
  climbFrom finish least tokens.length left rest fewer
termination_by 8 * tokens.length + 4

/-- The operators behind a left operand, and their right operands. -/
def climbFrom (finish : Finish) (least bound : Nat) (left : Expr) (tokens : List Lexeme)
    (fewer : tokens.length < bound) : Reading (Parsed bound Expr) := do
  match ← look finish tokens with
  | .keyword .instanceOf =>
    if instanceOfPrecedence < least then return (left, ⟨tokens, fewer⟩)
    let ⟨behind, _⟩ ← expectKeyword finish .instanceOf tokens
    let (type, ⟨rest, _⟩) ← typeRef finish behind
    climbFrom finish least bound (.instanceOf left type left.position) rest (by omega)
  | _ =>
    match nextPunct? tokens with
    | none => return (left, ⟨tokens, fewer⟩)
    | some (mark, _, ⟨behind, _⟩) =>
      match joinOp? mark with
      | none => return (left, ⟨tokens, fewer⟩)
      | some op =>
        if op.precedence < least then return (left, ⟨tokens, fewer⟩)
        let (right, ⟨rest, _⟩) ← climb finish (op.precedence + 1) behind
        climbFrom finish least bound (op.join left right) rest (by omega)
termination_by 8 * tokens.length

/-- An operand with the operators before it. -/
def unary (finish : Finish) (tokens : List Lexeme) : Reading (Parsed tokens.length Expr) := do
  let position ← place finish tokens
  match nextPunct? tokens with
  | none => operand finish tokens
  | some (mark, _, ⟨behind, _⟩) =>
    match updateOp? mark, unaryOp? mark with
    | some op, _ =>
      let (target, ⟨rest, _⟩) ← unary finish behind
      if !target.isAssignable then throw (malformed .invalidIncrementTarget (some position))
      return (.update op true target position, ⟨rest, by omega⟩)
    | none, some op =>
      let (argument, ⟨rest, _⟩) ← unary finish behind
      return (.unary op argument position, ⟨rest, by omega⟩)
    | none, none =>
      if mark = .minus then
        let _ ← look finish behind
        match leastNumber? behind with
        | some value => return (.literal value position, ⟨behind.tail, by simp; omega⟩)
        | none =>
          let (argument, ⟨rest, _⟩) ← unary finish behind
          return (negation argument position, ⟨rest, by omega⟩)
      else if mark = .lparen then
        match ← castHead finish tokens with
        | some (type, ⟨inside, _⟩) =>
          let (argument, ⟨rest, _⟩) ← unary finish inside
          return (.cast type argument position, ⟨rest, by omega⟩)
        | none => operand finish tokens
      else operand finish tokens
termination_by 8 * tokens.length + 3

/-- A primary expression with its members, indices and calls, and an operator behind it. -/
def operand (finish : Finish) (tokens : List Lexeme) : Reading (Parsed tokens.length Expr) := do
  let (first, ⟨rest, fewer⟩) ← primary finish tokens
  operandFrom finish tokens.length first rest fewer
termination_by 8 * tokens.length + 2

/-- Members, indices and calls behind an expression, and an operator behind them. -/
def operandFrom (finish : Finish) (bound : Nat) (object : Expr) (tokens : List Lexeme)
    (fewer : tokens.length < bound) : Reading (Parsed bound Expr) := do
  let _ ← look finish tokens
  match nextPunct? tokens with
  | none => return (object, ⟨tokens, fewer⟩)
  | some (mark, markPosition, ⟨behind, _⟩) =>
    if mark = .dot then
      let position ← place finish behind
      let (name, ⟨rest, _⟩) ← expectName finish behind
      match ← accept finish .lparen rest with
      | some _ =>
        let (arguments, ⟨last, _⟩) ← arguments finish rest
        operandFrom finish bound (.call (some object) name arguments position) last (by omega)
      | none => operandFrom finish bound (.member object name position) rest (by omega)
    else if mark = .lbracket then
      let (index, ⟨rest, _⟩) ← expression finish behind
      let ⟨last, _⟩ ← expectPunct finish .rbracket rest
      operandFrom finish bound (.index object index markPosition) last (by omega)
    else
      match updateOp? mark with
      | none => return (object, ⟨tokens, fewer⟩)
      | some op =>
        if !object.isAssignable then
          throw (malformed .invalidIncrementTarget (some markPosition))
        return (.update op false object object.position, ⟨behind, by omega⟩)
termination_by 8 * tokens.length

/-- A literal, a name, a call, `this`, an instance creation, or an expression in parentheses. -/
def primary (finish : Finish) (tokens : List Lexeme) : Reading (Parsed tokens.length Expr) :=
  match tokens with
  | [] =>
    .error (match finish with
      | .ok position => malformed .unexpectedEnd (some position)
      | .error error => error)
  | ⟨token, position⟩ :: rest => do
    match literal? token with
    | some (.ok value) => return (.literal value position, ⟨rest, fewer_behind rest⟩)
    | some (.error fault) => throw (malformed fault (some position))
    | none =>
      match token with
      | .keyword .thisWord => return (.this position, ⟨rest, fewer_behind rest⟩)
      | .keyword .superWord => throw (malformed .superUse (some position))
      | .keyword .newWord =>
        let (created, ⟨last, _⟩) ← creation finish position rest
        return (created, ⟨last, by simp; omega⟩)
      | .name name =>
        match ← accept finish .lparen rest with
        | none => return (.name name position, ⟨rest, fewer_behind rest⟩)
        | some _ =>
          let (arguments, ⟨last, _⟩) ← arguments finish rest
          return (.call none name arguments position, ⟨last, by simp; omega⟩)
      | .punct .lparen =>
        let (inner, ⟨middle, _⟩) ← expression finish rest
        let ⟨last, _⟩ ← expectPunct finish .rparen middle
        return (inner, ⟨last, by simp; omega⟩)
      | _ => throw (expected finish "expression" (⟨token, position⟩ :: rest))
termination_by 8 * tokens.length + 1

/-- What `new` creates: an array of some length or an instance. -/
def creation (finish : Finish) (position : Position) (tokens : List Lexeme) :
    Reading (Parsed tokens.length Expr) := do
  let typePosition ← place finish tokens
  let (base, ⟨rest, _⟩) ← baseType finish tokens
  let element : TypeRef := ⟨base, 0, some typePosition⟩
  match ← accept finish .lbracket rest with
  | some ⟨inside, _⟩ =>
    let (length, ⟨middle, _⟩) ← expression finish inside
    let ⟨behind, _⟩ ← expectPunct finish .rbracket middle
    let (element, last) ← emptyBrackets finish tokens.length element behind (by omega)
    return (.newArray element length position, last)
  | none =>
    if element.primitive?.isSome then
      throw (malformed .primitiveInstance (some typePosition))
    let (arguments, ⟨last, _⟩) ← arguments finish rest
    return (.new element arguments position, ⟨last, by omega⟩)
termination_by 8 * tokens.length

/-- Arguments in parentheses. -/
def arguments (finish : Finish) (tokens : List Lexeme) :
    Reading (Parsed tokens.length (List Expr)) := do
  let ⟨inside, _⟩ ← expectPunct finish .lparen tokens
  match ← accept finish .rparen inside with
  | some ⟨last, _⟩ => return ([], ⟨last, by omega⟩)
  | none => argumentsFrom finish tokens.length [] inside (by omega)
termination_by 8 * tokens.length

/-- The arguments that are left, up to the closing parenthesis. `read` holds the others in
reverse. -/
def argumentsFrom (finish : Finish) (bound : Nat) (read : List Expr) (tokens : List Lexeme)
    (fewer : tokens.length < bound) : Reading (Parsed bound (List Expr)) := do
  let (argument, ⟨rest, _⟩) ← expression finish tokens
  match ← accept finish .comma rest with
  | some ⟨others, _⟩ => argumentsFrom finish bound (argument :: read) others (by omega)
  | none =>
    let ⟨last, _⟩ ← expectPunct finish .rparen rest
    return ((argument :: read).reverse, ⟨last, by omega⟩)
termination_by 8 * tokens.length + 7

end

end MethodPatch.Parse

namespace MethodPatch

/-- An expression that is a whole text. -/
def Expr.parse (source : String) : Except SourceError Expr := do
  let ⟨tokens, finish⟩ := lexemes source
  let (read, ⟨rest, _⟩) ← Parse.expression finish tokens
  match ← Parse.look finish rest with
  | .endOfInput => return read
  | _ => throw (Parse.expected finish "end of input" rest)

end MethodPatch
