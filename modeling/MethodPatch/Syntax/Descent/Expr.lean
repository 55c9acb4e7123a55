/-
**Descending through types and expressions.**

A text is also read by going down through its constructs, with a lexer that is asked for one token after
the other. Where the next token does not decide what comes, the state of the lexer is saved; it goes on
for a while, and is restored if this was not what comes. Loops end when a round of theirs is the last one.
Nothing in these definitions makes it plain that descending comes to an end, or that it reads what
`Parse` reads. They only go on as deep as they are allowed to: calls and rounds of loops nest up to a limit,
and there is no outcome if it is reached.

* `Descent`: an answer or an error, unless the limit is reached;
* `Descent.startsDeclaration`, `Descent.castHead`: looking ahead;
* `Descent.expression`: expressions;
* `Descent.wholeExpression`: an expression that is a whole text.
-/

import MethodPatch.Syntax.Parse.Expr

namespace MethodPatch

/-- Descending with a state: an answer or an error, and the state as it is then, or nothing at all. -/
abbrev Descending (σ : Type) := ExceptT SourceError (StateT σ Option)

/-- Descending with a lexer. -/
abbrev Descent := Descending Lexer

/-- What a round of a loop comes to: one more round, or the end of the loop. -/
inductive Round (α : Type) where
  | again (state : α)
  | done (answer : α)

namespace Descent

/-! ### Tokens -/

/-- The next token, which is taken. -/
def next : Descent Token := ExceptT.mk fun lexer => some lexer.next

/-- The next token, which stays. -/
def peek : Descent Token := ExceptT.mk fun lexer => some lexer.peek

/-- The place of the token that was scanned last. -/
def tokenPosition : Descent Position := return (← get).tokenPosition

/-- The place of the next token. -/
def place : Descent Position := do
  let _ ← peek
  tokenPosition

/-- Whether a token comes next. -/
def comes (token : Token) : Descent Bool := return (← peek) = token

/-- Whether a punctuator comes next. -/
abbrev sees (mark : Punct) : Descent Bool := comes (.punct mark)

/-- Whether a keyword comes next. -/
abbrev seesWord (word : Keyword) : Descent Bool := comes (.keyword word)

/-- Whether the text ends here. -/
abbrev atEnd : Descent Bool := comes .endOfInput

/-- Something else was wanted than the token that was taken. -/
def refuse {α : Type} (wanted : String) (token : Token) : Descent α := do
  throw (malformed (.expected wanted token.describe) (some (← tokenPosition)))

/-- Takes a punctuator, which has to come next. -/
def expectPunct (mark : Punct) : Descent Unit := do
  let token ← next
  if token = .punct mark then return () else refuse mark.title token

/-- Takes a keyword, which has to come next. -/
def expectKeyword (word : Keyword) : Descent Unit := do
  let token ← next
  if token = .keyword word then return () else refuse word.title token

/-- Takes a name, which has to come next. -/
def expectName : Descent String := do
  match ← next with
  | .name text => return text
  | token => refuse "identifier" token

/-- What comes of an attempt, be it an error. The lexer is where the attempt has left it. -/
def attempt {α : Type} (act : Descent α) : Descent (Except SourceError α) := ExceptT.lift act.run

/-- The limit is reached. -/
def exhausted {σ α : Type} : Descending σ α := ExceptT.mk fun _ => none

/-- Rounds up to the last one. -/
def rounds {σ α : Type} (round : α → Descending σ (Round α)) : Nat → α → Descending σ α
  | 0, _ => exhausted
  | limit + 1, state => do
    match ← round state with
    | .again state => rounds round limit state
    | .done answer => return answer

/-! ### Types -/

/-- One part more of a dotted name. A point that no name follows is left where it is. -/
def dottedRound (name : String) : Descent (Round String) := do
  if ← sees .dot then
    let state ← get
    let _ ← next
    match ← next with
    | .name part => return .again (name ++ "." ++ part)
    | _ =>
      set state
      return .done name
  else return .done name

/-- The element type that a written type begins with. -/
def baseType (limit : Nat) : Descent BaseType := do
  match ← next with
  | .keyword word =>
    match Parse.primitive? word with
    | some type => return .primitive type
    | none => refuse "type" (.keyword word)
  | .name first => return .named (← rounds dottedRound limit first)
  | .endOfInput => throw (malformed .unexpectedEnd (some (← tokenPosition)))
  | token => refuse "type" token

/-- One pair of brackets more behind a type. -/
def bracketsRound (type : TypeRef) : Descent (Round TypeRef) := do
  if ← sees .lbracket then
    let _ ← next
    expectPunct .rbracket
    return .again type.arrayOf
  else return .done type

/-- A type. -/
def typeRef (limit : Nat) : Descent TypeRef := do
  let position ← place
  let base ← baseType limit
  rounds bracketsRound limit ⟨base, 0, some position⟩

/-- Whether a declaration comes next: `final`, a primitive keyword, or a type and a name. The lexer comes
back from looking for the latter. -/
def startsDeclaration (limit : Nat) : Descent Bool := do
  match ← peek with
  | .keyword word => return word = .final || (Parse.primitive? word).isSome
  | .name _ =>
    let state ← get
    let answer ← match ← attempt (typeRef limit) with
      | .ok _ => match ← attempt peek with
        | .ok (.name _) => pure true
        | _ => pure false
      | .error _ => pure false
    set state
    return answer
  | _ => return false

/-- The type of a cast, if a type in parentheses comes next that makes one. If it does not, the lexer comes
back. -/
def castHead (limit : Nat) : Descent (Option TypeRef) := do
  let state ← get
  let _ ← next
  let (possible, isPrimitive) := Parse.startsType (← peek)
  if !possible then
    set state
    return none
  match ← attempt (typeRef limit) with
  | .error _ =>
    set state
    return none
  | .ok type =>
    if ← sees .rparen then
      let _ ← next
      -- What is behind a primitive type is not looked at.
      let casts ← if isPrimitive then pure true else pure (Parse.startsOperand (← peek))
      if casts then return some type
      else
        set state
        return none
    else
      set state
      return none

/-! ### Operators -/

/-- The operator of a punctuator that computes a value or compares two. -/
def binaryOp? : Punct → Option BinaryOp
  | .or => some (.compute (.bitwise .or))
  | .xor => some (.compute (.bitwise .xor))
  | .and => some (.compute (.bitwise .and))
  | .eqEq => some (.compare .eq)
  | .notEq => some (.compare .ne)
  | .lt => some (.compare .lt)
  | .ltEq => some (.compare .le)
  | .gt => some (.compare .gt)
  | .gtEq => some (.compare .ge)
  | .ltLt => some (.compute (.shift .left))
  | .gtGt => some (.compute (.shift .right))
  | .gtGtGt => some (.compute (.shift .unsignedRight))
  | .plus => some (.compute (.arithmetic .add))
  | .minus => some (.compute (.arithmetic .sub))
  | .star => some (.compute (.arithmetic .mul))
  | .slash => some (.compute (.arithmetic .div))
  | .percent => some (.compute (.arithmetic .rem))
  | _ => none

/-- The level of `instanceof` and of the order relations. -/
def relationalLevel : Nat := 5

/-- How tightly a binary operator binds, from one on. -/
def binaryLevel : BinaryOp → Nat
  | .compute (.bitwise .or) => 1
  | .compute (.bitwise .xor) => 2
  | .compute (.bitwise .and) => 3
  | .compare .eq | .compare .ne => 4
  | .compare .lt | .compare .le | .compare .gt | .compare .ge => relationalLevel
  | .compute (.shift _) => 6
  | .compute (.arithmetic .add) | .compute (.arithmetic .sub) => 7
  | .compute (.arithmetic .mul) | .compute (.arithmetic .div) | .compute (.arithmetic .rem) => 8

/-- The punctuator of `&&` or `||`. -/
def logicalMark : LogicalOp → Punct
  | .or => .orOr
  | .and => .andAnd

/-- The least number of a type, if a token is its magnitude. -/
def leastNumber? : Token → Option Literal
  | .int value => if value = 2147483648 then some (.int Int32.minValue) else none
  | .long value => if value = 9223372036854775808 then some (.long Int64.minValue) else none
  | _ => none

/-! ### Parts of expressions

What a part is made of is known by what it reads expressions with. -/

/-- One argument more. The others are held in reverse. -/
def argumentsRound (expression : Descent Expr) (read : List Expr) : Descent (Round (List Expr)) := do
  let argument ← expression
  if ← sees .comma then
    let _ ← next
    return .again (argument :: read)
  else
    expectPunct .rparen
    return .done (argument :: read).reverse

/-- Arguments in parentheses. -/
def arguments (limit : Nat) (expression : Descent Expr) : Descent (List Expr) := do
  expectPunct .lparen
  if ← sees .rparen then
    let _ ← next
    return []
  else rounds (argumentsRound expression) limit []

/-- One pair of brackets more behind the length of a new array. A second length is refused. -/
def emptyBracketsRound (element : TypeRef) : Descent (Round TypeRef) := do
  if ← sees .lbracket then
    let _ ← next
    if ← sees .rbracket then
      let _ ← next
      return .again element.arrayOf
    else throw (malformed .arrayOfArrays (some (← place)))
  else return .done element

/-- What `new` creates: an array of some length or an instance. -/
def creation (limit : Nat) (expression : Descent Expr) (position : Position) : Descent Expr := do
  let typePosition ← place
  let base ← baseType limit
  let element : TypeRef := ⟨base, 0, some typePosition⟩
  if ← sees .lbracket then
    let _ ← next
    let length ← expression
    expectPunct .rbracket
    let element ← rounds emptyBracketsRound limit element
    return .newArray element length position
  else
    if element.primitive?.isSome then throw (malformed .primitiveInstance (some typePosition))
    let arguments ← arguments limit expression
    return .new element arguments position

/-- A literal, a name, a call, `this`, an instance creation, or an expression in parentheses. -/
def primary (limit : Nat) (expression : Descent Expr) : Descent Expr := do
  let position ← place
  let token ← next
  match Parse.literal? token with
  | some (.ok value) => return .literal value position
  | some (.error fault) => throw (malformed fault (some position))
  | none =>
    match token with
    | .keyword .thisWord => return .this position
    | .keyword .newWord => creation limit expression position
    | .keyword .superWord => throw (malformed .superUse (some position))
    | .name name =>
      if ← sees .lparen then
        let arguments ← arguments limit expression
        return .call none name arguments position
      else return .name name position
    | .punct .lparen =>
      let inner ← expression
      expectPunct .rparen
      return inner
    | .endOfInput => throw (malformed .unexpectedEnd (some position))
    | token => throw (malformed (.expected "expression" token.describe) (some position))

/-- One member, index or call more. -/
def memberRound (limit : Nat) (expression : Descent Expr) (object : Expr) : Descent (Round Expr) := do
  if ← sees .dot then
    let _ ← next
    let position ← place
    let name ← expectName
    if ← sees .lparen then
      let arguments ← arguments limit expression
      return .again (.call (some object) name arguments position)
    else return .again (.member object name position)
  else if ← sees .lbracket then
    let position ← place
    let _ ← next
    let index ← expression
    expectPunct .rbracket
    return .again (.index object index position)
  else return .done object

/-- An operator behind an operand, if there is one. -/
def updated (object : Expr) : Descent Expr := do
  match ← peek with
  | .punct mark =>
    match Parse.updateOp? mark with
    | none => return object
    | some op =>
      if !object.isAssignable then throw (malformed .invalidIncrementTarget (some (← place)))
      let _ ← next
      return .update op false object object.position
  | _ => return object

/-- A primary expression with its members, indices and calls, and an operator behind it. -/
def operand (limit : Nat) (expression : Descent Expr) : Descent Expr := do
  let first ← primary limit expression
  let object ← rounds (memberRound limit expression) limit first
  updated object

/-- What a minus sign stands before. -/
def negation (unary : Descent Expr) (position : Position) : Descent Expr := do
  match leastNumber? (← peek) with
  | some value =>
    let _ ← next
    return .literal value position
  | none =>
    let argument ← unary
    return Parse.negation argument position

/-- One binary operator of a level at least, or one `instanceof`. -/
def binaryRound (limit : Nat) (binary : Nat → Descent Expr) (least : Nat) (left : Expr) :
    Descent (Round Expr) := do
  match ← peek with
  | .keyword .instanceOf =>
    if relationalLevel < least then return .done left
    let _ ← next
    let type ← typeRef limit
    return .again (.instanceOf left type left.position)
  | .punct mark =>
    match binaryOp? mark with
    | none => return .done left
    | some op =>
      if binaryLevel op < least then return .done left
      let _ ← next
      let right ← binary (binaryLevel op + 1)
      return .again (.binary op left right left.position)
  | _ => return .done left

/-- One operand more of `&&` or `||`. -/
def logicalRound (op : LogicalOp) (operand : Descent Expr) (left : Expr) : Descent (Round Expr) := do
  if ← sees (logicalMark op) then
    let _ ← next
    let right ← operand
    return .again (.logical op left right left.position)
  else return .done left

/-! ### Expressions -/

mutual

/-- An expression. -/
def expression : Nat → Descent Expr
  | 0 => exhausted
  | limit + 1 => do
    let position ← place
    let target ← conditional limit
    match ← peek with
    | .punct mark =>
      match Parse.assignOp? mark with
      | none => return target
      | some op =>
        if !target.isAssignable then throw (malformed .invalidAssignmentTarget (some (← place)))
        let _ ← next
        let value ← expression limit
        return .assign target op value position
    | _ => return target

/-- An expression that is no assignment. -/
def conditional : Nat → Descent Expr
  | 0 => exhausted
  | limit + 1 => do
    let position ← place
    let test ← disjunction limit
    if ← sees .question then
      let _ ← next
      let first ← expression limit
      expectPunct .colon
      let second ← conditional limit
      return .conditional test first second position
    else return test

/-- Operands of `||`. -/
def disjunction : Nat → Descent Expr
  | 0 => exhausted
  | limit + 1 => do
    let left ← conjunction limit
    rounds (logicalRound .or (conjunction limit)) limit left

/-- Operands of `&&`. -/
def conjunction : Nat → Descent Expr
  | 0 => exhausted
  | limit + 1 => do
    let left ← binary limit 1
    rounds (logicalRound .and (binary limit 1)) limit left

/-- Operands joined by binary operators of a level at least. -/
def binary : Nat → Nat → Descent Expr
  | 0, _ => exhausted
  | limit + 1, least => do
    let left ← unary limit
    rounds (binaryRound limit (binary limit) least) limit left

/-- An operand with the operators before it. -/
def unary : Nat → Descent Expr
  | 0 => exhausted
  | limit + 1 => do
    let position ← place
    match ← peek with
    | .punct mark =>
      match Parse.updateOp? mark, Parse.unaryOp? mark with
      | some op, _ =>
        let _ ← next
        let target ← unary limit
        if !target.isAssignable then throw (malformed .invalidIncrementTarget (some position))
        return .update op true target position
      | none, some op =>
        let _ ← next
        let argument ← unary limit
        return .unary op argument position
      | none, none =>
        if mark = .minus then
          let _ ← next
          negation (unary limit) position
        else if mark = .lparen then
          match ← castHead limit with
          | some type =>
            let argument ← unary limit
            return .cast type argument position
          | none => operand limit (expression limit)
        else operand limit (expression limit)
    | _ => operand limit (expression limit)

end

/-- An expression that is a whole text. -/
def wholeExpression (limit : Nat) : Descent Expr := do
  let read ← expression limit
  if ← atEnd then return read
  else
    let token ← next
    refuse "end of input" token

end Descent

end MethodPatch
