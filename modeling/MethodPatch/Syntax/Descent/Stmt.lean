/-
**Descending through statements.**

Statements are read by descending as well. They begin with a look at the next token, which is a declaration
if a name stands behind a type. The variables that they declare are noted. How many loops there are around
a statement decides on its jumps.

* `Composing`: descending, with the variables noted;
* `Descent.statement`: a statement;
* `Descent.wholeText`: the statements that are a whole text.
-/

import MethodPatch.Syntax.Descent.Expr
import MethodPatch.Syntax.Parse.Stmt

namespace MethodPatch

/-- Descending while variables are noted. -/
abbrev Composing := Descending (Lexer × Array Declaration)

namespace Descent

/-- Descends and notes nothing. -/
def reading {α : Type} (act : Descent α) : Composing α := ExceptT.mk fun (lexer, declared) =>
  (act.run.run lexer).map fun (result, lexer) => (result, (lexer, declared))

/-- Notes a declaration. -/
def note (declaration : Declaration) : Composing Unit :=
  modify fun (lexer, declared) => (lexer, declared.push declaration)

/-! ### Parts of statements -/

/-- The semicolon behind a statement, which may be missing at the end of the text. -/
def endStatement : Descent Unit := do
  if ← sees .semicolon then
    let _ ← next
    return ()
  else if ← atEnd then return ()
  else
    let token ← next
    refuse "';'" token

/-- A test in parentheses. -/
def test (limit : Nat) : Descent Expr := do
  expectPunct .lparen
  let test ← expression limit
  expectPunct .rparen
  return test

/-- One expression more behind a comma. -/
def expressionsRound (limit : Nat) (read : List Expr) : Descent (Round (List Expr)) := do
  if ← sees .comma then
    let _ ← next
    let more ← expression limit
    return .again (more :: read)
  else return .done read.reverse

/-- Sees to it that a punctuator comes next, which stays. -/
def endList (mark : Punct) : Descent Unit := do
  if ← sees mark then return ()
  else
    let token ← next
    refuse mark.title token

/-- Expressions between commas, up to a punctuator that stays. -/
def expressionList (limit : Nat) (last : Punct) : Descent (List Expr) := do
  let first ← expression limit
  let expressions ← rounds (expressionsRound limit) limit [first]
  endList last
  return expressions

/-- Expressions that may stand alone, between commas, up to a punctuator that stays. -/
def statementExpressions (limit : Nat) (last : Punct) : Descent (List Expr) := do
  let expressions ← expressionList limit last
  expressions.forM fun expression => liftExcept (Parse.checkStatement expression)
  return expressions

/-- The initial value behind a declared name, if there is one. -/
def initialValue (limit : Nat) : Descent (Option Expr) := do
  if ← sees .assign then
    let _ ← next
    if ← sees .lbrace then throw (malformed .arrayInitializer (some (← place)))
    let value ← expression limit
    return some value
  else return none

/-- One variable of a declaration. -/
def declarator (limit : Nat) (type : TypeRef) : Descent Declarator := do
  let position ← place
  let name ← expectName
  let type ← rounds bracketsRound limit type
  let initial ← initialValue limit
  return ⟨name, type, initial, none, none, position⟩

/-- One variable more of a declaration, which is noted. The others are held in reverse. -/
def declaratorsRound (limit : Nat) (type : TypeRef) (read : List Declarator) :
    Composing (Round (List Declarator)) := do
  let first ← reading (declarator limit type)
  note ⟨first.name, first.type⟩
  if ← reading (sees .comma) then
    let _ ← reading next
    return .again (first :: read)
  else return .done (first :: read).reverse

/-- A declaration without the semicolon behind it. -/
def declaration (limit : Nat) : Composing Stmt := do
  let position ← reading place
  let isFinal ← reading (seesWord .final)
  if isFinal then
    let _ ← reading next
  let type ← reading (typeRef limit)
  let declarators ← rounds (declaratorsRound limit type) limit []
  return .declare isFinal declarators position

/-- The start of a `for` loop up to its first semicolon, which stays. -/
def loopStart (limit : Nat) : Composing (List Stmt) := do
  if ← reading (sees .semicolon) then return []
  else if ← reading (startsDeclaration limit) then
    let declared ← declaration limit
    return [declared]
  else
    let expressions ← reading (statementExpressions limit .semicolon)
    return expressions.map fun start => .expression start start.position

/-- The test of a `for` loop and the semicolon behind it. -/
def loopTest (limit : Nat) : Descent (Option Expr) := do
  let test ← if ← sees .semicolon then pure none
    else
      let test ← expression limit
      pure (some test)
  expectPunct .semicolon
  return test

/-- The updates of a `for` loop and the closing parenthesis. -/
def loopUpdates (limit : Nat) : Descent (List Expr) := do
  let updates ← if ← sees .rparen then pure [] else statementExpressions limit .rparen
  expectPunct .rparen
  return updates

/-! ### Statements -/

/-- `return`, with or without a result. -/
def returnStatement (limit : Nat) : Descent Stmt := do
  let position ← place
  expectKeyword .returnWord
  let bare ← if ← sees .semicolon then pure true else atEnd
  if bare then
    endStatement
    return .ret none position
  else
    let result ← expression limit
    endStatement
    return .ret (some result) position

/-- `break` or `continue`, with loops around it. -/
def jumpStatement (depth : Nat) (word : Keyword) (jump : Position → Stmt) : Descent Stmt := do
  let position ← place
  let _ ← next
  if depth = 0 then throw (malformed (.jumpOutsideLoop word.word) (some position))
  match ← peek with
  | .name _ => throw (malformed .labeledJump (some (← place)))
  | _ =>
    endStatement
    return jump position

/-- `throw`. -/
def throwStatement (limit : Nat) : Descent Stmt := do
  let position ← place
  expectKeyword .throwWord
  let thrown ← expression limit
  endStatement
  return .throwing thrown position

/-- An expression as a statement. -/
def expressionStatement (limit : Nat) : Descent Stmt := do
  let position ← place
  let expression ← expression limit
  liftExcept (Parse.checkStatement expression)
  endStatement
  return .expression expression position

/-- A statement that belongs to a loop or a branch, where a declaration needs a block around it. -/
def substatement (statement : Composing Stmt) : Composing Stmt := do
  if ← reading (seesWord .final) then
    throw (malformed .misplacedDeclaration (some (← reading place)))
  let inner ← statement
  if inner.isDeclaration then throw (malformed .misplacedDeclaration (some inner.position))
  return inner

/-- `if`. -/
def ifStatement (limit : Nat) (statement : Composing Stmt) : Composing Stmt := do
  let position ← reading place
  reading (expectKeyword .ifWord)
  let test ← reading (test limit)
  let first ← substatement statement
  if ← reading (seesWord .elseWord) then
    let _ ← reading next
    let second ← substatement statement
    return .branch test first (some second) position
  else return .branch test first none position

/-- `while`, with what it repeats. -/
def whileStatement (limit : Nat) (statement : Composing Stmt) : Composing Stmt := do
  let position ← reading place
  reading (expectKeyword .whileWord)
  let test ← reading (test limit)
  let body ← substatement statement
  return .whileLoop test body position

/-- `do`, with what it repeats. -/
def doStatement (limit : Nat) (statement : Composing Stmt) : Composing Stmt := do
  let position ← reading place
  reading (expectKeyword .doWord)
  let body ← substatement statement
  reading (expectKeyword .whileWord)
  let test ← reading (test limit)
  reading endStatement
  return .doLoop body test position

/-- `for`, with what it repeats. -/
def forStatement (limit : Nat) (statement : Composing Stmt) : Composing Stmt := do
  let position ← reading place
  reading (expectKeyword .forWord)
  reading (expectPunct .lparen)
  let start ← loopStart limit
  reading (expectPunct .semicolon)
  let test ← reading (loopTest limit)
  let updates ← reading (loopUpdates limit)
  let body ← substatement statement
  return .forLoop start test updates body position

/-- One statement more of a block. The others are held in reverse. -/
def blockRound (statement : Composing Stmt) (read : List Stmt) : Composing (Round (List Stmt)) := do
  if ← reading (sees .rbrace) then return .done read.reverse
  else if ← reading atEnd then
    throw (malformed .unexpectedEnd (some (← reading place)))
  else
    let first ← statement
    return .again (first :: read)

/-- The statements of a block and the brace that ends it. -/
def blockBody (limit : Nat) (statement : Composing Stmt) : Composing (List Stmt) := do
  let body ← rounds (blockRound statement) limit []
  reading (expectPunct .rbrace)
  return body

/-- A block. -/
def block (limit : Nat) (statement : Composing Stmt) : Composing Stmt := do
  let position ← reading place
  reading (expectPunct .lbrace)
  let body ← blockBody limit statement
  return .block body position

/-- A semicolon. -/
def emptyStatement : Descent Stmt := do
  let position ← place
  let _ ← next
  return .empty position

/-- A statement, with loops around it. -/
def statement : Nat → Nat → Composing Stmt
  | 0, _ => exhausted
  | limit + 1, depth => do
    match ← reading peek with
    | .keyword .ifWord => ifStatement limit (statement limit depth)
    | .keyword .whileWord => whileStatement limit (statement limit (depth + 1))
    | .keyword .doWord => doStatement limit (statement limit (depth + 1))
    | .keyword .forWord => forStatement limit (statement limit (depth + 1))
    | .keyword .returnWord => reading (returnStatement limit)
    | .keyword .breakWord => reading (jumpStatement depth .breakWord .breakLoop)
    | .keyword .continueWord => reading (jumpStatement depth .continueWord .continueLoop)
    | .keyword .throwWord => reading (throwStatement limit)
    | .punct .lbrace => block limit (statement limit depth)
    | .punct .semicolon => reading emptyStatement
    | _ =>
      if ← reading (startsDeclaration limit) then
        let declared ← declaration limit
        reading endStatement
        return declared
      else reading (expressionStatement limit)

/-- One statement more of a text. The others are held in reverse. -/
def textRound (statement : Composing Stmt) (read : List Stmt) : Composing (Round (List Stmt)) := do
  if ← reading atEnd then return .done read.reverse
  else
    let first ← statement
    return .again (first :: read)

/-- The statements that are a whole text. -/
def wholeText (limit : Nat) : Composing (List Stmt) := rounds (textRound (statement limit 0)) limit []

end Descent

end MethodPatch
