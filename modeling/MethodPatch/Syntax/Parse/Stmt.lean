/-
**Reading statements.**

A statement ends with a semicolon, which may be missing at the very end of the text. While
statements are read the variables they declare are noted, each once its initial value has been read,
so that they are known even if a later part of the text is malformed.

* `Stmt.parse`: the statements that are a whole text, and the variables noted.
-/

import MethodPatch.Syntax.Parse.Expr

namespace MethodPatch

namespace Parse

/-- An attempt to read that notes declarations. -/
abbrev Noting := ExceptT SourceError (StateM (Array Declaration))

/-- Notes a declaration. -/
def note (declaration : Declaration) : Noting Unit := modify (·.push declaration)

/-- The tokens behind the semicolon that ends a statement. At the end of the text there need not be
one. -/
def endStatement (finish : Finish) (bound : Nat) (tokens : List Lexeme)
    (fewer : tokens.length < bound) : Reading (Fewer bound) := do
  match ← accept finish .semicolon tokens with
  | some rest => return rest.within fewer
  | none =>
    match ← look finish tokens with
    | .endOfInput => return ⟨tokens, fewer⟩
    | _ => throw (expected finish "';'" tokens)

/-- An expression that may stand alone. -/
def checkStatement (expression : Expr) : Reading Unit :=
  if expression.isStatement then .ok ()
  else .error (malformed .notAStatement (some expression.position))

/-- A test in parentheses. -/
def test (finish : Finish) (tokens : List Lexeme) : Reading (Parsed tokens.length Expr) := do
  let ⟨inside, first⟩ ← expectPunct finish .lparen tokens
  let (test, ⟨middle, second⟩) ← expression finish inside
  let rest ← expectPunct finish .rparen middle
  return (test, (rest.within second).within first)

/-- Expressions between commas, up to a punctuator that stays. `read` holds earlier ones in
reverse. -/
def expressionsFrom (finish : Finish) (last : Punct) (bound : Nat) (read : List Expr)
    (tokens : List Lexeme) (fewer : tokens.length < bound) : Reading (Parsed bound (List Expr)) := do
  let (first, ⟨rest, shorter⟩) ← expression finish tokens
  match ← accept finish .comma rest with
  | some ⟨others, _⟩ => expressionsFrom finish last bound (first :: read) others (by omega)
  | none =>
    match ← accept finish last rest with
    | some _ => return ((first :: read).reverse, Fewer.within ⟨rest, shorter⟩ fewer)
    | none => throw (expected finish last.title rest)
termination_by tokens.length

/-- Expressions that may stand alone, between commas, up to a punctuator that stays. -/
def statementExpressions (finish : Finish) (last : Punct) (bound : Nat) (tokens : List Lexeme)
    (fewer : tokens.length < bound) : Reading (Parsed bound (List Expr)) := do
  let (expressions, rest) ← expressionsFrom finish last bound [] tokens fewer
  expressions.forM checkStatement
  return (expressions, rest)

/-- The initial value behind a declared name, if there is one. -/
def initialValue (finish : Finish) (bound : Nat) (tokens : List Lexeme)
    (fewer : tokens.length < bound) : Reading (Parsed bound (Option Expr)) := do
  match ← accept finish .assign tokens with
  | none => return (none, ⟨tokens, fewer⟩)
  | some ⟨behind, shorter⟩ =>
    match ← accept finish .lbrace behind with
    | some _ => throw (malformed .arrayInitializer (some (← place finish behind)))
    | none =>
      let (value, rest) ← expression finish behind
      return (some value, (rest.within shorter).within fewer)

/-- One variable of a declaration. -/
def declarator (finish : Finish) (type : TypeRef) (tokens : List Lexeme) :
    Reading (Parsed tokens.length Declarator) := do
  let position ← place finish tokens
  let (name, ⟨behind, fewer⟩) ← expectName finish tokens
  let (type, ⟨rest, fewer⟩) ← brackets finish tokens.length type behind fewer
  let (initial, last) ← initialValue finish tokens.length rest fewer
  return (⟨name, type, initial, none, none, position⟩, last)

/-- The variables of a declaration, between commas. `read` holds earlier ones in reverse. -/
def declaratorsFrom (finish : Finish) (type : TypeRef) (bound : Nat) (read : List Declarator)
    (tokens : List Lexeme) (fewer : tokens.length < bound) :
    Noting (Parsed bound (List Declarator)) := do
  let (first, ⟨rest, _⟩) ← liftExcept (declarator finish type tokens)
  note ⟨first.name, first.type⟩
  match ← liftExcept (accept finish .comma rest) with
  | some ⟨others, _⟩ => declaratorsFrom finish type bound (first :: read) others (by omega)
  | none => return ((first :: read).reverse, ⟨rest, by omega⟩)
termination_by tokens.length

/-- The tokens behind `final`, or all if it does not come next. -/
def skipFinal (tokens : List Lexeme) : Bool × { rest : List Lexeme // rest.length ≤ tokens.length } :=
  match tokens with
  | ⟨.keyword .final, _⟩ :: rest => (true, ⟨rest, Nat.le_succ _⟩)
  | tokens => (false, ⟨tokens, Nat.le_refl _⟩)

/-- A declaration without the semicolon behind it. -/
def declaration (finish : Finish) (tokens : List Lexeme) : Noting (Parsed tokens.length Stmt) := do
  let position ← liftExcept (place finish tokens)
  let (isFinal, ⟨behind, _⟩) := skipFinal tokens
  let (type, ⟨rest, _⟩) ← liftExcept (typeRef finish behind)
  let (declarators, last) ← declaratorsFrom finish type tokens.length [] rest (by omega)
  return (.declare isFinal declarators position, last)

/-- The start of a `for` loop up to its first semicolon, which stays. -/
def loopStart (finish : Finish) (bound : Nat) (tokens : List Lexeme)
    (fewer : tokens.length < bound) : Noting (Parsed bound (List Stmt)) := do
  match ← liftExcept (accept finish .semicolon tokens) with
  | some _ => return ([], ⟨tokens, fewer⟩)
  | none =>
    if startsDeclaration finish tokens then
      let (declared, ⟨rest, _⟩) ← declaration finish tokens
      return ([declared], ⟨rest, by omega⟩)
    else
      let (expressions, rest) ←
        liftExcept (statementExpressions finish .semicolon bound tokens fewer)
      return (expressions.map fun start => .expression start start.position, rest)

/-- The test of a `for` loop and the semicolon behind it. -/
def loopTest (finish : Finish) (bound : Nat) (tokens : List Lexeme)
    (fewer : tokens.length < bound) : Reading (Parsed bound (Option Expr)) := do
  match ← accept finish .semicolon tokens with
  | some ⟨rest, _⟩ => return (none, ⟨rest, by omega⟩)
  | none =>
    let (test, ⟨middle, _⟩) ← expression finish tokens
    let ⟨rest, _⟩ ← expectPunct finish .semicolon middle
    return (some test, ⟨rest, by omega⟩)

/-- The updates of a `for` loop and the closing parenthesis. -/
def loopUpdates (finish : Finish) (bound : Nat) (tokens : List Lexeme)
    (fewer : tokens.length < bound) : Reading (Parsed bound (List Expr)) := do
  match ← accept finish .rparen tokens with
  | some ⟨rest, _⟩ => return ([], ⟨rest, by omega⟩)
  | none =>
    let (updates, ⟨middle, _⟩) ← statementExpressions finish .rparen bound tokens fewer
    let ⟨rest, _⟩ ← expectPunct finish .rparen middle
    return (updates, ⟨rest, by omega⟩)

/-- The head of a `for` loop, behind the keyword. -/
def loopHead (finish : Finish) (bound : Nat) (tokens : List Lexeme)
    (fewer : tokens.length < bound) :
    Noting (Parsed bound (List Stmt × Option Expr × List Expr)) := do
  let ⟨inside, _⟩ ← liftExcept (expectPunct finish .lparen tokens)
  let (start, ⟨first, _⟩) ← loopStart finish bound inside (by omega)
  let ⟨behind, _⟩ ← liftExcept (expectPunct finish .semicolon first)
  let (test, ⟨second, fewer⟩) ← liftExcept (loopTest finish bound behind (by omega))
  let (updates, rest) ← liftExcept (loopUpdates finish bound second fewer)
  return ((start, test, updates), rest)

/-- `return`, with or without a result, behind the keyword. -/
def returnStatement (finish : Finish) (position : Position) (bound : Nat) (tokens : List Lexeme)
    (fewer : tokens.length < bound) : Reading (Parsed bound Stmt) := do
  let bare ← match ← accept finish .semicolon tokens with
    | some _ => pure true
    | none => pure ((← look finish tokens) == .endOfInput)
  if bare then
    let rest ← endStatement finish bound tokens fewer
    return (.ret none position, rest)
  else
    let (result, ⟨rest, _⟩) ← expression finish tokens
    let last ← endStatement finish bound rest (by omega)
    return (.ret (some result) position, last)

/-- `break` or `continue`, behind the keyword. -/
def jumpStatement (finish : Finish) (inLoop : Bool) (word : Keyword) (jump : Position → Stmt)
    (position : Position) (bound : Nat) (tokens : List Lexeme) (fewer : tokens.length < bound) :
    Reading (Parsed bound Stmt) := do
  if !inLoop then throw (malformed (.jumpOutsideLoop word.word) (some position))
  match ← look finish tokens with
  | .name _ => throw (malformed .labeledJump (some (← place finish tokens)))
  | _ =>
    let rest ← endStatement finish bound tokens fewer
    return (jump position, rest)

/-- An expression as a statement. -/
def expressionStatement (finish : Finish) (tokens : List Lexeme) :
    Reading (Parsed tokens.length Stmt) := do
  let position ← place finish tokens
  let (expression, ⟨rest, _⟩) ← expression finish tokens
  checkStatement expression
  let last ← endStatement finish tokens.length rest (by omega)
  return (.expression expression position, last)

/-- A statement that needs no other statement. -/
def simpleStatement (finish : Finish) (inLoop : Bool) (tokens : List Lexeme) :
    Noting (Parsed tokens.length Stmt) :=
  match tokens with
  | ⟨.keyword .returnWord, position⟩ :: rest =>
    liftExcept (returnStatement finish position _ rest (fewer_behind rest))
  | ⟨.keyword .breakWord, position⟩ :: rest =>
    liftExcept (jumpStatement finish inLoop .breakWord .breakLoop position _ rest
      (fewer_behind rest))
  | ⟨.keyword .continueWord, position⟩ :: rest =>
    liftExcept (jumpStatement finish inLoop .continueWord .continueLoop position _ rest
      (fewer_behind rest))
  | ⟨.keyword .throwWord, position⟩ :: rest => liftExcept do
    let (thrown, ⟨middle, _⟩) ← expression finish rest
    let last ← endStatement finish (rest.length + 1) middle (by omega)
    return (.throwing thrown position, last)
  | ⟨.punct .semicolon, position⟩ :: rest => return (.empty position, ⟨rest, fewer_behind rest⟩)
  | tokens =>
    if startsDeclaration finish tokens then do
      let (declared, ⟨rest, _⟩) ← declaration finish tokens
      let last ← liftExcept (endStatement finish tokens.length rest (by omega))
      return (declared, last)
    else liftExcept (expressionStatement finish tokens)

mutual

/-- A statement. `break` and `continue` are for statements in a loop alone. -/
def statement (finish : Finish) (inLoop : Bool) (tokens : List Lexeme) :
    Noting (Parsed tokens.length Stmt) :=
  match tokens with
  | ⟨.keyword .ifWord, position⟩ :: rest => do
    let (test, ⟨behind, _⟩) ← liftExcept (test finish rest)
    let (first, ⟨middle, _⟩) ← substatement finish inLoop behind
    match ← liftExcept (look finish middle) with
    | .keyword .elseWord =>
      let ⟨other, _⟩ ← liftExcept (expectKeyword finish .elseWord middle)
      let (second, ⟨last, _⟩) ← substatement finish inLoop other
      return (.branch test first (some second) position, ⟨last, by simp; omega⟩)
    | _ => return (.branch test first none position, ⟨middle, by simp; omega⟩)
  | ⟨.keyword .whileWord, position⟩ :: rest => do
    let (test, ⟨behind, _⟩) ← liftExcept (test finish rest)
    let (body, ⟨last, _⟩) ← substatement finish true behind
    return (.whileLoop test body position, ⟨last, by simp; omega⟩)
  | ⟨.keyword .doWord, position⟩ :: rest => do
    let (body, ⟨middle, _⟩) ← substatement finish true rest
    let ⟨behind, _⟩ ← liftExcept (expectKeyword finish .whileWord middle)
    let (test, ⟨tail, _⟩) ← liftExcept (test finish behind)
    let last ← liftExcept (endStatement finish (rest.length + 1) tail (by omega))
    return (.doLoop body test position, last)
  | ⟨.keyword .forWord, position⟩ :: rest => do
    let ((start, test, updates), ⟨behind, _⟩) ←
      loopHead finish (rest.length + 1) rest (fewer_behind rest)
    let (body, ⟨last, _⟩) ← substatement finish true behind
    return (.forLoop start test updates body position, ⟨last, by simp; omega⟩)
  | ⟨.punct .lbrace, position⟩ :: rest => do
    let (body, last) ← block finish inLoop (rest.length + 1) [] rest (fewer_behind rest)
    return (.block body position, last)
  | tokens => simpleStatement finish inLoop tokens
termination_by 8 * tokens.length + 1

/-- A statement that belongs to a loop or a branch, where a declaration needs a block around it. -/
def substatement (finish : Finish) (inLoop : Bool) (tokens : List Lexeme) :
    Noting (Parsed tokens.length Stmt) := do
  if (← liftExcept (look finish tokens)) = .keyword .final then
    throw (malformed .misplacedDeclaration (some (← liftExcept (place finish tokens))))
  let (inner, rest) ← statement finish inLoop tokens
  if inner.isDeclaration then throw (malformed .misplacedDeclaration (some inner.position))
  return (inner, rest)
termination_by 8 * tokens.length + 2

/-- The statements of a block up to the brace that ends it. `read` holds earlier ones in reverse. -/
def block (finish : Finish) (inLoop : Bool) (bound : Nat) (read : List Stmt)
    (tokens : List Lexeme) (fewer : tokens.length < bound) : Noting (Parsed bound (List Stmt)) := do
  match ← liftExcept (look finish tokens) with
  | .endOfInput => throw (malformed .unexpectedEnd (some (← liftExcept (place finish tokens))))
  | .punct .rbrace =>
    let ⟨rest, _⟩ ← liftExcept (expectPunct finish .rbrace tokens)
    return (read.reverse, ⟨rest, by omega⟩)
  | _ =>
    let (first, ⟨rest, _⟩) ← statement finish inLoop tokens
    block finish inLoop bound (first :: read) rest (by omega)
termination_by 8 * tokens.length + 3

end

/-- The statements up to the end of the text. `read` holds earlier ones in reverse. -/
def statements (finish : Finish) (read : List Stmt) (tokens : List Lexeme) : Noting (List Stmt) := do
  match ← liftExcept (look finish tokens) with
  | .endOfInput => return read.reverse
  | _ =>
    let (first, ⟨rest, _⟩) ← statement finish false tokens
    statements finish (first :: read) rest
termination_by tokens.length

end Parse

/-- The statements that are a whole text, and the variables that it declares up to where it is
malformed. -/
def Stmt.parse (source : String) : Except SourceError (List Stmt) × Array Declaration :=
  let ⟨tokens, finish⟩ := lexemes source
  (Parse.statements finish [] tokens).run.run #[]

end MethodPatch
