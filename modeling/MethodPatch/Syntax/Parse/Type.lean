/-
**Reading types.**

Readers of tokens, and the first of them: types.

* `typeRef`: a type;
* `startsDeclaration`: whether a declaration comes next;
* `castHead`: a type in parentheses that makes a cast of the operand behind it.
-/

import MethodPatch.Syntax.Lexer
import MethodPatch.Syntax.Tree

namespace MethodPatch.Parse

/-! ### Reading constructs from tokens

What remains to be read is a list of tokens and, behind it, the end of the text or a fault that
hides the rest. A reader looks at the next token or takes it; where only the fault is left, looking
is the fault. A construct that was read leaves fewer tokens than there were: `Parsed` says so in its
type, and this is why reading ends. -/

/-- What is behind the tokens: the end of the text or a fault. -/
abbrev Finish := Except SourceError Position

/-- Tokens of which there are fewer than a bound. -/
abbrev Fewer (bound : Nat) := { rest : List Lexeme // rest.length < bound }

/-- The tokens behind the first one. -/
theorem fewer_behind (rest : List Lexeme) : rest.length < rest.length + 1 := Nat.lt_succ_self _

/-- The same tokens under a larger bound. -/
def Fewer.within {inner bound : Nat} (rest : Fewer inner) (fewer : inner < bound) : Fewer bound :=
  ⟨rest.1, Nat.lt_trans rest.2 fewer⟩

/-- What was read, and the tokens behind it, which are fewer than a bound. -/
abbrev Parsed (bound : Nat) (α : Type) := α × Fewer bound

/-- An attempt to read. -/
abbrev Reading (α : Type) := Except SourceError α

/-- The next token. -/
def look (finish : Finish) : List Lexeme → Reading Token
  | lexeme :: _ => .ok lexeme.token
  | [] => finish.map fun _ => .endOfInput

/-- The place of the next token. -/
def place (finish : Finish) : List Lexeme → Reading Position
  | lexeme :: _ => .ok lexeme.position
  | [] => finish

/-- That something else was wanted than the next token. -/
def expected (finish : Finish) (wanted : String) (tokens : List Lexeme) : SourceError :=
  match look finish tokens, place finish tokens with
  | .ok token, .ok position => malformed (.expected wanted token.describe) (some position)
  | .error error, _ => error
  | _, .error error => error

/-- The next token if it is a punctuator, its place, and the tokens behind it. -/
def nextPunct? (tokens : List Lexeme) : Option (Punct × Position × Fewer tokens.length) :=
  match tokens with
  | ⟨.punct mark, position⟩ :: rest => some (mark, position, ⟨rest, fewer_behind rest⟩)
  | _ => none

/-- The tokens behind a punctuator, if it comes next. -/
def accept (finish : Finish) (mark : Punct) (tokens : List Lexeme) :
    Reading (Option (Fewer tokens.length)) :=
  (look finish tokens).map fun _ =>
    match nextPunct? tokens with
    | some (found, _, rest) => if found = mark then some rest else none
    | none => none

/-- The tokens behind a punctuator, which has to come next. -/
def expectPunct (finish : Finish) (mark : Punct) (tokens : List Lexeme) :
    Reading (Fewer tokens.length) :=
  match nextPunct? tokens with
  | some (found, _, rest) => if found = mark then .ok rest else .error (expected finish mark.title tokens)
  | none => .error (expected finish mark.title tokens)

/-- The tokens behind a keyword, which has to come next. -/
def expectKeyword (finish : Finish) (word : Keyword) (tokens : List Lexeme) :
    Reading (Fewer tokens.length) :=
  match tokens with
  | ⟨.keyword found, position⟩ :: rest =>
    if found = word then .ok ⟨rest, fewer_behind rest⟩
    else .error (expected finish word.title (⟨.keyword found, position⟩ :: rest))
  | _ => .error (expected finish word.title tokens)

/-- A name, which has to come next. -/
def expectName (finish : Finish) (tokens : List Lexeme) : Reading (Parsed tokens.length String) :=
  match tokens with
  | ⟨.name text, _⟩ :: rest => .ok (text, ⟨rest, fewer_behind rest⟩)
  | _ => .error (expected finish "identifier" tokens)

/-! ### Reading types

A type is a primitive keyword or a name with points in it, and pairs of brackets behind. -/

/-- The primitive type of a keyword. -/
def primitive? : Keyword → Option FieldType
  | .boolean => some .boolean
  | .byte => some .byte
  | .char => some .char
  | .short => some .short
  | .int => some .int
  | .long => some .long
  | .float => some .float
  | .double => some .double
  | _ => none

/-- The parts of a dotted name behind its first one. A point that no name follows is left. -/
def dottedName (finish : Finish) (bound : Nat) (name : String) :
    (tokens : List Lexeme) → tokens.length < bound → Reading (Parsed bound String)
  | ⟨.punct .dot, _⟩ :: ⟨.name part, _⟩ :: rest, fewer =>
    dottedName finish bound (name ++ "." ++ part) rest (by simp at fewer; omega)
  | [⟨.punct .dot, position⟩], fewer =>
    finish.map fun _ => (name, ⟨[⟨.punct .dot, position⟩], fewer⟩)
  | tokens, fewer => (look finish tokens).map fun _ => (name, ⟨tokens, fewer⟩)

/-- The element type that a written type begins with. -/
def baseType (finish : Finish) (tokens : List Lexeme) : Reading (Parsed tokens.length BaseType) :=
  match tokens with
  | [] =>
    .error (match finish with
      | .ok position => malformed .unexpectedEnd (some position)
      | .error error => error)
  | ⟨.keyword word, position⟩ :: rest =>
    match primitive? word with
    | some type => .ok (.primitive type, ⟨rest, fewer_behind rest⟩)
    | none => .error (expected finish "type" (⟨.keyword word, position⟩ :: rest))
  | ⟨.name first, _⟩ :: rest => do
    let (name, behind) ← dottedName finish (rest.length + 1) first rest (fewer_behind rest)
    return (.named name, behind)
  | lexeme :: rest => .error (expected finish "type" (lexeme :: rest))

/-- Pairs of brackets behind a type. -/
def brackets (finish : Finish) (bound : Nat) (type : TypeRef) (tokens : List Lexeme)
    (fewer : tokens.length < bound) : Reading (Parsed bound TypeRef) := do
  match ← accept finish .lbracket tokens with
  | none => return (type, ⟨tokens, fewer⟩)
  | some ⟨inside, _⟩ =>
    let ⟨behind, _⟩ ← expectPunct finish .rbracket inside
    brackets finish bound type.arrayOf behind (by omega)
termination_by tokens.length

/-- A type. -/
def typeRef (finish : Finish) (tokens : List Lexeme) : Reading (Parsed tokens.length TypeRef) := do
  let position ← place finish tokens
  let (base, ⟨rest, fewer⟩) ← baseType finish tokens
  brackets finish tokens.length ⟨base, 0, some position⟩ rest fewer

/-- Whether a declaration comes next: `final`, a primitive keyword, or a type and a name. -/
def startsDeclaration (finish : Finish) (tokens : List Lexeme) : Bool :=
  match tokens with
  | ⟨.keyword word, _⟩ :: _ => word = .final || (primitive? word).isSome
  | ⟨.name _, _⟩ :: _ =>
    match typeRef finish tokens with
    | .ok (_, ⟨⟨.name _, _⟩ :: _, _⟩) => true
    | _ => false
  | _ => false

/-- Tokens that begin the operand of a cast to a class. A sign does not: behind a name in
parentheses it is a binary operator. -/
def startsOperand : Token → Bool
  | .name _ | .int _ | .long _ | .float _ | .double _ | .char _ | .string _ => true
  | .keyword word =>
    word = .thisWord || word = .newWord || word = .trueWord || word = .falseWord ||
      word = .nullWord
  | .punct mark => mark = .lparen || mark = .not || mark = .tilde
  | .endOfInput => false

/-- Whether a type may begin with a token, and whether it is then a primitive one. -/
def startsType : Token → Bool × Bool
  | .name _ => (true, false)
  | .keyword word => ((primitive? word).isSome, (primitive? word).isSome)
  | _ => (false, false)

/-- The type of a cast and the tokens behind its parentheses, if the tokens begin with one. -/
def castHead (finish : Finish) (tokens : List Lexeme) :
    Reading (Option (TypeRef × Fewer tokens.length)) := do
  match ← accept finish .lparen tokens with
  | none => return none
  | some ⟨inside, inner⟩ =>
    let (possible, isPrimitive) := startsType (← look finish inside)
    if !possible then return none
    match typeRef finish inside with
    | .error _ => return none
    | .ok (type, ⟨rest, fewer⟩) =>
      match ← accept finish .rparen rest with
      | none => return none
      | some ⟨behind, last⟩ =>
        if isPrimitive || startsOperand (← look finish behind) then
          return some (type, ⟨behind, by omega⟩)
        else return none

end MethodPatch.Parse
