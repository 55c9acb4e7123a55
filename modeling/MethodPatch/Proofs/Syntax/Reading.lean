/-
**Reading known tokens.**

Where the tokens in front are known, so is what a reader does with them: whether it takes the next
token, or stops in front of it. An operand ends in front of most tokens, operands joined by operators
in front of fewer, and an expression in front of the fewest.

* `Parse.ReadsTo`: a reader takes tokens up to others;
* `Parse.operandEnds`, `Parse.joinEnds`, `Parse.testEnds`, `Parse.expressionEnds`: tokens in front of
  which a construct ends;
* `Parse.expression_of_unary`: an operand in front of such a token is the whole expression;
* `Parse.typeRef_tokens`: a type is read from its tokens;
* `Parse.castHead_none_of_dotted`, `Parse.castHead_type`: which parentheses begin a cast.
-/

import MethodPatch.Proofs.Syntax.Printed

namespace MethodPatch.Parse

variable {α β : Type} {ending : Position} {behind : List Token} {tokens : List Lexeme}

/-! ### The next token -/

/-- The first of some tokens. -/
def front (tokens : List Token) : Token := tokens.headD .endOfInput

@[simp] theorem front_cons (token : Token) (tokens : List Token) : front (token :: tokens) = token := rfl

theorem exists_of_front {mark : Punct} {tokens : List Token} (isFront : front tokens = .punct mark) :
    ∃ rest, tokens = .punct mark :: rest := by
  cases tokens with
  | nil => cases isFront
  | cons token rest => exact ⟨rest, congrArg (· :: rest) isFront⟩

/-- The tokens of lexemes begin as the lexemes do. -/
theorem exists_lexeme {token : Token} (isTokens : tokens.map Lexeme.token = token :: behind) :
    ∃ position rest, tokens = ⟨token, position⟩ :: rest ∧ rest.map Lexeme.token = behind := by
  obtain ⟨⟨_, position⟩, rest, rfl, rfl, isRest⟩ := List.map_eq_cons_iff.mp isTokens
  exact ⟨position, rest, rfl, isRest⟩

theorem look_ok (tokens : List Lexeme) :
    look (.ok ending) tokens = .ok (front (tokens.map Lexeme.token)) := by
  cases tokens <;> rfl

theorem place_ok (ending : Position) (tokens : List Lexeme) :
    ∃ position, place (.ok ending) tokens = .ok position := by
  cases tokens with
  | nil => exact ⟨ending, rfl⟩
  | cons lexeme => exact ⟨lexeme.position, rfl⟩

/-- A punctuator comes next, or none does. -/
theorem nextPunct?_cases (tokens : List Lexeme) :
    (∃ mark position rest, tokens = ⟨.punct mark, position⟩ :: rest) ∨
      nextPunct? tokens = none ∧ ∀ mark, front (tokens.map Lexeme.token) ≠ .punct mark := by
  match tokens with
  | [] => exact .inr ⟨rfl, fun mark => nofun⟩
  | ⟨token, position⟩ :: rest =>
    cases token with
    | punct mark => exact .inl ⟨mark, position, rest, rfl⟩
    | _ => exact .inr ⟨rfl, fun mark => nofun⟩

theorem accept_next {finish : Finish} (mark : Punct) (position : Position) (rest : List Lexeme) :
    accept finish mark (⟨.punct mark, position⟩ :: rest) = .ok (some ⟨rest, fewer_behind rest⟩) := by
  simp [accept, look, nextPunct?, Except.map]

theorem accept_other {mark : Punct} (other : front (tokens.map Lexeme.token) ≠ .punct mark) :
    accept (.ok ending) mark tokens = .ok none := by
  rw [accept, look_ok]
  obtain ⟨found, position, rest, rfl⟩ | ⟨isNone, _⟩ := nextPunct?_cases tokens
  · have differs : found ≠ mark := fun same => other (by rw [same]; rfl)
    simp [nextPunct?, Except.map, differs]
  · simp [isNone, Except.map]

theorem expectPunct_next {finish : Finish} (mark : Punct) (position : Position) (rest : List Lexeme) :
    expectPunct finish mark (⟨.punct mark, position⟩ :: rest) = .ok ⟨rest, fewer_behind rest⟩ := by
  simp [expectPunct, nextPunct?]

theorem expectKeyword_next {finish : Finish} (word : Keyword) (position : Position)
    (rest : List Lexeme) :
    expectKeyword finish word (⟨.keyword word, position⟩ :: rest) = .ok ⟨rest, fewer_behind rest⟩ := by
  simp [expectKeyword]

theorem expectName_next (name : String) (position : Position) (rest : List Lexeme) :
    expectName (.ok ending) (⟨.name name, position⟩ :: rest) =
      .ok (name, ⟨rest, fewer_behind rest⟩) :=
  rfl

theorem expectPunct_refused {finish : Finish} {mark : Punct}
    (isOther : look finish tokens ≠ .ok (.punct mark)) :
    expectPunct finish mark tokens = .error (expected finish mark.title tokens) := by
  rw [expectPunct]
  obtain ⟨found, position, rest, rfl⟩ | ⟨isNone, _⟩ := nextPunct?_cases tokens
  · have differs : found ≠ mark := fun same => isOther (by rw [same]; rfl)
    simp only [nextPunct?, if_neg differs]
  · simp only [isNone]

theorem expectKeyword_refused {finish : Finish} {word : Keyword}
    (isOther : look finish tokens ≠ .ok (.keyword word)) :
    expectKeyword finish word tokens = .error (expected finish word.title tokens) := by
  unfold expectKeyword
  split
  · next found position rest =>
    exact if_neg fun same => isOther (by rw [same]; rfl)
  · rfl

theorem expectPunct_other (ending : Position) {mark : Punct}
    (other : front (tokens.map Lexeme.token) ≠ .punct mark) :
    ∃ error, expectPunct (.ok ending) mark tokens = .error error :=
  ⟨_, expectPunct_refused fun isNext => other (Except.ok.inj ((look_ok tokens).symm.trans isNext))⟩

/-! ### Reading up to a token -/

/-- A reader takes tokens up to `behind`, and what it reads has a property. -/
def ReadsTo {bound : Nat} (behind : List Token) (holds : α → Prop)
    (reading : Reading (Parsed bound α)) : Prop :=
  ∃ answer rest, reading = .ok (answer, rest) ∧ rest.1.map Lexeme.token = behind ∧ holds answer

namespace ReadsTo

variable {bound inner : Nat} {middle : List Token} {holds : α → Prop} {follows : β → Prop}

theorem ok {answer : α} {rest : List Lexeme} {fewer : rest.length < bound}
    (isRest : rest.map Lexeme.token = behind) (isSo : holds answer) :
    ReadsTo behind holds (.ok (answer, (⟨rest, fewer⟩ : Fewer bound))) :=
  ⟨answer, ⟨rest, fewer⟩, rfl, isRest, isSo⟩

theorem bind {first : Reading (Parsed inner α)} {next : Parsed inner α → Reading (Parsed bound β)}
    (here : ReadsTo middle holds first)
    (others : ∀ answer rest fewer, rest.map Lexeme.token = middle → holds answer →
      ReadsTo behind follows (next (answer, ⟨rest, fewer⟩))) :
    ReadsTo behind follows (first >>= next) := by
  obtain ⟨answer, ⟨rest, fewer⟩, rfl, isRest, isSo⟩ := here
  exact others answer rest fewer isRest isSo

theorem after {γ : Type} {first : Reading γ} {answer : γ} {next : γ → Reading (Parsed bound β)}
    (isFirst : first = .ok answer) (others : ReadsTo behind follows (next answer)) :
    ReadsTo behind follows (first >>= next) := by
  rw [isFirst]
  exact others

theorem mono {reading : Reading (Parsed bound α)} {weaker : α → Prop}
    (here : ReadsTo behind holds reading) (imp : ∀ answer, holds answer → weaker answer) :
    ReadsTo behind weaker reading := by
  obtain ⟨answer, rest, isAnswer, isRest, isSo⟩ := here
  exact ⟨answer, rest, isAnswer, isRest, imp answer isSo⟩

theorem place {next : Position → Reading (Parsed bound β)} {tokens : List Lexeme}
    (others : ∀ position, ReadsTo behind follows (next position)) :
    ReadsTo behind follows (place (.ok ending) tokens >>= next) := by
  obtain ⟨position, isPlace⟩ := place_ok ending tokens
  exact after isPlace (others position)

end ReadsTo

/-! ### Where constructs end -/

/-- Tokens in front of which an operand ends. -/
def operandEnds (token : Token) : Bool :=
  !startsOperand token &&
    match token with
    | .punct mark => mark ≠ .dot && mark ≠ .lbracket && (updateOp? mark).isNone
    | _ => true

/-- Tokens in front of which joined operands end. -/
def joinEnds (token : Token) : Bool :=
  operandEnds token && token ≠ .keyword .instanceOf &&
    match token with
    | .punct mark => (joinOp? mark).isNone
    | _ => true

/-- Tokens in front of which an expression that is no assignment ends. -/
def testEnds (token : Token) : Bool := joinEnds token && token ≠ .punct .question

/-- Tokens in front of which an expression ends. -/
def expressionEnds (token : Token) : Bool :=
  testEnds token &&
    match token with
    | .punct mark => (assignOp? mark).isNone
    | _ => true

theorem joinEnds_of_testEnds {token : Token} (ends : testEnds token = true) : joinEnds token = true :=
  (Bool.and_eq_true_iff.mp ends).1

theorem testEnds_of_expressionEnds {token : Token} (ends : expressionEnds token = true) :
    testEnds token = true :=
  (Bool.and_eq_true_iff.mp ends).1

theorem operandEnds_of_joinEnds {token : Token} (ends : joinEnds token = true) :
    operandEnds token = true :=
  (Bool.and_eq_true_iff.mp (Bool.and_eq_true_iff.mp ends).1).1

theorem startsOperand_of_operandEnds {token : Token} (ends : operandEnds token = true) :
    startsOperand token = false := by
  have noOperand := (Bool.and_eq_true_iff.mp ends).1
  rwa [Bool.not_eq_true'] at noOperand

theorem operandEnds_of_expressionEnds {token : Token} (ends : expressionEnds token = true) :
    operandEnds token = true :=
  operandEnds_of_joinEnds (joinEnds_of_testEnds (testEnds_of_expressionEnds ends))

theorem ne_of_operandEnds {mark : Punct} {token : Token} (goesOn : operandEnds (.punct mark) = false)
    (ends : operandEnds token = true) : token ≠ .punct mark := by
  rintro rfl
  rw [goesOn] at ends
  cases ends

theorem operandFrom_ends {bound : Nat} {holds : Expr → Prop} {object : Expr} {rest : List Lexeme}
    {fewer : rest.length < bound} (isRest : rest.map Lexeme.token = behind)
    (ends : operandEnds (front behind) = true) (isSo : holds object) :
    ReadsTo behind holds (operandFrom (.ok ending) bound object rest fewer) := by
  subst isRest
  rw [operandFrom]
  refine .after (look_ok rest) ?_
  obtain ⟨mark, position, others, rfl⟩ | ⟨isNone, _⟩ := nextPunct?_cases rest
  · simp only [operandEnds, List.map_cons, front_cons, Bool.and_eq_true, Bool.not_eq_true',
      decide_eq_true_eq, Option.isNone_iff_eq_none] at ends
    obtain ⟨_, ⟨noDot, noBracket⟩, noUpdate⟩ := ends
    simp only [nextPunct?, if_neg noDot, if_neg noBracket, noUpdate]
    exact .ok rfl isSo
  · rw [isNone]
    exact .ok rfl isSo

theorem climbFrom_ends {least bound : Nat} {holds : Expr → Prop} {left : Expr} {rest : List Lexeme}
    {fewer : rest.length < bound} (isRest : rest.map Lexeme.token = behind)
    (ends : joinEnds (front behind) = true) (isSo : holds left) :
    ReadsTo behind holds (climbFrom (.ok ending) least bound left rest fewer) := by
  subst isRest
  rw [climbFrom]
  refine .after (look_ok rest) ?_
  obtain ⟨mark, position, others, rfl⟩ | ⟨isNone, _⟩ := nextPunct?_cases rest
  · simp only [joinEnds, List.map_cons, front_cons, Bool.and_eq_true,
      Option.isNone_iff_eq_none] at ends
    simp only [List.map_cons, front_cons, nextPunct?, ends.2]
    exact .ok rfl isSo
  · rw [isNone]
    split
    · next isWord => simp [isWord, joinEnds] at ends
    · exact .ok rfl isSo

theorem climb_of_unary {least : Nat} {holds : Expr → Prop}
    (isOperand : ReadsTo behind holds (unary (.ok ending) tokens))
    (ends : joinEnds (front behind) = true) :
    ReadsTo behind holds (climb (.ok ending) least tokens) := by
  rw [climb]
  exact isOperand.bind fun left rest fewer isRest isSo => climbFrom_ends isRest ends isSo

theorem conditional_of_climb {holds : Expr → Prop}
    (isTest : ReadsTo behind holds (climb (.ok ending) 0 tokens))
    (ends : testEnds (front behind) = true) :
    ReadsTo behind holds (conditional (.ok ending) tokens) := by
  have noQuestion : front behind ≠ .punct .question :=
    of_decide_eq_true (Bool.and_eq_true_iff.mp ends).2
  rw [conditional]
  refine .place fun position => isTest.bind fun test rest fewer isRest isSo => ?_
  exact .after (accept_other (by rwa [isRest])) (.ok isRest isSo)

theorem expression_of_conditional {holds : Expr → Prop}
    (isTarget : ReadsTo behind holds (conditional (.ok ending) tokens))
    (ends : expressionEnds (front behind) = true) :
    ReadsTo behind holds (expression (.ok ending) tokens) := by
  rw [expression]
  refine .place fun position => isTarget.bind fun target rest fewer isRest isSo => ?_
  subst isRest
  refine .after (look_ok rest) ?_
  obtain ⟨mark, position, others, rfl⟩ | ⟨isNone, _⟩ := nextPunct?_cases rest
  · simp only [expressionEnds, List.map_cons, front_cons, Bool.and_eq_true,
      Option.isNone_iff_eq_none] at ends
    simp only [nextPunct?, ends.2]
    exact .ok rfl isSo
  · simp only [isNone]
    exact .ok rfl isSo

/-! ### Operands without operators in front -/

/-- A token that is no punctuator begins an operand without operators in front. -/
theorem unary_of_front (other : ∀ mark, front (tokens.map Lexeme.token) ≠ .punct mark) :
    unary (.ok ending) tokens = operand (.ok ending) tokens := by
  obtain ⟨position, isPlace⟩ := place_ok ending tokens
  obtain ⟨mark, _, rest, rfl⟩ | ⟨isNone, _⟩ := nextPunct?_cases tokens
  · exact absurd rfl (other mark)
  · rw [unary, isPlace]
    simp only [isNone, bind, Except.bind]

/-- A parenthesis that begins no cast begins an operand. -/
theorem unary_of_paren {inside : List Token}
    (isTokens : tokens.map Lexeme.token = .punct .lparen :: inside)
    (noCast : castHead (.ok ending) tokens = .ok none) :
    unary (.ok ending) tokens = operand (.ok ending) tokens := by
  obtain ⟨position, rest, rfl, _⟩ := exists_lexeme isTokens
  rw [unary]
  simp only [nextPunct?, noCast, place, bind, Except.bind]
  rfl

theorem expression_of_unary {holds : Expr → Prop}
    (isOperand : ReadsTo behind holds (unary (.ok ending) tokens))
    (ends : expressionEnds (front behind) = true) :
    ReadsTo behind holds (expression (.ok ending) tokens) := by
  have testing := testEnds_of_expressionEnds ends
  have joining := joinEnds_of_testEnds testing
  exact expression_of_conditional (conditional_of_climb (climb_of_unary isOperand joining) testing) ends

theorem expression_of_primary {holds : Expr → Prop}
    (isOperand : unary (.ok ending) tokens = operand (.ok ending) tokens)
    (isPrimary : ReadsTo behind holds (primary (.ok ending) tokens))
    (ends : expressionEnds (front behind) = true) :
    ReadsTo behind holds (expression (.ok ending) tokens) := by
  have stops := operandEnds_of_expressionEnds ends
  refine expression_of_unary ?_ ends
  rw [isOperand, operand]
  exact isPrimary.bind fun read rest fewer isRest isSo => operandFrom_ends isRest stops isSo

/-! ### Types -/

/-- The parts of a name with points between them are the name. -/
theorem toList_foldl_points (first : String) (others : List String) :
    (others.foldl (fun name part => name ++ "." ++ part) first).toList =
      List.intercalate ['.'] ((first :: others).map String.toList) := by
  induction others generalizing first with
  | nil => simp
  | cons part rest ih =>
    rw [List.foldl_cons, ih]
    cases rest <;> simp

theorem exists_nameParts (name : String) :
    ∃ first others, nameParts name = first :: others :=
  List.exists_cons_of_ne_nil (by simp [nameParts, List.splitOn_ne_nil])

theorem foldl_nameParts {name first : String} {others : List String}
    (isParts : nameParts name = first :: others) :
    others.foldl (fun name part => name ++ "." ++ part) first = name := by
  rw [← String.toList_inj, toList_foldl_points, ← isParts, nameParts]
  simp [Function.comp_def]

theorem dottedName_parts {bound : Nat} {name : String} {others : List String}
    {fewer : tokens.length < bound}
    (isTokens : tokens.map Lexeme.token =
      (others.flatMap fun part => [.punct .dot, .name part]) ++ behind)
    (noDot : front behind ≠ .punct .dot) :
    ReadsTo behind (· = others.foldl (fun name part => name ++ "." ++ part) name)
      (dottedName (.ok ending) bound name tokens fewer) := by
  induction others generalizing name tokens with
  | nil =>
    subst isTokens
    rw [dottedName.eq_def]
    split
    · exact absurd rfl noDot
    · exact absurd rfl noDot
    · rw [look_ok]
      exact .ok rfl rfl
  | cons part rest ih =>
    obtain ⟨_, _, rfl, isMore⟩ := exists_lexeme isTokens
    obtain ⟨_, _, rfl, isRest⟩ := exists_lexeme isMore
    rw [dottedName]
    exact ih isRest

theorem baseType_dotted {first : String} (others : List String)
    (isTokens : tokens.map Lexeme.token = dotted (first :: others) ++ behind)
    (noDot : front behind ≠ .punct .dot) :
    ReadsTo behind (· = .named (others.foldl (fun name part => name ++ "." ++ part) first))
      (baseType (.ok ending) tokens) := by
  obtain ⟨_, rest, rfl, isRest⟩ := exists_lexeme isTokens
  rw [baseType]
  refine (dottedName_parts isRest noDot).bind fun name behind fewer isBehind isName => ?_
  exact .ok isBehind (congrArg BaseType.named isName)

/-- Every primitive type has a keyword that stands for it. -/
theorem exists_keyword {type : FieldType} (isPrimitive : type.isPrimitive = true) :
    ∃ word, type.keyword? = some word ∧ primitive? word = some type := by
  cases type <;> first | exact ⟨_, rfl, rfl⟩ | cases isPrimitive

theorem baseType_tokens {base : BaseType} (printable : base.isPrintable = true)
    (isTokens : tokens.map Lexeme.token = base.tokens ++ behind)
    (noDot : front behind ≠ .punct .dot) :
    ReadsTo behind (· = base) (baseType (.ok ending) tokens) := by
  cases base with
  | named name =>
    obtain ⟨first, others, isParts⟩ := exists_nameParts name
    rw [BaseType.tokens, isParts] at isTokens
    rw [← foldl_nameParts isParts]
    exact baseType_dotted others isTokens noDot
  | primitive type =>
    obtain ⟨word, isWord, isType⟩ := exists_keyword printable
    rw [BaseType.tokens, isWord] at isTokens
    obtain ⟨_, rest, rfl, isRest⟩ := exists_lexeme isTokens
    rw [baseType, isType]
    exact .ok isRest rfl

/-- Empty brackets behind a type are counted. -/
theorem brackets_pairs {bound pairs : Nat} {type : TypeRef} {fewer : tokens.length < bound}
    (isTokens : tokens.map Lexeme.token = bracketPairs pairs ++ behind)
    (noBracket : front behind ≠ .punct .lbracket) :
    ReadsTo behind (· = { type with dimensions := type.dimensions + UInt8.ofNat pairs })
      (brackets (.ok ending) bound type tokens fewer) := by
  induction pairs generalizing type tokens with
  | zero =>
    rw [brackets]
    refine .after (accept_other (by rwa [isTokens])) (.ok isTokens ?_)
    exact congrArg (TypeRef.mk type.base · type.position) (UInt8.add_zero type.dimensions).symm
  | succ pairs ih =>
    obtain ⟨_, _, rfl, isMore⟩ := exists_lexeme isTokens
    obtain ⟨_, rest, rfl, isRest⟩ := exists_lexeme isMore
    rw [brackets]
    refine .after (accept_next ..) (.after (expectPunct_next ..) ?_)
    refine (ih isRest).mono ?_
    rintro _ rfl
    rw [TypeRef.arrayOf, UInt8.ofNat_add, UInt8.add_assoc, UInt8.add_comm 1]
    rfl

/-- Empty brackets behind the length of a new array are counted. -/
theorem emptyBrackets_pairs {bound pairs : Nat} {type : TypeRef} {fewer : tokens.length < bound}
    (isTokens : tokens.map Lexeme.token = bracketPairs pairs ++ behind)
    (noBracket : front behind ≠ .punct .lbracket) :
    ReadsTo behind (· = { type with dimensions := type.dimensions + UInt8.ofNat pairs })
      (emptyBrackets (.ok ending) bound type tokens fewer) := by
  induction pairs generalizing type tokens with
  | zero =>
    rw [emptyBrackets]
    refine .after (accept_other (by rwa [isTokens])) (.ok isTokens ?_)
    exact congrArg (TypeRef.mk type.base · type.position) (UInt8.add_zero type.dimensions).symm
  | succ pairs ih =>
    obtain ⟨_, _, rfl, isMore⟩ := exists_lexeme isTokens
    obtain ⟨_, rest, rfl, isRest⟩ := exists_lexeme isMore
    rw [emptyBrackets]
    refine .after (accept_next ..) (.after (accept_next ..) ?_)
    refine (ih isRest).mono ?_
    rintro _ rfl
    rw [TypeRef.arrayOf, UInt8.ofNat_add, UInt8.add_assoc, UInt8.add_comm 1]
    rfl

/-- Empty brackets do not begin with a point, nor does what follows them. -/
theorem front_bracketPairs {pairs : Nat} (noDot : front behind ≠ .punct .dot) :
    front (bracketPairs pairs ++ behind) ≠ .punct .dot := by
  cases pairs with
  | zero => exact noDot
  | succ pairs => exact nofun

/-- A type is read from its tokens. -/
theorem typeRef_tokens {type : TypeRef} (printable : type.isPrintable = true)
    (isTokens : tokens.map Lexeme.token = type.tokens ++ behind)
    (noDot : front behind ≠ .punct .dot) (noBracket : front behind ≠ .punct .lbracket) :
    ReadsTo behind (·.unplaced = type.unplaced) (typeRef (.ok ending) tokens) := by
  rw [TypeRef.tokens, List.append_assoc] at isTokens
  refine .place fun position => ?_
  refine (baseType_tokens printable isTokens (front_bracketPairs noDot)).bind ?_
  rintro _ rest fewer isRest rfl
  refine (brackets_pairs isRest noBracket).mono ?_
  rintro _ rfl
  rw [UInt8.zero_add, UInt8.ofNat_toNat]
  rfl

/-! ### Casts -/

/-- A parenthesis is no cast in front of a token that begins no type. -/
theorem castHead_none_of_front {inside : List Token}
    (isTokens : tokens.map Lexeme.token = .punct .lparen :: inside)
    (noType : (startsType (front inside)).1 = false) :
    castHead (.ok ending) tokens = .ok none := by
  obtain ⟨_, rest, rfl, rfl⟩ := exists_lexeme isTokens
  simp only [castHead, accept_next, look_ok, bind, Except.bind, noType]
  rfl

/-- A dotted name that a parenthesis begins with is no cast unless the parenthesis ends behind it
and an operand follows. -/
theorem castHead_none_of_dotted {first : String} (others : List String)
    (isTokens : tokens.map Lexeme.token = .punct .lparen :: (dotted (first :: others) ++ behind))
    (noDot : front behind ≠ .punct .dot) (noBracket : front behind ≠ .punct .lbracket)
    (noOperand : ∀ last, behind = .punct .rparen :: last → startsOperand (front last) = false) :
    castHead (.ok ending) tokens = .ok none := by
  obtain ⟨_, inside, rfl, isInside⟩ := exists_lexeme isTokens
  have starts : startsType (front (inside.map Lexeme.token)) = (true, false) := by
    rw [isInside]
    rfl
  have isType : ReadsTo behind (fun _ => True) (typeRef (.ok ending) inside) := by
    refine .place fun position => (baseType_dotted others isInside noDot).bind ?_
    intro base rest fewer isRest _
    dsimp only
    rw [brackets]
    exact .after (accept_other (by rwa [isRest])) (.ok isRest trivial)
  obtain ⟨type, ⟨rest, fewer⟩, isType, isRest, -⟩ := isType
  simp only [castHead, accept_next, look_ok, bind, Except.bind, starts, isType]
  by_cases closed : front behind = .punct .rparen
  · obtain ⟨last, rfl⟩ := exists_of_front closed
    obtain ⟨_, last, rfl, rfl⟩ := exists_lexeme isRest
    simp [accept_next, noOperand _ rfl]
    rfl
  · rw [accept_other (by rwa [isRest])]
    rfl

/-- A name with an index that a parenthesis begins with is no cast. -/
theorem castHead_none_of_index {name : String} {index : List Token}
    (isTokens : tokens.map Lexeme.token = .punct .lparen :: .name name :: .punct .lbracket :: index)
    (other : front index ≠ .punct .rbracket) :
    castHead (.ok ending) tokens = .ok none := by
  obtain ⟨_, inside, rfl, isInside⟩ := exists_lexeme isTokens
  have starts : startsType (front (inside.map Lexeme.token)) = (true, false) := by
    rw [isInside]
    rfl
  have isError : ∃ error, typeRef (.ok ending) inside = .error error := by
    obtain ⟨position, isPlace⟩ := place_ok ending inside
    have isName : ReadsTo _ _ (baseType (.ok ending) inside) := baseType_dotted [] isInside nofun
    obtain ⟨base, ⟨rest, fewer⟩, isBase, isRest, -⟩ := isName
    obtain ⟨_, last, rfl, rfl⟩ := exists_lexeme isRest
    obtain ⟨error, isError⟩ := expectPunct_other ending other
    refine ⟨error, ?_⟩
    simp only [typeRef, isPlace, isBase, bind, Except.bind]
    rw [brackets]
    simp only [accept_next, isError, bind, Except.bind]
  obtain ⟨error, isError⟩ := isError
  simp only [castHead, accept_next, look_ok, bind, Except.bind, starts, isError]
  rfl

theorem startsType_tokens {type : TypeRef} (printable : type.isPrintable = true)
    (behind : List Token) : (startsType (front (type.tokens ++ behind))).1 = true := by
  obtain ⟨base, dimensions, position⟩ := type
  cases base with
  | named name =>
    obtain ⟨first, others, isParts⟩ := exists_nameParts name
    rw [TypeRef.tokens, BaseType.tokens, isParts]
    rfl
  | primitive type =>
    obtain ⟨word, isWord, isType⟩ := exists_keyword printable
    rw [TypeRef.tokens, BaseType.tokens, isWord]
    exact congrArg Option.isSome isType

/-- A type in parentheses is a cast in front of an operand. -/
theorem castHead_type (ending : Position) {type : TypeRef} (printable : type.isPrintable = true)
    (isTokens : tokens.map Lexeme.token = parenthesized type.tokens ++ behind)
    (isOperand : startsOperand (front behind) = true) :
    ∃ found rest, castHead (.ok ending) tokens = .ok (some (found, rest)) ∧
      rest.1.map Lexeme.token = behind ∧ found.unplaced = type.unplaced := by
  rw [parenthesized, List.cons_append, List.append_assoc] at isTokens
  obtain ⟨_, inside, rfl, isInside⟩ := exists_lexeme isTokens
  have isInner : ReadsTo _ _ (typeRef (.ok ending) inside) :=
    typeRef_tokens printable isInside (by rintro ⟨⟩) (by rintro ⟨⟩)
  obtain ⟨found, ⟨rest, fewer⟩, isType, isRest, same⟩ := isInner
  obtain ⟨_, last, rfl, rfl⟩ := exists_lexeme isRest
  have starts : (startsType (front (inside.map Lexeme.token))).1 = true := by
    rw [isInside]
    exact startsType_tokens printable _
  refine ⟨found, ⟨last, by simp at fewer ⊢; omega⟩, ?_, rfl, same⟩
  simp only [castHead, accept_next, look_ok, bind, Except.bind, starts, isType, isOperand,
    Bool.or_true]
  rfl

end MethodPatch.Parse
