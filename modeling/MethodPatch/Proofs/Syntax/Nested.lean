/-
**The brackets of a text.**

Parentheses, brackets and braces of a text that is read are nested: each that opens is closed by the
one of its kind, and between the two the others are nested again. Every reader takes tokens of that
form, so they are put together as the readers are.

* `Nested`: the tokens in front of others are nested;
* `Parse.expression_nested`, `Parse.statement_nested`: what is taken for an expression or a statement;
* `Stmt.parse_nested`: **the tokens of a text that is read are nested.**
-/

import MethodPatch.Proofs.Syntax.Scanned
import MethodPatch.Proofs.Syntax.Written

namespace MethodPatch

/-- The bracket that closes a bracket. -/
def Punct.closing? : Punct → Option Punct
  | .lparen => some .rparen
  | .lbrace => some .rbrace
  | .lbracket => some .rbracket
  | _ => none

/-- Whether a punctuator is a bracket. -/
def Punct.isBracket : Punct → Bool
  | .lparen | .rparen | .lbrace | .rbrace | .lbracket | .rbracket => true
  | _ => false

/-- Whether a token is a bracket. -/
def Token.isBracket : Token → Bool
  | .punct mark => mark.isBracket
  | _ => false

/-- The brackets of tokens in front of others are nested. -/
inductive Nested : List Lexeme → List Lexeme → Prop
  | nil (tokens : List Lexeme) : Nested tokens tokens
  | plain {lexeme : Lexeme} {rest last : List Lexeme} (noBracket : lexeme.token.isBracket = false)
    (behind : Nested rest last) : Nested (lexeme :: rest) last
  | wrapped {left right : Punct} {first second : Position} {inside rest last : List Lexeme}
    (pair : left.closing? = some right) (inner : Nested inside (⟨.punct right, second⟩ :: rest))
    (behind : Nested rest last) : Nested (⟨.punct left, first⟩ :: inside) last

/-- Tokens begin with a punctuator. -/
def BeginsWith (mark : Punct) (tokens rest : List Lexeme) : Prop :=
  ∃ position, tokens = ⟨.punct mark, position⟩ :: rest

namespace Nested

variable {tokens inside middle rest last : List Lexeme} {lexeme : Lexeme} {mark left right : Punct}

theorem trans (first : Nested tokens middle) (second : Nested middle last) : Nested tokens last := by
  induction first with
  | nil => exact second
  | plain noBracket _ ih => exact .plain noBracket (ih second)
  | wrapped pair inner _ _ ih => exact .wrapped pair inner (ih second)

theorem suffix (nested : Nested tokens last) : last <:+ tokens := by
  induction nested with
  | nil => exact List.suffix_refl _
  | plain _ _ ih => exact ih.trans (List.suffix_cons _ _)
  | wrapped _ _ _ inner behind =>
    exact (behind.trans (List.suffix_cons _ _)).trans (inner.trans (List.suffix_cons _ _))

theorem token (noBracket : lexeme.token.isBracket = false) : Nested (lexeme :: rest) rest :=
  .plain noBracket (.nil rest)

theorem punct (begins : BeginsWith mark tokens rest) (noBracket : mark.isBracket = false) :
    Nested tokens rest := by
  obtain ⟨position, rfl⟩ := begins
  exact .token noBracket

theorem wrap (opens : BeginsWith left tokens inside) (inner : Nested inside middle)
    (closes : BeginsWith right middle rest) (pair : left.closing? = some right) :
    Nested tokens rest := by
  obtain ⟨_, rfl⟩ := opens
  obtain ⟨_, rfl⟩ := closes
  exact .wrapped pair inner (.nil rest)

end Nested

namespace Parse

variable {α : Type} {finish : Finish}

/-! ### Punctuators without brackets -/

theorem isBracket_of_assignOp? {mark : Punct} {op : Option ComputeOp}
    (found : assignOp? mark = some op) : mark.isBracket = false := by
  cases mark <;> first | rfl | cases found

theorem isBracket_of_joinOp? {mark : Punct} {op : JoinOp} (found : joinOp? mark = some op) :
    mark.isBracket = false := by
  cases mark <;> first | rfl | cases found

theorem isBracket_of_updateOp? {mark : Punct} {op : UpdateOp} (found : updateOp? mark = some op) :
    mark.isBracket = false := by
  cases mark <;> first | rfl | cases found

theorem isBracket_of_unaryOp? {mark : Punct} {op : UnaryOp} (found : unaryOp? mark = some op) :
    mark.isBracket = false := by
  cases mark <;> first | rfl | cases found

theorem isBracket_of_literal? {token : Token} {outcome : Except SyntaxFault Literal}
    (found : literal? token = some outcome) : token.isBracket = false := by
  cases token <;> first | rfl | cases found

/-! ### Single tokens -/

theorem Reads.mono {holds follows : α → Prop} {reading : Reading α} (reads : Reads holds reading)
    (weaker : ∀ answer, holds answer → follows answer) : Reads follows reading :=
  fun answer read => weaker answer (reads answer read)

/-- What is read takes nested tokens. -/
abbrev GetsNested {bound : Nat} (tokens : List Lexeme) (reading : Reading (Parsed bound α)) : Prop :=
  Reads (fun parsed => Nested tokens parsed.2.1) reading

theorem GetsNested.behind {bound : Nat} {tokens rest : List Lexeme} {reading : Reading (Parsed bound α)}
    (nested : Nested tokens rest) (gets : GetsNested rest reading) : GetsNested tokens reading :=
  fun answer read => nested.trans (gets answer read)

theorem nextPunct?_begins {tokens : List Lexeme} {mark : Punct} {position : Position}
    {rest : Fewer tokens.length} (found : nextPunct? tokens = some (mark, position, rest)) :
    BeginsWith mark tokens rest.1 := by
  unfold nextPunct? at found
  split at found
  · cases found
    exact ⟨_, rfl⟩
  · cases found

theorem accept_begins (mark : Punct) (tokens : List Lexeme) :
    Reads (fun accepted => ∀ rest ∈ accepted, BeginsWith mark tokens rest.1)
      (accept finish mark tokens) := by
  refine Reads.after fun token => .ok ?_
  split
  · next found behind next =>
    split
    · next same =>
      rintro _ ⟨⟩
      exact same ▸ nextPunct?_begins next
    · rintro _ ⟨⟩
  · rintro _ ⟨⟩

theorem expectPunct_begins (mark : Punct) (tokens : List Lexeme) :
    Reads (fun rest => BeginsWith mark tokens rest.1) (expectPunct finish mark tokens) := by
  unfold expectPunct
  split
  · next found behind next =>
    split
    · next same => exact .ok (same ▸ nextPunct?_begins next)
    · exact .error _
  · exact .error _

theorem expectKeyword_nested (word : Keyword) (tokens : List Lexeme) :
    Reads (fun rest => Nested tokens rest.1) (expectKeyword finish word tokens) := by
  unfold expectKeyword
  split
  · split
    · exact .ok (.token rfl)
    · exact .error _
  · exact .error _

theorem expectName_nested (tokens : List Lexeme) :
    GetsNested tokens (expectName finish tokens) := by
  unfold expectName
  split
  · exact .ok (.token rfl)
  · exact .error _

/-! ### Types -/

theorem dottedName_nested (bound : Nat) (name : String) (tokens : List Lexeme)
    (fewer : tokens.length < bound) :
    GetsNested tokens (dottedName finish bound name tokens fewer) := by
  rw [dottedName.eq_def]
  split
  · next part _ rest _ =>
    exact fun answer read => .plain rfl (.plain rfl (dottedName_nested bound _ rest _ answer read))
  · exact .after fun _ => .ok (.nil _)
  · exact .after fun _ => .ok (.nil _)

theorem baseType_nested (tokens : List Lexeme) : GetsNested tokens (baseType finish tokens) := by
  unfold baseType
  split
  · exact .error _
  · split
    · exact .ok (.token rfl)
    · exact .error _
  · refine (dottedName_nested _ _ _ _).bind fun ⟨name, behind⟩ nested => ?_
    exact .ok (.plain rfl nested)
  · exact .error _

theorem brackets_nested (bound : Nat) (type : TypeRef) (tokens : List Lexeme)
    (fewer : tokens.length < bound) :
    GetsNested tokens (brackets finish bound type tokens fewer) := by
  rw [brackets]
  refine (accept_begins .lbracket tokens).bind ?_
  rintro (_ | ⟨inside, _⟩) opens
  · exact .ok (.nil _)
  · refine (expectPunct_begins .rbracket inside).bind ?_
    rintro ⟨rest, _⟩ closes
    exact GetsNested.behind (.wrap (opens _ rfl) (.nil _) closes rfl) (brackets_nested bound _ rest _)
termination_by tokens.length

theorem typeRef_nested (tokens : List Lexeme) : GetsNested tokens (typeRef finish tokens) := by
  refine .after fun position => (baseType_nested tokens).bind ?_
  rintro ⟨base, rest, fewer⟩ nested
  exact GetsNested.behind nested (brackets_nested _ _ rest fewer)

theorem castHead_nested (tokens : List Lexeme) :
    Reads (fun head => ∀ cast ∈ head, Nested tokens cast.2.1) (castHead finish tokens) := by
  unfold castHead
  refine (accept_begins .lparen tokens).bind ?_
  rintro (_ | ⟨inside, _⟩) opens
  · exact .ok (by rintro _ ⟨⟩)
  · refine .after fun token => ?_
    dsimp only
    split
    · exact .ok (by rintro _ ⟨⟩)
    · split
      · exact .ok (by rintro _ ⟨⟩)
      · next read =>
        have nested := typeRef_nested _ _ read
        refine (accept_begins .rparen _).bind ?_
        rintro (_ | ⟨behind, _⟩) closes
        · exact .ok (by rintro _ ⟨⟩)
        · refine .after fun token => ?_
          split
          · refine .ok ?_
            rintro _ ⟨⟩
            exact .wrap (opens _ rfl) nested (closes _ rfl) rfl
          · exact .ok (by rintro _ ⟨⟩)

theorem emptyBrackets_nested (bound : Nat) (element : TypeRef) (tokens : List Lexeme)
    (fewer : tokens.length < bound) :
    GetsNested tokens (emptyBrackets finish bound element tokens fewer) := by
  rw [emptyBrackets]
  refine (accept_begins .lbracket tokens).bind ?_
  rintro (_ | ⟨inside, _⟩) opens
  · exact .ok (.nil _)
  · refine (accept_begins .rbracket inside).bind ?_
    rintro (_ | ⟨rest, _⟩) closes
    · exact .after fun _ => .error _
    · exact GetsNested.behind (.wrap (opens _ rfl) (.nil _) (closes _ rfl) rfl)
        (emptyBrackets_nested bound _ rest _)
termination_by tokens.length

/-! ### Expressions -/

theorem leastNumber?_nested {tokens : List Lexeme} {value : Literal}
    (found : leastNumber? tokens = some value) : Nested tokens tokens.tail := by
  unfold leastNumber? at found
  split at found
  · exact .token rfl
  · exact .token rfl
  · cases found

mutual

/-- An expression takes nested tokens. -/
theorem expression_nested (tokens : List Lexeme) :
    GetsNested tokens (expression finish tokens) := by
  rw [expression]
  refine .after fun position => (conditional_nested tokens).bind ?_
  rintro ⟨target, rest, fewer⟩ nested
  refine .after fun _ => ?_
  dsimp only
  split
  · exact .ok nested
  · next next =>
    split
    · exact .ok nested
    · next found =>
      split
      · exact .error _
      · refine (expression_nested _).bind ?_
        rintro ⟨value, last, _⟩ valueNested
        have noBracket := isBracket_of_assignOp? found
        exact .ok (nested.trans (.trans (.punct (nextPunct?_begins next) noBracket) valueNested))
termination_by 8 * tokens.length + 6

theorem conditional_nested (tokens : List Lexeme) :
    GetsNested tokens (conditional finish tokens) := by
  rw [conditional]
  refine .after fun position => (climb_nested 0 tokens).bind ?_
  rintro ⟨test, rest, fewer⟩ nested
  refine (accept_begins .question rest).bind ?_
  rintro (_ | ⟨behind, _⟩) question
  · exact .ok nested
  · refine (expression_nested behind).bind ?_
    rintro ⟨first, middle, shorter⟩ firstNested
    refine (expectPunct_begins .colon middle).bind ?_
    rintro ⟨other, _⟩ colon
    refine (conditional_nested other).bind ?_
    rintro ⟨second, last⟩ secondNested
    have behindTest := (Nested.punct (question _ rfl) rfl).trans firstNested
    exact .ok ((nested.trans behindTest).trans (.trans (.punct colon rfl) secondNested))
termination_by 8 * tokens.length + 5

theorem climb_nested (least : Nat) (tokens : List Lexeme) :
    GetsNested tokens (climb finish least tokens) := by
  rw [climb]
  refine (unary_nested tokens).bind ?_
  rintro ⟨left, rest, fewer⟩ nested
  exact GetsNested.behind nested (climbFrom_nested least tokens.length left rest fewer)
termination_by 8 * tokens.length + 4

theorem climbFrom_nested (least bound : Nat) (left : Expr) (tokens : List Lexeme)
    (fewer : tokens.length < bound) :
    GetsNested tokens (climbFrom finish least bound left tokens fewer) := by
  rw [climbFrom]
  refine .after fun token => ?_
  split
  · dsimp only
    split
    · exact .ok (.nil _)
    · refine (expectKeyword_nested .instanceOf tokens).bind ?_
      rintro ⟨behind, _⟩ nested
      refine (typeRef_nested behind).bind ?_
      rintro ⟨type, rest, _⟩ typeNested
      exact GetsNested.behind (nested.trans typeNested) (climbFrom_nested least bound _ rest _)
  · split
    · exact .ok (.nil _)
    · next next =>
      split
      · exact .ok (.nil _)
      · next found =>
        dsimp only
        split
        · exact .ok (.nil _)
        · refine (climb_nested _ _).bind ?_
          rintro ⟨right, rest, _⟩ nested
          have joined := Nested.punct (nextPunct?_begins next) (isBracket_of_joinOp? found)
          exact GetsNested.behind (joined.trans nested) (climbFrom_nested least bound _ rest _)
termination_by 8 * tokens.length

theorem unary_nested (tokens : List Lexeme) : GetsNested tokens (unary finish tokens) := by
  rw [unary]
  refine .after fun position => ?_
  split
  · exact operand_nested tokens
  · next next =>
    have begins := nextPunct?_begins next
    split
    · next op _ found =>
      refine (unary_nested _).bind ?_
      rintro ⟨target, rest, _⟩ nested
      dsimp only
      split
      · exact .error _
      · exact .ok (.trans (.punct begins (isBracket_of_updateOp? found)) nested)
    · next found =>
      refine (unary_nested _).bind ?_
      rintro ⟨argument, rest, _⟩ nested
      exact .ok (.trans (.punct begins (isBracket_of_unaryOp? found)) nested)
    · split
      · next isMinus =>
        subst isMinus
        refine .after fun _ => ?_
        split
        · next least => exact .ok (.trans (.punct begins rfl) (leastNumber?_nested least))
        · refine (unary_nested _).bind ?_
          rintro ⟨argument, rest, _⟩ nested
          exact .ok (.trans (.punct begins rfl) nested)
      · split
        · refine (castHead_nested tokens).bind fun head headNested => ?_
          split
          · refine (unary_nested _).bind ?_
            rintro ⟨argument, rest, _⟩ nested
            exact .ok ((headNested _ rfl).trans nested)
          · exact operand_nested tokens
        · exact operand_nested tokens
termination_by 8 * tokens.length + 3

theorem operand_nested (tokens : List Lexeme) : GetsNested tokens (operand finish tokens) := by
  rw [operand]
  refine (primary_nested tokens).bind ?_
  rintro ⟨first, rest, fewer⟩ nested
  exact GetsNested.behind nested (operandFrom_nested tokens.length first rest fewer)
termination_by 8 * tokens.length + 2

theorem operandFrom_nested (bound : Nat) (object : Expr) (tokens : List Lexeme)
    (fewer : tokens.length < bound) :
    GetsNested tokens (operandFrom finish bound object tokens fewer) := by
  rw [operandFrom]
  refine .after fun _ => ?_
  split
  · exact .ok (.nil _)
  · next next =>
    have begins := nextPunct?_begins next
    split
    · next isDot =>
      subst isDot
      refine .after fun position => (expectName_nested _).bind ?_
      rintro ⟨name, rest, _⟩ named
      have member := (Nested.punct begins rfl).trans named
      refine .after fun accepted => ?_
      split
      · refine (arguments_nested _).bind ?_
        rintro ⟨arguments, last, _⟩ nested
        exact GetsNested.behind (member.trans nested) (operandFrom_nested bound _ last _)
      · exact GetsNested.behind member (operandFrom_nested bound _ _ _)
    · split
      · next isBracket =>
        subst isBracket
        refine (expression_nested _).bind ?_
        rintro ⟨index, rest, _⟩ nested
        refine (expectPunct_begins .rbracket rest).bind ?_
        rintro ⟨last, _⟩ closes
        exact GetsNested.behind (.wrap begins nested closes rfl) (operandFrom_nested bound _ last _)
      · split
        · exact .ok (.nil _)
        · next found =>
          split
          · exact .error _
          · exact .ok (.punct begins (isBracket_of_updateOp? found))
termination_by 8 * tokens.length

theorem primary_nested (tokens : List Lexeme) : GetsNested tokens (primary finish tokens) := by
  rw [primary.eq_def]
  split
  · exact .error _
  · split
    · next found => exact .ok (.token (isBracket_of_literal? found))
    · exact .error _
    · split
      · exact .ok (.token rfl)
      · exact .error _
      · refine (creation_nested _ _).bind ?_
        rintro ⟨created, last, _⟩ nested
        exact .ok (.plain rfl nested)
      · refine .after fun accepted => ?_
        split
        · exact .ok (.token rfl)
        · refine (arguments_nested _).bind ?_
          rintro ⟨arguments, last, _⟩ nested
          exact .ok (.plain rfl nested)
      · refine (expression_nested _).bind ?_
        rintro ⟨inner, middle, _⟩ nested
        refine (expectPunct_begins .rparen middle).bind ?_
        rintro ⟨last, _⟩ closes
        exact .ok (.wrap ⟨_, rfl⟩ nested closes rfl)
      · exact .error _
termination_by 8 * tokens.length + 1

theorem creation_nested (position : Position) (tokens : List Lexeme) :
    GetsNested tokens (creation finish position tokens) := by
  rw [creation]
  refine .after fun typePosition => (baseType_nested tokens).bind ?_
  rintro ⟨base, rest, _⟩ baseNested
  refine (accept_begins .lbracket rest).bind ?_
  rintro (_ | ⟨inside, _⟩) opens
  · dsimp only
    split
    · exact .error _
    · refine (arguments_nested _).bind ?_
      rintro ⟨arguments, last, _⟩ nested
      exact .ok (baseNested.trans nested)
  · refine (expression_nested inside).bind ?_
    rintro ⟨length, middle, _⟩ lengthNested
    refine (expectPunct_begins .rbracket middle).bind ?_
    rintro ⟨behind, _⟩ closes
    refine (emptyBrackets_nested _ _ behind _).bind ?_
    rintro ⟨array, last⟩ arrayNested
    have sized := baseNested.trans (.wrap (opens _ rfl) lengthNested closes rfl)
    exact .ok (sized.trans arrayNested)
termination_by 8 * tokens.length

theorem arguments_nested (tokens : List Lexeme) : GetsNested tokens (arguments finish tokens) := by
  rw [arguments]
  refine (expectPunct_begins .lparen tokens).bind ?_
  rintro ⟨inside, _⟩ opens
  refine (accept_begins .rparen inside).bind ?_
  rintro (_ | ⟨last, _⟩) closes
  · refine Reads.mono (argumentsFrom_nested tokens.length [] inside _) ?_
    rintro parsed ⟨middle, nested, closes⟩
    exact .wrap opens nested closes rfl
  · exact .ok (.wrap opens (.nil _) (closes _ rfl) rfl)
termination_by 8 * tokens.length

theorem argumentsFrom_nested (bound : Nat) (read : List Expr) (tokens : List Lexeme)
    (fewer : tokens.length < bound) :
    Reads (fun parsed => ∃ middle, Nested tokens middle ∧ BeginsWith .rparen middle parsed.2.1)
      (argumentsFrom finish bound read tokens fewer) := by
  rw [argumentsFrom]
  refine (expression_nested tokens).bind ?_
  rintro ⟨argument, rest, _⟩ nested
  refine (accept_begins .comma rest).bind ?_
  rintro (_ | ⟨others, _⟩) comma
  · refine (expectPunct_begins .rparen rest).bind ?_
    rintro ⟨last, _⟩ closes
    exact .ok ⟨rest, nested, closes⟩
  · refine Reads.mono (argumentsFrom_nested bound _ others _) ?_
    rintro parsed ⟨middle, othersNested, closes⟩
    have behind := (Nested.punct (comma _ rfl) rfl).trans othersNested
    exact ⟨middle, nested.trans behind, closes⟩
termination_by 8 * tokens.length + 7

end

/-! ### Parts of statements -/

theorem Notes.mono {holds follows : α → Prop} {noting : Noting α} (notes : Notes holds noting)
    (weaker : ∀ answer, holds answer → follows answer) : Notes follows noting :=
  fun before answer after yields => weaker answer (notes before answer after yields)

/-- What is read while declarations are noted takes nested tokens. -/
abbrev TakesNested {bound : Nat} (tokens : List Lexeme) (noting : Noting (Parsed bound α)) : Prop :=
  Notes (fun parsed => Nested tokens parsed.2.1) noting

theorem TakesNested.behind {bound : Nat} {tokens rest : List Lexeme}
    {noting : Noting (Parsed bound α)} (nested : Nested tokens rest)
    (takes : TakesNested rest noting) : TakesNested tokens noting :=
  fun before answer after yields => nested.trans (takes before answer after yields)

theorem endStatement_nested (bound : Nat) (tokens : List Lexeme) (fewer : tokens.length < bound) :
    Reads (fun rest => Nested tokens rest.1) (endStatement finish bound tokens fewer) := by
  refine (accept_begins .semicolon tokens).bind ?_
  rintro (_ | rest) semicolon
  · refine .after fun token => ?_
    split
    · exact .ok (.nil _)
    · exact .error _
  · exact .ok (.punct (semicolon _ rfl) rfl)

theorem test_nested (tokens : List Lexeme) : GetsNested tokens (test finish tokens) := by
  refine (expectPunct_begins .lparen tokens).bind ?_
  rintro ⟨inside, _⟩ opens
  refine (expression_nested inside).bind ?_
  rintro ⟨test, middle, _⟩ nested
  refine (expectPunct_begins .rparen middle).bind ?_
  rintro rest closes
  exact .ok (.wrap opens nested closes rfl)

theorem expressionsFrom_nested (last : Punct) (bound : Nat) (read : List Expr) (tokens : List Lexeme)
    (fewer : tokens.length < bound) :
    GetsNested tokens (expressionsFrom finish last bound read tokens fewer) := by
  rw [expressionsFrom]
  refine (expression_nested tokens).bind ?_
  rintro ⟨first, rest, _⟩ nested
  refine (accept_begins .comma rest).bind ?_
  rintro (_ | ⟨others, _⟩) comma
  · refine .after fun accepted => ?_
    split
    · exact .ok nested
    · exact .error _
  · have behind := nested.trans (.punct (comma _ rfl) rfl)
    exact GetsNested.behind behind (expressionsFrom_nested last bound _ others _)
termination_by tokens.length

theorem statementExpressions_nested (last : Punct) (bound : Nat) (tokens : List Lexeme)
    (fewer : tokens.length < bound) :
    GetsNested tokens (statementExpressions finish last bound tokens fewer) := by
  refine (expressionsFrom_nested last bound [] tokens fewer).bind ?_
  rintro ⟨expressions, rest⟩ nested
  exact .after fun _ => .ok nested

theorem initialValue_nested (bound : Nat) (tokens : List Lexeme) (fewer : tokens.length < bound) :
    GetsNested tokens (initialValue finish bound tokens fewer) := by
  refine (accept_begins .assign tokens).bind ?_
  rintro (_ | ⟨behind, _⟩) assigns
  · exact .ok (.nil _)
  · refine .after fun accepted => ?_
    split
    · exact .after fun _ => .error _
    · refine (expression_nested behind).bind ?_
      rintro ⟨value, rest⟩ nested
      exact .ok (.trans (.punct (assigns _ rfl) rfl) nested)

/-! ### Declarations -/

theorem declarator_nested (type : TypeRef) (tokens : List Lexeme) :
    GetsNested tokens (declarator finish type tokens) := by
  refine .after fun position => (expectName_nested tokens).bind ?_
  rintro ⟨name, behind, _⟩ named
  refine (brackets_nested _ type behind _).bind ?_
  rintro ⟨array, rest, _⟩ arrayNested
  refine (initialValue_nested _ rest _).bind ?_
  rintro ⟨initial, last⟩ nested
  exact .ok ((named.trans arrayNested).trans nested)

theorem declaratorsFrom_nested (type : TypeRef) (bound : Nat) (read : List Declarator)
    (tokens : List Lexeme) (fewer : tokens.length < bound) :
    TakesNested tokens (declaratorsFrom finish type bound read tokens fewer) := by
  rw [declaratorsFrom]
  refine (Notes.lift (declarator_nested type tokens)).bind ?_
  rintro ⟨first, rest, _⟩ nested
  refine .after fun _ => (Notes.lift (accept_begins .comma rest)).bind ?_
  rintro (_ | ⟨others, _⟩) comma
  · exact .pure nested
  · have behind := nested.trans (.punct (comma _ rfl) rfl)
    exact TakesNested.behind behind (declaratorsFrom_nested type bound _ others _)
termination_by tokens.length

theorem skipFinal_nested (tokens : List Lexeme) : Nested tokens (skipFinal tokens).2.1 := by
  unfold skipFinal
  split
  · exact .token rfl
  · exact .nil _

theorem declaration_nested (tokens : List Lexeme) :
    TakesNested tokens (declaration finish tokens) := by
  refine .after fun position => ?_
  have isFinal := skipFinal_nested tokens
  refine (Notes.lift (typeRef_nested _)).bind ?_
  rintro ⟨type, rest, _⟩ nested
  refine (declaratorsFrom_nested type _ [] rest _).bind ?_
  rintro ⟨declarators, last⟩ others
  exact .pure ((isFinal.trans nested).trans others)

/-! ### Statements -/

theorem loopStart_nested (bound : Nat) (tokens : List Lexeme) (fewer : tokens.length < bound) :
    TakesNested tokens (loopStart finish bound tokens fewer) := by
  refine .after fun accepted => ?_
  split
  · exact .pure (.nil _)
  · split
    · refine (declaration_nested tokens).bind ?_
      rintro ⟨declared, rest, _⟩ nested
      exact .pure nested
    · refine (Notes.lift (statementExpressions_nested _ _ _ _)).bind ?_
      rintro ⟨expressions, rest⟩ nested
      exact .pure nested

theorem loopTest_nested (bound : Nat) (tokens : List Lexeme) (fewer : tokens.length < bound) :
    GetsNested tokens (loopTest finish bound tokens fewer) := by
  refine (accept_begins .semicolon tokens).bind ?_
  rintro (_ | ⟨rest, _⟩) semicolon
  · refine (expression_nested tokens).bind ?_
    rintro ⟨test, middle, _⟩ nested
    refine (expectPunct_begins .semicolon middle).bind ?_
    rintro ⟨rest, _⟩ ends
    exact .ok (nested.trans (.punct ends rfl))
  · exact .ok (.punct (semicolon _ rfl) rfl)

/-- The updates of a loop take nested tokens up to the parenthesis that ends them. -/
theorem loopUpdates_nested (bound : Nat) (tokens : List Lexeme) (fewer : tokens.length < bound) :
    Reads (fun parsed => ∃ middle, Nested tokens middle ∧ BeginsWith .rparen middle parsed.2.1)
      (loopUpdates finish bound tokens fewer) := by
  refine (accept_begins .rparen tokens).bind ?_
  rintro (_ | ⟨rest, _⟩) closes
  · refine (statementExpressions_nested _ _ tokens _).bind ?_
    rintro ⟨updates, middle, _⟩ nested
    refine (expectPunct_begins .rparen middle).bind ?_
    rintro ⟨rest, _⟩ ends
    exact .ok ⟨middle, nested, ends⟩
  · exact .ok ⟨tokens, .nil _, closes _ rfl⟩

theorem loopHead_nested (bound : Nat) (tokens : List Lexeme) (fewer : tokens.length < bound) :
    TakesNested tokens (loopHead finish bound tokens fewer) := by
  refine (Notes.lift (expectPunct_begins .lparen tokens)).bind ?_
  rintro ⟨inside, _⟩ opens
  refine (loopStart_nested _ inside _).bind ?_
  rintro ⟨start, first, _⟩ startNested
  refine (Notes.lift (expectPunct_begins .semicolon first)).bind ?_
  rintro ⟨behind, _⟩ semicolon
  refine (Notes.lift (loopTest_nested _ behind _)).bind ?_
  rintro ⟨test, second, _⟩ testNested
  refine (Notes.lift (loopUpdates_nested _ second _)).bind ?_
  rintro ⟨updates, rest⟩ ⟨last, updatesNested, closes⟩
  have tests := startNested.trans (.trans (.punct semicolon rfl) testNested)
  exact .pure (.wrap opens (tests.trans updatesNested) closes rfl)

theorem returnStatement_nested (position : Position) (bound : Nat) (tokens : List Lexeme)
    (fewer : tokens.length < bound) :
    GetsNested tokens (returnStatement finish position bound tokens fewer) := by
  unfold returnStatement
  refine .after fun accepted => ?_
  dsimp only
  have behind : ∀ read : Parsed tokens.length Expr, Nested tokens read.2.1 → ∀ fewer,
      GetsNested tokens (do
        let last ← endStatement finish bound read.2.val fewer
        return (Stmt.ret (some read.1) position, last)) := fun read nested fewer =>
    (endStatement_nested bound read.2.val fewer).bind fun _ ended => .ok (nested.trans ended)
  have bare : GetsNested tokens (do
      let last ← endStatement finish bound tokens fewer
      return (Stmt.ret none position, last)) :=
    (endStatement_nested bound tokens fewer).bind fun _ ended => .ok ended
  split
  · refine .after fun isBare => ?_
    split
    · exact bare
    · exact (expression_nested tokens).bind fun read nested => behind read nested _
  · refine .after fun token => .after fun isBare => ?_
    split
    · exact bare
    · exact (expression_nested tokens).bind fun read nested => behind read nested _

theorem jumpStatement_nested (inLoop : Bool) (word : Keyword) (jump : Position → Stmt)
    (position : Position) (bound : Nat) (tokens : List Lexeme) (fewer : tokens.length < bound) :
    GetsNested tokens (jumpStatement finish inLoop word jump position bound tokens fewer) := by
  unfold jumpStatement
  dsimp only
  split
  · exact .error _
  · refine .after fun token => ?_
    split
    · exact .after fun _ => .error _
    · exact (endStatement_nested bound tokens fewer).bind fun _ ended => .ok ended

theorem expressionStatement_nested (tokens : List Lexeme) :
    GetsNested tokens (expressionStatement finish tokens) := by
  refine .after fun position => (expression_nested tokens).bind ?_
  rintro ⟨expression, rest, _⟩ nested
  refine .after fun _ => (endStatement_nested _ rest _).bind fun _ ended => ?_
  exact .ok (nested.trans ended)

theorem simpleStatement_nested (inLoop : Bool) (tokens : List Lexeme) :
    TakesNested tokens (simpleStatement finish inLoop tokens) := by
  unfold simpleStatement
  split
  · exact TakesNested.behind (.token rfl) (.lift (returnStatement_nested _ _ _ _))
  · exact TakesNested.behind (.token rfl) (.lift (jumpStatement_nested _ _ _ _ _ _ _))
  · exact TakesNested.behind (.token rfl) (.lift (jumpStatement_nested _ _ _ _ _ _ _))
  · refine .lift ((expression_nested _).bind ?_)
    rintro ⟨thrown, middle, _⟩ nested
    refine (endStatement_nested _ middle _).bind fun _ ended => ?_
    exact .ok (.plain rfl (nested.trans ended))
  · exact .pure (.token rfl)
  · split
    · refine (declaration_nested _).bind ?_
      rintro ⟨declared, rest, _⟩ nested
      refine (Notes.lift (endStatement_nested _ rest _)).bind fun _ ended => ?_
      exact .pure (nested.trans ended)
    · exact .lift (expressionStatement_nested _)

mutual

/-- A statement takes nested tokens. -/
theorem statement_nested (inLoop : Bool) (tokens : List Lexeme) :
    TakesNested tokens (statement finish inLoop tokens) := by
  rw [statement.eq_def]
  split
  · refine (Notes.lift (test_nested _)).bind ?_
    rintro ⟨test, behind, _⟩ testNested
    refine (substatement_nested _ behind).bind ?_
    rintro ⟨first, middle, _⟩ firstNested
    have firstBranch := testNested.trans firstNested
    refine .after fun token => ?_
    split
    · refine (Notes.lift (expectKeyword_nested .elseWord middle)).bind ?_
      rintro ⟨other, _⟩ elseNested
      refine (substatement_nested _ other).bind ?_
      rintro ⟨second, last, _⟩ secondNested
      exact .pure (.plain rfl (firstBranch.trans (elseNested.trans secondNested)))
    · exact .pure (.plain rfl firstBranch)
  · refine (Notes.lift (test_nested _)).bind ?_
    rintro ⟨test, behind, _⟩ testNested
    refine (substatement_nested _ behind).bind ?_
    rintro ⟨body, last, _⟩ bodyNested
    exact .pure (.plain rfl (testNested.trans bodyNested))
  · refine (substatement_nested _ _).bind ?_
    rintro ⟨body, middle, _⟩ bodyNested
    refine (Notes.lift (expectKeyword_nested .whileWord middle)).bind ?_
    rintro ⟨behind, _⟩ whileNested
    refine (Notes.lift (test_nested behind)).bind ?_
    rintro ⟨test, tail, _⟩ testNested
    refine (Notes.lift (endStatement_nested _ tail _)).bind fun _ ended => ?_
    exact .pure (.plain rfl ((bodyNested.trans whileNested).trans (testNested.trans ended)))
  · refine (loopHead_nested _ _ _).bind ?_
    rintro ⟨⟨start, test, updates⟩, behind, _⟩ headNested
    refine (substatement_nested _ behind).bind ?_
    rintro ⟨body, last, _⟩ bodyNested
    exact .pure (.plain rfl (headNested.trans bodyNested))
  · refine (block_nested _ _ _ _ _).bind ?_
    rintro ⟨body, last⟩ ⟨middle, nested, closes⟩
    exact .pure (.wrap ⟨_, rfl⟩ nested closes rfl)
  · exact simpleStatement_nested _ _
termination_by 8 * tokens.length + 1
decreasing_by all_goals (subst_vars; simp only [List.length_cons]; omega)

theorem substatement_nested (inLoop : Bool) (tokens : List Lexeme) :
    TakesNested tokens (substatement finish inLoop tokens) := by
  rw [substatement]
  refine .after fun token => ?_
  dsimp only
  split
  · exact .after fun _ => .throw _
  · refine (statement_nested _ tokens).bind ?_
    rintro ⟨inner, rest⟩ nested
    dsimp only
    split
    · exact .throw _
    · exact .pure nested
termination_by 8 * tokens.length + 2

/-- The statements of a block take nested tokens up to the brace that ends it. -/
theorem block_nested (inLoop : Bool) (bound : Nat) (read : List Stmt) (tokens : List Lexeme)
    (fewer : tokens.length < bound) :
    Notes (fun parsed => ∃ middle, Nested tokens middle ∧ BeginsWith .rbrace middle parsed.2.1)
      (block finish inLoop bound read tokens fewer) := by
  rw [block]
  refine .after fun token => ?_
  split
  · exact .after fun _ => .throw _
  · refine (Notes.lift (expectPunct_begins .rbrace tokens)).bind ?_
    rintro ⟨rest, _⟩ closes
    exact .pure ⟨tokens, .nil _, closes⟩
  · refine (statement_nested _ tokens).bind ?_
    rintro ⟨first, rest, _⟩ nested
    refine Notes.mono (block_nested inLoop bound _ rest _) ?_
    rintro parsed ⟨middle, others, closes⟩
    exact ⟨middle, nested.trans others, closes⟩
termination_by 8 * tokens.length + 3

end

/-! ### Whole texts -/

/-- Statements up to the end of a text take nested tokens up to a token that is the end, or all. -/
theorem statements_nested (read : List Stmt) (tokens : List Lexeme) :
    Notes (fun _ => ∃ rest, Nested tokens rest ∧ look finish rest = .ok .endOfInput)
      (statements finish read tokens) := by
  rw [statements]
  have looks : Reads (fun token => look finish tokens = .ok token) (look finish tokens) :=
    fun _ looked => looked
  refine (Notes.lift looks).bind fun token looked => ?_
  split
  · exact .pure ⟨tokens, .nil _, looked⟩
  · refine (statement_nested false tokens).bind ?_
    rintro ⟨first, rest, _⟩ nested
    refine Notes.mono (statements_nested _ rest) ?_
    rintro _ ⟨last, others, ends⟩
    exact ⟨last, nested.trans others, ends⟩
termination_by tokens.length

end Parse

/-- **The tokens of a text that is read are nested**, and the text has no fault. -/
theorem Stmt.parse_nested {source : String} {statements : List Stmt}
    (parsed : (Stmt.parse source).1 = .ok statements) :
    Nested (lexemes source).items [] ∧ ∃ position, (lexemes source).finish = .ok position := by
  have noEnd : ∀ lexeme ∈ (lexemes source).items, lexeme.token ≠ .endOfInput :=
    fun lexeme isIn => ne_endOfInput_of_mem_lexemes isIn
  unfold Stmt.parse at parsed
  generalize lexemes source = scanned at parsed noEnd
  obtain ⟨tokens, finish⟩ := scanned
  dsimp only at parsed noEnd ⊢
  rcases ran : (Parse.statements finish [] tokens).run.run #[] with ⟨result, declared⟩
  rw [ran] at parsed
  cases parsed
  obtain ⟨rest, nested, looked⟩ := Parse.statements_nested [] tokens _ _ _ ran
  cases rest with
  | nil =>
    cases finish with
    | ok position => exact ⟨nested, position, rfl⟩
    | error error => cases looked
  | cons lexeme others =>
    have isEnd : lexeme.token = .endOfInput := Except.ok.inj looked
    exact absurd isEnd (noEnd lexeme (nested.suffix.subset List.mem_cons_self))

end MethodPatch
