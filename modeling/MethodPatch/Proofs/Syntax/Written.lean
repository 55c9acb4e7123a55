/-
**The types that are read from a text.**

Every type in a text begins with a name or with the word of a primitive type. The readers go through
the tokens in the same steps as their values are composed, so each keeps this of the expressions,
declarations and statements that it reads.

* `Parse.Reads`, `Parse.Notes`: what holds of everything that is read;
* `Parse.expression_plain`: the types in expressions are plain;
* `Stmt.parse_plain`: **the types in a text are plain.**
-/

import MethodPatch.Proofs.Composition.Parts
import MethodPatch.Proofs.Emission.Yields
import MethodPatch.Syntax.Parse.Stmt

namespace MethodPatch

/-- The types in an expression are plain. -/
def Expr.Plain (expression : Expr) : Prop := ∀ type ∈ expression.written, type.Plain

/-- The types in a part of a statement are plain, as is the type of a declared variable. -/
structure Part.Plain (part : Part) : Prop where
  expressions : ∀ expression ∈ part.expressions, expression.Plain
  declared : ∀ declarator, part = .declare declarator → declarator.type.Plain

/-- The types in a statement are plain. -/
def Stmt.Plain (statement : Stmt) : Prop := ∀ part ∈ statement.parts, part.Plain

theorem TypeRef.Plain.arrayOf {type : TypeRef} (plain : type.Plain) : type.arrayOf.Plain := plain

theorem primitive?_isPrimitive {word : Keyword} {type : FieldType}
    (found : Parse.primitive? word = some type) : type.isPrimitive = true := by
  unfold Parse.primitive? at found
  split at found <;> cases found <;> rfl

namespace Parse

variable {α β : Type} {finish : Finish} {holds : α → Prop} {follows : β → Prop}

/-! ### What is read -/

/-- What is read, if anything is, has a property. -/
def Reads (holds : α → Prop) (reading : Reading α) : Prop :=
  ∀ answer, reading = .ok answer → holds answer

theorem Reads.ok {answer : α} (isSo : holds answer) : Reads holds (.ok answer) := by
  rintro _ ⟨⟩
  exact isSo

theorem Reads.error (error : SourceError) : Reads holds (.error error) := by
  rintro _ ⟨⟩

theorem Reads.bind {first : Reading α} {next : α → Reading β} (here : Reads holds first)
    (behind : ∀ answer, holds answer → Reads follows (next answer)) : Reads follows (first >>= next) := by
  intro answer read
  obtain ⟨found, isFirst, isNext⟩ := bind_eq_ok.mp read
  exact behind found (here found isFirst) answer isNext

theorem Reads.after {first : Reading α} {next : α → Reading β}
    (behind : ∀ answer, Reads follows (next answer)) : Reads follows (first >>= next) := by
  intro answer read
  obtain ⟨found, _, isNext⟩ := bind_eq_ok.mp read
  exact behind found answer isNext

/-- What is read in front of other tokens has a property. -/
abbrev Gets {bound : Nat} (holds : α → Prop) (reading : Reading (Parsed bound α)) : Prop :=
  Reads (fun parsed => holds parsed.1) reading

/-! ### Types -/

theorem baseType_plain (tokens : List Lexeme) :
    Gets (fun base => ∀ element, base = .primitive element → element.isPrimitive = true)
      (baseType finish tokens) := by
  unfold baseType
  split
  · exact .error _
  · split
    · next found =>
      refine .ok ?_
      rintro _ ⟨⟩
      exact primitive?_isPrimitive found
    · exact .error _
  · exact .after fun _ => .ok (by rintro _ ⟨⟩)
  · exact .error _

theorem brackets_plain {bound : Nat} {type : TypeRef} (plain : type.Plain) (tokens : List Lexeme)
    (fewer : tokens.length < bound) :
    Gets TypeRef.Plain (brackets finish bound type tokens fewer) := by
  rw [brackets]
  refine .after fun accepted => ?_
  split
  · exact .ok plain
  · refine .after ?_
    rintro ⟨behind, _⟩
    exact brackets_plain plain.arrayOf behind _
termination_by tokens.length

theorem typeRef_plain (tokens : List Lexeme) : Gets TypeRef.Plain (typeRef finish tokens) := by
  refine .after fun position => (baseType_plain tokens).bind ?_
  rintro ⟨base, rest, fewer⟩ plain
  have element : TypeRef.Plain ⟨base, 0, some position⟩ := plain
  exact brackets_plain element rest fewer

theorem castHead_plain (tokens : List Lexeme) :
    Reads (fun head => ∀ cast ∈ head, cast.1.Plain) (castHead finish tokens) := by
  unfold castHead
  refine .after fun accepted => ?_
  split
  · exact .ok (by rintro _ ⟨⟩)
  · refine .after fun token => ?_
    dsimp only
    split
    · exact .ok (by rintro _ ⟨⟩)
    · split
      · exact .ok (by rintro _ ⟨⟩)
      · next read =>
        have plain := typeRef_plain _ _ read
        refine .after fun accepted => ?_
        split
        · exact .ok (by rintro _ ⟨⟩)
        · refine .after fun token => ?_
          split
          · refine .ok ?_
            rintro _ ⟨⟩
            exact plain
          · exact .ok (by rintro _ ⟨⟩)

theorem emptyBrackets_plain {bound : Nat} {element : TypeRef} (plain : element.Plain)
    (tokens : List Lexeme) (fewer : tokens.length < bound) :
    Gets TypeRef.Plain (emptyBrackets finish bound element tokens fewer) := by
  rw [emptyBrackets]
  refine .after fun accepted => ?_
  split
  · exact .ok plain
  · refine .after fun accepted => ?_
    split
    · exact .after fun _ => .error _
    · exact emptyBrackets_plain plain.arrayOf _ _
termination_by tokens.length

/-! ### Expressions -/

theorem plain_all {expressions : List Expr} (plain : ∀ expression ∈ expressions, expression.Plain) :
    ∀ type ∈ writtenAll expressions, type.Plain := by
  induction expressions with
  | nil => exact List.forall_mem_nil _
  | cons first rest ih =>
    obtain ⟨here, behind⟩ := List.forall_mem_cons.mp plain
    exact List.forall_mem_append.mpr ⟨here, ih behind⟩

theorem join_plain {left right : Expr} (op : JoinOp) (leftPlain : left.Plain)
    (rightPlain : right.Plain) : (op.join left right).Plain := by
  cases op <;> exact List.forall_mem_append.mpr ⟨leftPlain, rightPlain⟩

theorem negation_plain {operand : Expr} (plain : operand.Plain) (position : Position) :
    (negation operand position).Plain := by
  unfold negation
  split
  · split <;> exact List.forall_mem_nil _
  · exact plain

mutual

/-- The types in an expression that is read are plain. -/
theorem expression_plain (tokens : List Lexeme) : Gets Expr.Plain (expression finish tokens) := by
  rw [expression]
  refine .after fun position => (conditional_plain tokens).bind ?_
  rintro ⟨target, rest, fewer⟩ targetPlain
  refine .after fun _ => ?_
  dsimp only
  split
  · exact .ok targetPlain
  · split
    · exact .ok targetPlain
    · split
      · exact .error _
      · refine (expression_plain _).bind ?_
        rintro ⟨value, last, _⟩ valuePlain
        exact .ok (List.forall_mem_append.mpr ⟨targetPlain, valuePlain⟩)
termination_by 8 * tokens.length + 6

theorem conditional_plain (tokens : List Lexeme) : Gets Expr.Plain (conditional finish tokens) := by
  rw [conditional]
  refine .after fun position => (climb_plain 0 tokens).bind ?_
  rintro ⟨test, rest, fewer⟩ testPlain
  refine .after fun accepted => ?_
  split
  · exact .ok testPlain
  · refine (expression_plain _).bind ?_
    rintro ⟨first, middle, shorter⟩ firstPlain
    refine .after fun ⟨other, _⟩ => (conditional_plain other).bind ?_
    rintro ⟨second, last⟩ secondPlain
    exact .ok (List.forall_mem_append.mpr
      ⟨List.forall_mem_append.mpr ⟨testPlain, firstPlain⟩, secondPlain⟩)
termination_by 8 * tokens.length + 5

theorem climb_plain (least : Nat) (tokens : List Lexeme) :
    Gets Expr.Plain (climb finish least tokens) := by
  rw [climb]
  refine (unary_plain tokens).bind ?_
  rintro ⟨left, rest, fewer⟩ leftPlain
  exact climbFrom_plain least tokens.length leftPlain rest fewer
termination_by 8 * tokens.length + 4

theorem climbFrom_plain (least bound : Nat) {left : Expr} (leftPlain : left.Plain)
    (tokens : List Lexeme) (fewer : tokens.length < bound) :
    Gets Expr.Plain (climbFrom finish least bound left tokens fewer) := by
  rw [climbFrom]
  refine .after fun token => ?_
  split
  · dsimp only
    split
    · exact .ok leftPlain
    · refine .after fun ⟨behind, _⟩ => (typeRef_plain behind).bind ?_
      rintro ⟨type, rest, _⟩ typePlain
      have checked : (Expr.instanceOf left type left.position).Plain :=
        List.forall_mem_cons.mpr ⟨typePlain, leftPlain⟩
      exact climbFrom_plain least bound checked rest _
  · split
    · exact .ok leftPlain
    · split
      · exact .ok leftPlain
      · next op _ =>
        dsimp only
        split
        · exact .ok leftPlain
        · refine (climb_plain _ _).bind ?_
          rintro ⟨right, rest, _⟩ rightPlain
          exact climbFrom_plain least bound (join_plain op leftPlain rightPlain) rest _
termination_by 8 * tokens.length

theorem unary_plain (tokens : List Lexeme) : Gets Expr.Plain (unary finish tokens) := by
  rw [unary]
  refine .after fun position => ?_
  split
  · exact operand_plain tokens
  · split
    · refine (unary_plain _).bind ?_
      rintro ⟨target, rest, _⟩ plain
      dsimp only
      split
      · exact .error _
      · exact .ok plain
    · refine (unary_plain _).bind ?_
      rintro ⟨argument, rest, _⟩ plain
      exact .ok plain
    · split
      · refine .after fun _ => ?_
        split
        · exact .ok (List.forall_mem_nil _)
        · refine (unary_plain _).bind ?_
          rintro ⟨argument, rest, _⟩ plain
          exact .ok (negation_plain plain _)
      · split
        · refine (castHead_plain tokens).bind fun head headPlain => ?_
          split
          · refine (unary_plain _).bind ?_
            rintro ⟨argument, rest, _⟩ plain
            exact .ok (List.forall_mem_cons.mpr ⟨headPlain _ rfl, plain⟩)
          · exact operand_plain tokens
        · exact operand_plain tokens
termination_by 8 * tokens.length + 3

theorem operand_plain (tokens : List Lexeme) : Gets Expr.Plain (operand finish tokens) := by
  rw [operand]
  refine (primary_plain tokens).bind ?_
  rintro ⟨first, rest, fewer⟩ plain
  exact operandFrom_plain tokens.length plain rest fewer
termination_by 8 * tokens.length + 2

theorem operandFrom_plain (bound : Nat) {object : Expr} (plain : object.Plain) (tokens : List Lexeme)
    (fewer : tokens.length < bound) :
    Gets Expr.Plain (operandFrom finish bound object tokens fewer) := by
  rw [operandFrom]
  refine .after fun _ => ?_
  split
  · exact .ok plain
  · next mark markPosition _ _ _ =>
    split
    · refine .after fun position => .after fun ⟨name, rest, _⟩ => .after fun accepted => ?_
      split
      · refine (arguments_plain _).bind ?_
        rintro ⟨arguments, last, _⟩ argumentsPlain
        have called : (Expr.call (some object) name arguments position).Plain :=
          List.forall_mem_append.mpr ⟨plain, plain_all argumentsPlain⟩
        exact operandFrom_plain bound called last _
      · have found : (Expr.member object name position).Plain := plain
        exact operandFrom_plain bound found _ _
    · split
      · refine (expression_plain _).bind ?_
        rintro ⟨index, rest, _⟩ indexPlain
        refine .after fun ⟨last, _⟩ => ?_
        have element : (Expr.index object index markPosition).Plain :=
          List.forall_mem_append.mpr ⟨plain, indexPlain⟩
        exact operandFrom_plain bound element last _
      · split
        · exact .ok plain
        · split
          · exact .error _
          · exact .ok plain
termination_by 8 * tokens.length

theorem primary_plain (tokens : List Lexeme) : Gets Expr.Plain (primary finish tokens) := by
  rw [primary.eq_def]
  split
  · exact .error _
  · split
    · exact .ok (List.forall_mem_nil _)
    · exact .error _
    · split
      · exact .ok (List.forall_mem_nil _)
      · exact .error _
      · refine (creation_plain _ _).bind ?_
        rintro ⟨created, last, _⟩ plain
        exact .ok plain
      · refine .after fun accepted => ?_
        split
        · exact .ok (List.forall_mem_nil _)
        · refine (arguments_plain _).bind ?_
          rintro ⟨arguments, last, _⟩ plain
          exact .ok (plain_all plain)
      · refine (expression_plain _).bind ?_
        rintro ⟨inner, middle, _⟩ plain
        exact .after fun _ => .ok plain
      · exact .error _
termination_by 8 * tokens.length + 1

theorem creation_plain (position : Position) (tokens : List Lexeme) :
    Gets Expr.Plain (creation finish position tokens) := by
  rw [creation]
  refine .after fun typePosition => (baseType_plain tokens).bind ?_
  rintro ⟨base, rest, _⟩ basePlain
  have element : TypeRef.Plain ⟨base, 0, some typePosition⟩ := basePlain
  refine .after fun accepted => ?_
  split
  · refine (expression_plain _).bind ?_
    rintro ⟨length, middle, _⟩ lengthPlain
    refine .after fun ⟨behind, _⟩ => (emptyBrackets_plain element _ _).bind ?_
    rintro ⟨array, last⟩ arrayPlain
    exact .ok (List.forall_mem_cons.mpr ⟨arrayPlain, lengthPlain⟩)
  · dsimp only
    split
    · exact .error _
    · refine (arguments_plain _).bind ?_
      rintro ⟨arguments, last, _⟩ plain
      exact .ok (List.forall_mem_cons.mpr ⟨element, plain_all plain⟩)
termination_by 8 * tokens.length

theorem arguments_plain (tokens : List Lexeme) :
    Gets (fun arguments => ∀ argument ∈ arguments, argument.Plain) (arguments finish tokens) := by
  rw [arguments]
  refine .after fun ⟨inside, _⟩ => .after fun accepted => ?_
  split
  · exact .ok (List.forall_mem_nil _)
  · exact argumentsFrom_plain tokens.length (List.forall_mem_nil _) inside _
termination_by 8 * tokens.length

theorem argumentsFrom_plain (bound : Nat) {read : List Expr}
    (readPlain : ∀ argument ∈ read, argument.Plain) (tokens : List Lexeme)
    (fewer : tokens.length < bound) :
    Gets (fun arguments => ∀ argument ∈ arguments, argument.Plain)
      (argumentsFrom finish bound read tokens fewer) := by
  rw [argumentsFrom]
  refine (expression_plain tokens).bind ?_
  rintro ⟨argument, rest, _⟩ plain
  have more := List.forall_mem_cons.mpr ⟨plain, readPlain⟩
  refine .after fun accepted => ?_
  split
  · exact argumentsFrom_plain bound more _ _
  · exact .after fun _ => .ok fun expression isIn => more expression (List.mem_reverse.mp isIn)
termination_by 8 * tokens.length + 7

end

/-! ### Parts of statements -/

/-- What is read while declarations are noted, if anything is, has a property. -/
def Notes (holds : α → Prop) (noting : Noting α) : Prop :=
  ∀ before answer after, Yields noting before answer after → holds answer

theorem Notes.pure {answer : α} (isSo : holds answer) : Notes holds (Pure.pure answer) := by
  rintro before _ after yields
  obtain ⟨rfl, _⟩ := yields_pure.mp yields
  exact isSo

theorem Notes.throw (error : SourceError) : Notes holds (throw error) :=
  fun _ _ _ yields => (yields_throw yields).elim

theorem Notes.lift {reading : Reading α} (reads : Reads holds reading) :
    Notes holds (liftExcept reading) := fun _ answer _ yields =>
  reads answer (yields_liftExcept.mp yields).1

theorem Notes.bind {first : Noting α} {next : α → Noting β} (here : Notes holds first)
    (behind : ∀ answer, holds answer → Notes follows (next answer)) : Notes follows (first >>= next) := by
  intro before answer after yields
  obtain ⟨found, middle, isFirst, isNext⟩ := yields_bind.mp yields
  exact behind found (here _ _ _ isFirst) _ _ _ isNext

theorem Notes.after {first : Noting α} {next : α → Noting β}
    (behind : ∀ answer, Notes follows (next answer)) : Notes follows (first >>= next) := by
  intro before answer after yields
  obtain ⟨found, middle, _, isNext⟩ := yields_bind.mp yields
  exact behind found _ _ _ isNext

/-- What is read in front of other tokens, while declarations are noted, has a property. -/
abbrev Takes {bound : Nat} (holds : α → Prop) (noting : Noting (Parsed bound α)) : Prop :=
  Notes (fun parsed => holds parsed.1) noting

theorem evaluate_plain {expression : Expr} (plain : expression.Plain) :
    (Part.evaluate expression).Plain :=
  ⟨fun _ isIn => List.mem_singleton.mp isIn ▸ plain, by rintro _ ⟨⟩⟩

theorem evaluateAll_plain {expressions : List Expr}
    (plain : ∀ expression ∈ expressions, expression.Plain) :
    ∀ part ∈ expressions.map Part.evaluate, part.Plain := by
  intro part isIn
  obtain ⟨expression, isExpression, rfl⟩ := List.mem_map.mp isIn
  exact evaluate_plain (plain expression isExpression)

theorem partsAll_plain {statements : List Stmt} (plain : ∀ statement ∈ statements, statement.Plain) :
    ∀ part ∈ Stmt.partsAll statements, part.Plain := by
  induction statements with
  | nil => exact List.forall_mem_nil _
  | cons first rest ih =>
    obtain ⟨here, behind⟩ := List.forall_mem_cons.mp plain
    exact List.forall_mem_append.mpr ⟨here, ih behind⟩

theorem test_plain (tokens : List Lexeme) : Gets Expr.Plain (test finish tokens) := by
  refine .after fun ⟨inside, _⟩ => (expression_plain inside).bind ?_
  rintro ⟨test, middle, _⟩ plain
  exact .after fun _ => .ok plain

theorem expressionsFrom_plain (last : Punct) (bound : Nat) {read : List Expr}
    (readPlain : ∀ expression ∈ read, expression.Plain) (tokens : List Lexeme)
    (fewer : tokens.length < bound) :
    Gets (fun expressions => ∀ expression ∈ expressions, expression.Plain)
      (expressionsFrom finish last bound read tokens fewer) := by
  rw [expressionsFrom]
  refine (expression_plain tokens).bind ?_
  rintro ⟨first, rest, _⟩ plain
  have more := List.forall_mem_cons.mpr ⟨plain, readPlain⟩
  refine .after fun accepted => ?_
  split
  · exact expressionsFrom_plain last bound more _ _
  · refine .after fun accepted => ?_
    split
    · exact .ok fun expression isIn => more expression (List.mem_reverse.mp isIn)
    · exact .error _
termination_by tokens.length

theorem statementExpressions_plain (last : Punct) (bound : Nat) (tokens : List Lexeme)
    (fewer : tokens.length < bound) :
    Gets (fun expressions => ∀ expression ∈ expressions, expression.Plain)
      (statementExpressions finish last bound tokens fewer) := by
  refine (expressionsFrom_plain last bound (List.forall_mem_nil _) tokens fewer).bind ?_
  rintro ⟨expressions, rest⟩ plain
  exact .after fun _ => .ok plain

theorem initialValue_plain (bound : Nat) (tokens : List Lexeme) (fewer : tokens.length < bound) :
    Gets (fun initial => ∀ value ∈ initial, value.Plain)
      (initialValue finish bound tokens fewer) := by
  refine .after fun accepted => ?_
  split
  · exact .ok (by rintro _ ⟨⟩)
  · refine .after fun accepted => ?_
    split
    · exact .after fun _ => .error _
    · refine (expression_plain _).bind ?_
      rintro ⟨value, rest⟩ plain
      refine .ok ?_
      rintro _ ⟨⟩
      exact plain

/-! ### Declarations -/

theorem declarator_plain {type : TypeRef} (typePlain : type.Plain) (tokens : List Lexeme) :
    Gets (fun declared => (Part.declare declared).Plain) (declarator finish type tokens) := by
  refine .after fun position => .after fun ⟨name, behind, _⟩ => (brackets_plain typePlain _ _).bind ?_
  rintro ⟨array, rest, _⟩ arrayPlain
  refine (initialValue_plain _ _ _).bind ?_
  rintro ⟨initial, last⟩ initialPlain
  refine .ok ⟨fun value isInitial => initialPlain value (Option.mem_toList.mp isInitial), ?_⟩
  rintro _ ⟨⟩
  exact arrayPlain

theorem declaratorsFrom_plain {type : TypeRef} (typePlain : type.Plain) (bound : Nat)
    {read : List Declarator} (readPlain : ∀ declared ∈ read, (Part.declare declared).Plain)
    (tokens : List Lexeme) (fewer : tokens.length < bound) :
    Takes (fun declarators => ∀ declared ∈ declarators, (Part.declare declared).Plain)
      (declaratorsFrom finish type bound read tokens fewer) := by
  rw [declaratorsFrom]
  refine (Notes.lift (declarator_plain typePlain tokens)).bind ?_
  rintro ⟨first, rest, _⟩ plain
  have more : ∀ declared ∈ first :: read, (Part.declare declared).Plain :=
    List.forall_mem_cons.mpr ⟨plain, readPlain⟩
  refine .after fun _ => .after fun accepted => ?_
  split
  · exact declaratorsFrom_plain typePlain bound more _ _
  · exact .pure fun declared isIn => more declared (List.mem_reverse.mp isIn)
termination_by tokens.length

theorem declaration_plain (tokens : List Lexeme) : Takes Stmt.Plain (declaration finish tokens) := by
  refine .after fun position => (Notes.lift (typeRef_plain _)).bind ?_
  rintro ⟨type, rest, _⟩ typePlain
  refine (declaratorsFrom_plain typePlain _ (List.forall_mem_nil _) _ _).bind ?_
  rintro ⟨declarators, last⟩ plain
  refine .pure fun part isIn => ?_
  obtain ⟨declared, isDeclared, rfl⟩ := List.mem_map.mp isIn
  exact plain declared isDeclared

/-! ### Statements -/

theorem loopStart_plain (bound : Nat) (tokens : List Lexeme) (fewer : tokens.length < bound) :
    Takes (fun start => ∀ statement ∈ start, statement.Plain)
      (loopStart finish bound tokens fewer) := by
  refine .after fun accepted => ?_
  split
  · exact .pure (List.forall_mem_nil _)
  · split
    · refine (declaration_plain tokens).bind ?_
      rintro ⟨declared, rest, _⟩ plain
      exact .pure (List.forall_mem_singleton.mpr plain)
    · refine (Notes.lift (statementExpressions_plain _ _ _ _)).bind ?_
      rintro ⟨expressions, rest⟩ plain
      refine .pure fun statement isIn => ?_
      obtain ⟨expression, isExpression, rfl⟩ := List.mem_map.mp isIn
      exact List.forall_mem_singleton.mpr (evaluate_plain (plain expression isExpression))

theorem loopTest_plain (bound : Nat) (tokens : List Lexeme) (fewer : tokens.length < bound) :
    Gets (fun test => ∀ expression ∈ test, expression.Plain) (loopTest finish bound tokens fewer) := by
  refine .after fun accepted => ?_
  split
  · exact .ok (by rintro _ ⟨⟩)
  · refine (expression_plain tokens).bind ?_
    rintro ⟨test, middle, _⟩ plain
    refine .after fun _ => .ok ?_
    rintro _ ⟨⟩
    exact plain

theorem loopUpdates_plain (bound : Nat) (tokens : List Lexeme) (fewer : tokens.length < bound) :
    Gets (fun updates => ∀ expression ∈ updates, expression.Plain)
      (loopUpdates finish bound tokens fewer) := by
  refine .after fun accepted => ?_
  split
  · exact .ok (List.forall_mem_nil _)
  · refine (statementExpressions_plain _ _ _ _).bind ?_
    rintro ⟨updates, middle, _⟩ plain
    exact .after fun _ => .ok plain

/-- What the head of a loop evaluates and declares is plain. -/
theorem loopHead_plain (bound : Nat) (tokens : List Lexeme) (fewer : tokens.length < bound) :
    Takes (fun head => ∀ part ∈ Stmt.partsAll head.1 ++ (head.2.1.toList ++ head.2.2).map .evaluate,
      part.Plain) (loopHead finish bound tokens fewer) := by
  refine .after fun ⟨inside, _⟩ => (loopStart_plain _ _ _).bind ?_
  rintro ⟨start, first, _⟩ startPlain
  refine .after fun ⟨behind, _⟩ => (Notes.lift (loopTest_plain _ _ _)).bind ?_
  rintro ⟨test, second, _⟩ testPlain
  refine (Notes.lift (loopUpdates_plain _ _ _)).bind ?_
  rintro ⟨updates, rest⟩ updatesPlain
  refine .pure (List.forall_mem_append.mpr ⟨partsAll_plain startPlain, evaluateAll_plain ?_⟩)
  exact List.forall_mem_append.mpr
    ⟨fun expression isTest => testPlain expression (Option.mem_toList.mp isTest), updatesPlain⟩

theorem returnStatement_plain (position : Position) (bound : Nat) (tokens : List Lexeme)
    (fewer : tokens.length < bound) :
    Gets Stmt.Plain (returnStatement finish position bound tokens fewer) := by
  unfold returnStatement
  refine .after fun accepted => ?_
  dsimp only
  have behind : ∀ read : Parsed tokens.length Expr, read.1.Plain → ∀ fewer,
      Gets Stmt.Plain (do
        let last ← endStatement finish bound read.2.val fewer
        return (.ret (some read.1) position, last)) := fun read plain fewer =>
    .after fun _ => .ok (List.forall_mem_singleton.mpr (evaluate_plain plain))
  split
  · refine .after fun bare => ?_
    split
    · exact .after fun _ => .ok (List.forall_mem_nil _)
    · exact (expression_plain tokens).bind fun read plain => behind read plain _
  · refine .after fun token => .after fun bare => ?_
    split
    · exact .after fun _ => .ok (List.forall_mem_nil _)
    · exact (expression_plain tokens).bind fun read plain => behind read plain _

theorem jumpStatement_plain (inLoop : Bool) (word : Keyword) {jump : Position → Stmt}
    (plain : ∀ position, (jump position).Plain) (position : Position) (bound : Nat)
    (tokens : List Lexeme) (fewer : tokens.length < bound) :
    Gets Stmt.Plain (jumpStatement finish inLoop word jump position bound tokens fewer) := by
  unfold jumpStatement
  dsimp only
  split
  · exact .error _
  · refine .after fun token => ?_
    split
    · exact .after fun _ => .error _
    · exact .after fun _ => .ok (plain position)

theorem expressionStatement_plain (tokens : List Lexeme) :
    Gets Stmt.Plain (expressionStatement finish tokens) := by
  refine .after fun position => (expression_plain tokens).bind ?_
  rintro ⟨expression, rest, _⟩ plain
  exact .after fun _ => .after fun _ => .ok (List.forall_mem_singleton.mpr (evaluate_plain plain))

theorem simpleStatement_plain (inLoop : Bool) (tokens : List Lexeme) :
    Takes Stmt.Plain (simpleStatement finish inLoop tokens) := by
  unfold simpleStatement
  split
  · exact .lift (returnStatement_plain _ _ _ _)
  · refine .lift (jumpStatement_plain _ _ ?_ _ _ _ _)
    exact fun _ => List.forall_mem_nil Part.Plain
  · refine .lift (jumpStatement_plain _ _ ?_ _ _ _ _)
    exact fun _ => List.forall_mem_nil Part.Plain
  · refine .lift ((expression_plain _).bind ?_)
    rintro ⟨thrown, middle, _⟩ plain
    exact .after fun _ => .ok (List.forall_mem_singleton.mpr (evaluate_plain plain))
  · exact .pure (List.forall_mem_nil _)
  · split
    · refine (declaration_plain _).bind ?_
      rintro ⟨declared, rest, _⟩ plain
      exact .after fun _ => .pure plain
    · exact .lift (expressionStatement_plain _)

mutual

/-- The types in a statement that is read are plain. -/
theorem statement_plain (inLoop : Bool) (tokens : List Lexeme) :
    Takes Stmt.Plain (statement finish inLoop tokens) := by
  rw [statement.eq_def]
  split
  · refine (Notes.lift (test_plain _)).bind ?_
    rintro ⟨test, behind, _⟩ testPlain
    refine (substatement_plain _ _).bind ?_
    rintro ⟨first, middle, _⟩ firstPlain
    refine .after fun token => ?_
    split
    · refine .after fun ⟨other, _⟩ => (substatement_plain _ _).bind ?_
      rintro ⟨second, last, _⟩ secondPlain
      exact .pure (List.forall_mem_cons.mpr
        ⟨evaluate_plain testPlain, List.forall_mem_append.mpr ⟨firstPlain, secondPlain⟩⟩)
    · exact .pure (List.forall_mem_cons.mpr ⟨evaluate_plain testPlain, firstPlain⟩)
  · refine (Notes.lift (test_plain _)).bind ?_
    rintro ⟨test, behind, _⟩ testPlain
    refine (substatement_plain _ _).bind ?_
    rintro ⟨body, last, _⟩ bodyPlain
    exact .pure (List.forall_mem_cons.mpr ⟨evaluate_plain testPlain, bodyPlain⟩)
  · refine (substatement_plain _ _).bind ?_
    rintro ⟨body, middle, _⟩ bodyPlain
    refine .after fun ⟨behind, _⟩ => (Notes.lift (test_plain _)).bind ?_
    rintro ⟨test, tail, _⟩ testPlain
    exact .after fun _ => .pure (List.forall_mem_append.mpr
      ⟨bodyPlain, List.forall_mem_singleton.mpr (evaluate_plain testPlain)⟩)
  · refine (loopHead_plain _ _ _).bind ?_
    rintro ⟨⟨start, test, updates⟩, behind, _⟩ headPlain
    refine (substatement_plain _ _).bind ?_
    rintro ⟨body, last, _⟩ bodyPlain
    exact .pure (List.forall_mem_append.mpr ⟨headPlain, bodyPlain⟩)
  · refine (block_plain _ _ (List.forall_mem_nil _) _ _).bind ?_
    rintro ⟨body, last⟩ plain
    exact .pure (partsAll_plain plain)
  · exact simpleStatement_plain _ _
termination_by 8 * tokens.length + 1
decreasing_by all_goals (subst_vars; simp only [List.length_cons]; omega)

theorem substatement_plain (inLoop : Bool) (tokens : List Lexeme) :
    Takes Stmt.Plain (substatement finish inLoop tokens) := by
  rw [substatement]
  refine .after fun token => ?_
  dsimp only
  split
  · exact .after fun _ => .throw _
  · refine (statement_plain _ _).bind ?_
    rintro ⟨inner, rest⟩ plain
    dsimp only
    split
    · exact .throw _
    · exact .pure plain
termination_by 8 * tokens.length + 2

theorem block_plain (inLoop : Bool) (bound : Nat) {read : List Stmt}
    (readPlain : ∀ statement ∈ read, statement.Plain) (tokens : List Lexeme)
    (fewer : tokens.length < bound) :
    Takes (fun body => ∀ statement ∈ body, statement.Plain)
      (block finish inLoop bound read tokens fewer) := by
  rw [block]
  refine .after fun token => ?_
  split
  · exact .after fun _ => .throw _
  · exact .after fun _ => .pure fun statement isIn => readPlain statement (List.mem_reverse.mp isIn)
  · refine (statement_plain _ _).bind ?_
    rintro ⟨first, rest, _⟩ plain
    exact block_plain inLoop bound (List.forall_mem_cons.mpr ⟨plain, readPlain⟩) _ _
termination_by 8 * tokens.length + 3

end

theorem statements_plain {read : List Stmt} (readPlain : ∀ statement ∈ read, statement.Plain)
    (tokens : List Lexeme) :
    Notes (fun statements => ∀ statement ∈ statements, statement.Plain)
      (statements finish read tokens) := by
  rw [statements]
  refine .after fun token => ?_
  split
  · exact .pure fun statement isIn => readPlain statement (List.mem_reverse.mp isIn)
  · refine (statement_plain _ _).bind ?_
    rintro ⟨first, rest, _⟩ plain
    exact statements_plain (List.forall_mem_cons.mpr ⟨plain, readPlain⟩) rest
termination_by tokens.length

end Parse

/-- **The types in a text are plain.** -/
theorem Stmt.parse_plain {source : String} {statements : List Stmt}
    (parsed : (Stmt.parse source).1 = .ok statements) :
    ∀ part ∈ Stmt.partsAll statements, part.Plain := by
  unfold Stmt.parse at parsed
  generalize lexemes source = scanned at parsed
  obtain ⟨tokens, finish⟩ := scanned
  dsimp only at parsed
  rcases ran : (Parse.statements finish [] tokens).run.run #[] with ⟨result, declared⟩
  rw [ran] at parsed
  cases parsed
  exact Parse.partsAll_plain (Parse.statements_plain (List.forall_mem_nil _) tokens _ _ _ ran)

end MethodPatch
