/-
**Jumps are in loops.**

`break` and `continue` are read in the body of a loop alone. The head of a loop is no part of its body,
and it has no place for a jump. Declarations are read without slots and without settled types.

* `Stmt.jumpsInLoops`: the jumps in a statement are in loops;
* `Parse.statement_asRead`: what is read of a statement, by induction on the tokens;
* `Stmt.parse_asRead`: **so it is in every text.**
-/

import MethodPatch.Proofs.Syntax.Written

namespace MethodPatch

/-! ### Jumps -/

namespace Stmt

/-- Statements that the head of a loop may begin with: declarations and expressions. -/
def isHead : Stmt → Bool
  | declare _ _ _ | expression _ _ => true
  | _ => false

mutual

/-- Every `break` and `continue` in a statement is in the body of a loop, which may be around the
statement. -/
def jumpsInLoops (inLoop : Bool) : Stmt → Bool
  | breakLoop _ | continueLoop _ => inLoop
  | branch _ first none _ => first.jumpsInLoops inLoop
  | branch _ first (some second) _ => first.jumpsInLoops inLoop && second.jumpsInLoops inLoop
  | whileLoop _ body _ | doLoop body _ _ => body.jumpsInLoops true
  | forLoop start _ _ body _ => start.all isHead && body.jumpsInLoops true
  | block body _ => allJumpsInLoops inLoop body
  | _ => true

/-- The jumps in statements are in loops. -/
def allJumpsInLoops (inLoop : Bool) : List Stmt → Bool
  | [] => true
  | first :: rest => first.jumpsInLoops inLoop && allJumpsInLoops inLoop rest

end

theorem allJumpsInLoops_iff {inLoop : Bool} {statements : List Stmt} :
    allJumpsInLoops inLoop statements = true ↔
      ∀ statement ∈ statements, statement.jumpsInLoops inLoop = true := by
  induction statements with
  | nil => exact ⟨nofun, fun _ => rfl⟩
  | cons first rest ih => rw [allJumpsInLoops, Bool.and_eq_true, ih, List.forall_mem_cons]

theorem jumpsInLoops_of_isHead {statement : Stmt} (isHead : statement.isHead = true) (inLoop : Bool) :
    statement.jumpsInLoops inLoop = true := by
  cases statement with
  | declare => rfl
  | expression => rfl
  | _ => cases isHead

end Stmt

/-- A variable whose slot and type have not been settled. -/
def Declarator.isUnpatched (declarator : Declarator) : Prop :=
  declarator.slot = none ∧ declarator.typeName = none

/-- The jumps in a statement are in loops, and its variables are as they are written. -/
structure Stmt.AsRead (inLoop : Bool) (statement : Stmt) : Prop where
  jumps : statement.jumpsInLoops inLoop = true
  unpatched : ∀ declarator ∈ statement.declared, declarator.isUnpatched

theorem unpatched_declaredAll {statements : List Stmt}
    (unpatched : ∀ statement ∈ statements, ∀ declarator ∈ statement.declared, declarator.isUnpatched) :
    ∀ declarator ∈ Stmt.declaredAll statements, declarator.isUnpatched := by
  induction statements with
  | nil => exact List.forall_mem_nil _
  | cons first rest ih =>
    obtain ⟨here, behind⟩ := List.forall_mem_cons.mp unpatched
    exact List.forall_mem_append.mpr ⟨here, ih behind⟩

/-! ### Statements that are read -/

namespace Parse

variable {finish : Finish}

theorem declarator_unpatched (type : TypeRef) (tokens : List Lexeme) :
    Gets Declarator.isUnpatched (declarator finish type tokens) := by
  refine .after fun position => .after ?_
  rintro ⟨name, behind, _⟩
  refine .after ?_
  rintro ⟨array, rest, _⟩
  refine .after ?_
  rintro ⟨initial, last⟩
  exact .ok ⟨rfl, rfl⟩

theorem declaratorsFrom_unpatched (type : TypeRef) (bound : Nat) {read : List Declarator}
    (readUnpatched : ∀ declared ∈ read, declared.isUnpatched) (tokens : List Lexeme)
    (fewer : tokens.length < bound) :
    Takes (fun declarators => ∀ declared ∈ declarators, declared.isUnpatched)
      (declaratorsFrom finish type bound read tokens fewer) := by
  rw [declaratorsFrom]
  refine (Notes.lift (declarator_unpatched type tokens)).bind ?_
  rintro ⟨first, rest, _⟩ unpatched
  have more : ∀ declared ∈ first :: read, declared.isUnpatched :=
    List.forall_mem_cons.mpr ⟨unpatched, readUnpatched⟩
  refine .after fun _ => .after fun accepted => ?_
  split
  · exact declaratorsFrom_unpatched type bound more _ _
  · exact .pure fun declared isIn => more declared (List.mem_reverse.mp isIn)
termination_by tokens.length

/-- A declaration may also begin the head of a loop. -/
theorem declaration_asRead (inLoop : Bool) (tokens : List Lexeme) :
    Takes (fun statement => statement.AsRead inLoop ∧ statement.isHead = true)
      (declaration finish tokens) := by
  refine .after fun position => .after ?_
  rintro ⟨type, rest, _⟩
  refine (declaratorsFrom_unpatched type _ (List.forall_mem_nil _) _ _).bind ?_
  rintro ⟨declarators, last⟩ unpatched
  exact .pure ⟨⟨rfl, unpatched⟩, rfl⟩

/-- What the head of a loop may begin with is in order. -/
theorem loopStart_asRead (bound : Nat) (tokens : List Lexeme) (fewer : tokens.length < bound) :
    Takes (fun start => ∀ statement ∈ start, statement.AsRead true ∧ statement.isHead = true)
      (loopStart finish bound tokens fewer) := by
  refine .after fun accepted => ?_
  split
  · exact .pure (List.forall_mem_nil _)
  · split
    · refine (declaration_asRead true tokens).bind ?_
      rintro ⟨declared, rest, _⟩ asRead
      exact .pure (List.forall_mem_singleton.mpr asRead)
    · refine .after ?_
      rintro ⟨expressions, rest⟩
      refine .pure fun statement isIn => ?_
      obtain ⟨expression, _, rfl⟩ := List.mem_map.mp isIn
      exact ⟨⟨rfl, List.forall_mem_nil _⟩, rfl⟩

theorem loopHead_asRead (bound : Nat) (tokens : List Lexeme) (fewer : tokens.length < bound) :
    Takes (fun head => ∀ statement ∈ head.1, statement.AsRead true ∧ statement.isHead = true)
      (loopHead finish bound tokens fewer) := by
  refine .after ?_
  rintro ⟨inside, _⟩
  refine (loopStart_asRead _ _ _).bind ?_
  rintro ⟨start, first, _⟩ asRead
  refine .after ?_
  rintro ⟨behind, _⟩
  refine .after ?_
  rintro ⟨test, second, _⟩
  refine .after ?_
  rintro ⟨updates, rest⟩
  exact .pure asRead

variable {inLoop : Bool}

theorem returnStatement_asRead (position : Position) (bound : Nat) (tokens : List Lexeme)
    (fewer : tokens.length < bound) :
    Gets (Stmt.AsRead inLoop) (returnStatement finish position bound tokens fewer) := by
  have isRead (result : Option Expr) : (Stmt.ret result position).AsRead inLoop :=
    ⟨rfl, List.forall_mem_nil _⟩
  refine .after fun accepted => ?_
  dsimp only
  split
  on_goal 2 => refine .after fun token => ?_
  all_goals
    refine .after fun bare => ?_
    split
    · exact .after fun _ => .ok (isRead none)
    · refine .after ?_
      rintro ⟨result, rest, _⟩
      exact .after fun _ => .ok (isRead (some result))

/-- **A jump is read in a loop alone.** -/
theorem jumpStatement_asRead (word : Keyword) {jump : Position → Stmt}
    (inLoops : ∀ position, (jump position).AsRead true) (position : Position) (bound : Nat)
    (tokens : List Lexeme) (fewer : tokens.length < bound) :
    Gets (Stmt.AsRead inLoop) (jumpStatement finish inLoop word jump position bound tokens fewer) := by
  cases inLoop with
  | false => exact .error _
  | true =>
    refine .after fun token => ?_
    split
    · exact .after fun _ => .error _
    · exact .after fun _ => .ok (inLoops position)

theorem simpleStatement_asRead (tokens : List Lexeme) :
    Takes (Stmt.AsRead inLoop) (simpleStatement finish inLoop tokens) := by
  unfold simpleStatement
  split
  · exact .lift (returnStatement_asRead _ _ _ _)
  · exact .lift (jumpStatement_asRead _ (fun _ => ⟨rfl, List.forall_mem_nil _⟩) _ _ _ _)
  · exact .lift (jumpStatement_asRead _ (fun _ => ⟨rfl, List.forall_mem_nil _⟩) _ _ _ _)
  · refine .lift (.after ?_)
    rintro ⟨thrown, middle, _⟩
    exact .after fun _ => .ok ⟨rfl, List.forall_mem_nil _⟩
  · exact .pure ⟨rfl, List.forall_mem_nil _⟩
  · split
    · refine (declaration_asRead inLoop _).bind ?_
      rintro ⟨declared, rest, _⟩ ⟨asRead, _⟩
      exact .after fun _ => .pure asRead
    · refine .lift (.after fun position => .after ?_)
      rintro ⟨expression, rest, _⟩
      exact .after fun _ => .after fun _ => .ok ⟨rfl, List.forall_mem_nil _⟩

/-- Statements in order are as read if each of them is. -/
theorem block_asRead_of {position : Position} {body : List Stmt}
    (asRead : ∀ statement ∈ body, statement.AsRead inLoop) :
    (Stmt.block body position).AsRead inLoop where
  jumps := Stmt.allJumpsInLoops_iff.mpr fun statement isIn => (asRead statement isIn).jumps
  unpatched := unpatched_declaredAll fun statement isIn => (asRead statement isIn).unpatched

mutual

/-- **The jumps in a statement that is read are in loops.** -/
theorem statement_asRead (inLoop : Bool) (tokens : List Lexeme) :
    Takes (Stmt.AsRead inLoop) (statement finish inLoop tokens) := by
  rw [statement.eq_def]
  split
  · refine .after ?_
    rintro ⟨test, behind, _⟩
    refine (substatement_asRead _ _).bind ?_
    rintro ⟨first, middle, _⟩ isFirst
    refine .after fun token => ?_
    split
    · refine .after ?_
      rintro ⟨other, _⟩
      refine (substatement_asRead _ _).bind ?_
      rintro ⟨second, last, _⟩ isSecond
      exact .pure ⟨Bool.and_eq_true_iff.mpr ⟨isFirst.jumps, isSecond.jumps⟩,
        List.forall_mem_append.mpr ⟨isFirst.unpatched, isSecond.unpatched⟩⟩
    · exact .pure ⟨isFirst.jumps, isFirst.unpatched⟩
  · refine .after ?_
    rintro ⟨test, behind, _⟩
    refine (substatement_asRead _ _).bind ?_
    rintro ⟨body, last, _⟩ isBody
    exact .pure ⟨isBody.jumps, isBody.unpatched⟩
  · refine (substatement_asRead _ _).bind ?_
    rintro ⟨body, middle, _⟩ isBody
    refine .after ?_
    rintro ⟨behind, _⟩
    refine .after ?_
    rintro ⟨test, tail, _⟩
    exact .after fun _ => .pure ⟨isBody.jumps, isBody.unpatched⟩
  · refine (loopHead_asRead _ _ _).bind ?_
    rintro ⟨⟨start, test, updates⟩, behind, _⟩ isStart
    refine (substatement_asRead _ _).bind ?_
    rintro ⟨body, last, _⟩ isBody
    refine .pure ⟨Bool.and_eq_true_iff.mpr ⟨?_, isBody.jumps⟩, List.forall_mem_append.mpr ⟨?_, isBody.unpatched⟩⟩
    · exact List.all_eq_true.mpr fun statement isIn => (isStart statement isIn).2
    · exact unpatched_declaredAll fun statement isIn => (isStart statement isIn).1.unpatched
  · refine (block_asRead _ _ (List.forall_mem_nil _) _ _).bind ?_
    rintro ⟨body, last⟩ asRead
    exact .pure (block_asRead_of asRead)
  · exact simpleStatement_asRead _
termination_by 8 * tokens.length + 1
decreasing_by all_goals (subst_vars; simp only [List.length_cons]; omega)

theorem substatement_asRead (inLoop : Bool) (tokens : List Lexeme) :
    Takes (Stmt.AsRead inLoop) (substatement finish inLoop tokens) := by
  rw [substatement]
  refine .after fun token => ?_
  dsimp only
  split
  · exact .after fun _ => .throw _
  · refine (statement_asRead _ _).bind ?_
    rintro ⟨inner, rest⟩ asRead
    dsimp only
    split
    · exact .throw _
    · exact .pure asRead
termination_by 8 * tokens.length + 2

theorem block_asRead (inLoop : Bool) (bound : Nat) {read : List Stmt}
    (readBefore : ∀ statement ∈ read, statement.AsRead inLoop) (tokens : List Lexeme)
    (fewer : tokens.length < bound) :
    Takes (fun body => ∀ statement ∈ body, statement.AsRead inLoop)
      (block finish inLoop bound read tokens fewer) := by
  rw [block]
  refine .after fun token => ?_
  split
  · exact .after fun _ => .throw _
  · exact .after fun _ => .pure fun statement isIn => readBefore statement (List.mem_reverse.mp isIn)
  · refine (statement_asRead _ _).bind ?_
    rintro ⟨first, rest, _⟩ asRead
    exact block_asRead inLoop bound (List.forall_mem_cons.mpr ⟨asRead, readBefore⟩) _ _
termination_by 8 * tokens.length + 3

end

theorem statements_asRead {read : List Stmt} (readBefore : ∀ statement ∈ read, statement.AsRead false)
    (tokens : List Lexeme) :
    Notes (fun statements => ∀ statement ∈ statements, statement.AsRead false)
      (statements finish read tokens) := by
  rw [statements]
  refine .after fun token => ?_
  split
  · exact .pure fun statement isIn => readBefore statement (List.mem_reverse.mp isIn)
  · refine (statement_asRead _ _).bind ?_
    rintro ⟨first, rest, _⟩ asRead
    exact statements_asRead (List.forall_mem_cons.mpr ⟨asRead, readBefore⟩) rest
termination_by tokens.length

end Parse

/-- **The jumps in a text are in loops**, and its variables are as they are written. -/
theorem Stmt.parse_asRead {source : String} {statements : List Stmt}
    (parsed : (Stmt.parse source).1 = .ok statements) :
    ∀ statement ∈ statements, statement.AsRead false := by
  unfold Stmt.parse at parsed
  generalize lexemes source = scanned at parsed
  obtain ⟨tokens, finish⟩ := scanned
  dsimp only at parsed
  rcases ran : (Parse.statements finish [] tokens).run.run #[] with ⟨result, declared⟩
  rw [ran] at parsed
  cases parsed
  exact Parse.statements_asRead (List.forall_mem_nil _) tokens _ _ _ ran

end MethodPatch
