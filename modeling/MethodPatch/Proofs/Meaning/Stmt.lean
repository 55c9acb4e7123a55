/-
**What statements mean.**

The meaning of statements over local variables: what they leave in the variables, and whether they
pass on to what follows or leave the loop around them. A loop goes through as many rounds as it
takes; a limit on the rounds makes the meaning a function, and what is executed within a limit is
executed alike within any larger one.

* `Stmt.exec`: execution with a limit on the rounds of each loop;
* `Stmt.Terminates`, `Stmt.Diverges`: some limit is enough, or none is;
* `Stmt.exec_more`: larger limits change nothing.
-/

import MethodPatch.Proofs.Machine.Outcome
import MethodPatch.Proofs.Meaning.Typed

namespace MethodPatch

/-- One of two executions, by the value of a condition. -/
def Expr.decide (types : Types) (test : Expr) (holds fails : Store → Outcome Store) (store : Store) :
    Outcome Store :=
  match test.eval types store with
  | some (.boolean true, store) => holds store
  | some (.boolean false, store) => fails store
  | _ => .stuck

/-- The test of a `for` loop, which holds if it is left out. -/
def Expr.decide? (types : Types) (test : Option Expr) (holds fails : Store → Outcome Store) :
    Store → Outcome Store :=
  match test with
  | some test => test.decide types holds fails
  | none => holds

/-- An expression is evaluated for its effect. -/
def Expr.perform (types : Types) (expression : Expr) (store : Store) : Outcome Store :=
  .ofOption ((expression.eval types store).map Prod.snd)

/-- Expressions are evaluated in order. -/
def performAll (types : Types) : List Expr → Store → Outcome Store
  | [], store => .passed store
  | first :: rest, store => (first.perform types store).andThen (performAll types rest)

/-- A declared variable gets its initial value, converted to its type. Without one it is not
assigned. -/
def Declarator.initialise (types : Types) (declarator : Declarator) (store : Store) :
    Outcome Store :=
  match declarator.initial with
  | none => .passed store
  | some initial => .ofOption do
    let (value, store) ← initial.eval types store
    return store.set declarator.name (value.convert (← types declarator.name))

/-- Declared variables get their initial values in order. -/
def initialiseAll (types : Types) : List Declarator → Store → Outcome Store
  | [], store => .passed store
  | first :: rest, store => (first.initialise types store).andThen (initialiseAll types rest)

mutual

/-- The execution of a statement, in which each loop may go through a number of rounds. -/
def Stmt.exec (types : Types) (limit : Nat) : Stmt → Store → Outcome Store
  | .declare _ declarators _ => initialiseAll types declarators
  | .expression expression _ => expression.perform types
  | .branch test first none _ => test.decide types (first.exec types limit) .passed
  | .branch test first (some second) _ =>
    test.decide types (first.exec types limit) (second.exec types limit)
  | .whileLoop test body _ =>
    Outcome.rounds (test.decide types (body.exec types limit) (.left .out)) limit
  | .doLoop body test _ =>
    Outcome.rounds (fun store => (body.exec types limit store).caught.andThen
      (test.decide types .passed (.left .out))) limit
  | .forLoop start test updates body _ => fun store =>
    (execAll types limit start store).unlooped.andThen
      (Outcome.rounds (Expr.decide? types test
        (fun store => (body.exec types limit store).caught.andThen (performAll types updates))
        (.left .out)) limit)
  | .block body _ => execAll types limit body
  | .breakLoop _ => .left .out
  | .continueLoop _ => .left .next
  | .empty _ => .passed
  | .ret _ _ | .throwing _ _ => fun _ => .stuck

/-- The execution of statements in order. -/
def execAll (types : Types) (limit : Nat) : List Stmt → Store → Outcome Store
  | [], store => .passed store
  | first :: rest, store => (first.exec types limit store).andThen (execAll types limit rest)

end

/-- The execution of a statement ends, with the variables as they are then. -/
def Stmt.Terminates (statement : Stmt) (types : Types) (store final : Store) : Prop :=
  ∃ limit, statement.exec types limit store = .passed final

/-- The execution of a statement does not end. -/
def Stmt.Diverges (statement : Stmt) (types : Types) (store : Store) : Prop :=
  ∀ limit, statement.exec types limit store = .unfinished

/-! ### Limits -/

section Limits

variable {types : Types} {limit larger : Nat}

theorem Expr.decide_more {test : Expr} {holds fails others rests : Store → Outcome Store}
    (whenTrue : ∀ store, (holds store).More (others store))
    (whenFalse : ∀ store, (fails store).More (rests store)) (store : Store) :
    (test.decide types holds fails store).More (test.decide types others rests store) := by
  unfold decide
  split
  · exact whenTrue _
  · exact whenFalse _
  · exact .refl _

theorem Expr.decide?_more {test : Option Expr} {holds fails others rests : Store → Outcome Store}
    (whenTrue : ∀ store, (holds store).More (others store))
    (whenFalse : ∀ store, (fails store).More (rests store)) (store : Store) :
    (Expr.decide? types test holds fails store).More
      (Expr.decide? types test others rests store) := by
  cases test with
  | some test => exact decide_more whenTrue whenFalse store
  | none => exact whenTrue store

mutual

/-- **Larger limits change nothing** for a statement whose execution is not given up. -/
theorem Stmt.exec_more (atMost : limit ≤ larger) : (statement : Stmt) → (store : Store) →
    (statement.exec types limit store).More (statement.exec types larger store)
  | .declare _ _ _, _ | .expression _ _, _ | .breakLoop _, _ | .continueLoop _, _ | .empty _, _
  | .ret _ _, _ | .throwing _ _, _ => .refl _
  | .branch _ first none _, store =>
    Expr.decide_more (Stmt.exec_more atMost first) (fun _ => .refl _) store
  | .branch _ first (some second) _, store =>
    Expr.decide_more (Stmt.exec_more atMost first) (Stmt.exec_more atMost second) store
  | .whileLoop _ body _, store =>
    .rounds (Expr.decide_more (Stmt.exec_more atMost body) fun _ => .refl _) atMost store
  | .doLoop body _ _, store =>
    .rounds (fun store => (Stmt.exec_more atMost body store).caught.andThen fun _ => .refl _)
      atMost store
  | .forLoop start _ _ body _, store =>
    (execAll_more atMost start store).unlooped.andThen <|
      .rounds (Expr.decide?_more
        (fun store => (Stmt.exec_more atMost body store).caught.andThen fun _ => .refl _)
        fun _ => .refl _) atMost
  | .block body _, store => execAll_more atMost body store

theorem execAll_more (atMost : limit ≤ larger) : (statements : List Stmt) → (store : Store) →
    (execAll types limit statements store).More (execAll types larger statements store)
  | [], _ => .refl _
  | first :: rest, store =>
    (Stmt.exec_more atMost first store).andThen (execAll_more atMost rest)

end

/-- The execution of a statement ends in one way. -/
theorem Stmt.Terminates.unique {statement : Stmt} {store first second : Store}
    (ends : statement.Terminates types store first)
    (alsoEnds : statement.Terminates types store second) : first = second := by
  obtain ⟨limit, ends⟩ := ends
  obtain ⟨larger, alsoEnds⟩ := alsoEnds
  have here := (Stmt.exec_more (Nat.le_max_left limit larger) statement store).eq ends
  have there := (Stmt.exec_more (Nat.le_max_right limit larger) statement store).eq alsoEnds
  rw [here] at there
  cases there
  rfl

end Limits

end MethodPatch
