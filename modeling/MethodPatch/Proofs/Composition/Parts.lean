/-
**The parts of a statement.**

A statement evaluates expressions and declares variables. Its parts are listed in source order, and
what the code of the statement depends on is said part by part.

* `Stmt.parts`: the parts of a statement and of the statements in it;
* `Clear`: no pending name occurs in front of the end of its declaration;
* `Part.Fine`: the types in a part are from a set, and a declared variable has been settled;
* `Stmt.parts_mapParts`: a statement with other declarators has other declarations as its parts.
-/

import MethodPatch.Generator.Stmt
import MethodPatch.Proofs.Composition.Names
import MethodPatch.Proofs.Composition.Types

namespace MethodPatch

/-- What a statement consists of. -/
inductive Part
  | evaluate (expression : Expr)
  | declare (declarator : Declarator)

namespace Stmt

mutual

/-- The parts of a statement and of the statements in it, in source order. -/
def parts : Stmt → List Part
  | .declare _ declarators _ => declarators.map .declare
  | .expression value _ => [.evaluate value]
  | .branch test first none _ => .evaluate test :: first.parts
  | .branch test first (some second) _ => .evaluate test :: (first.parts ++ second.parts)
  | .whileLoop test body _ => .evaluate test :: body.parts
  | .doLoop body test _ => body.parts ++ [.evaluate test]
  | .forLoop start test updates body _ =>
    partsAll start ++ (test.toList ++ updates).map .evaluate ++ body.parts
  | .block body _ => partsAll body
  | .ret result _ => result.toList.map .evaluate
  | .throwing thrown _ => [.evaluate thrown]
  | .breakLoop _ | .continueLoop _ | .empty _ => []

/-- The parts of statements in order. -/
def partsAll : List Stmt → List Part
  | [] => []
  | first :: rest => first.parts ++ partsAll rest

end

end Stmt

/-! ### Pending names -/

namespace Part

/-- The expressions of a part. -/
def expressions : Part → List Expr
  | evaluate expression => [expression]
  | declare declarator => declarator.initial.toList

/-- The variable that is declared, if one is. -/
def declarator? : Part → Option Declarator
  | evaluate _ => none
  | declare declarator => some declarator

/-- The names that are pending behind a part: a declaration takes its name out of them. -/
def behind (pending : String → Prop) : Part → String → Prop
  | evaluate _ => pending
  | declare declarator => fun name => pending name ∧ name ≠ declarator.name

end Part

/-- The names that are pending behind parts in order. -/
def pendingBehind (pending : String → Prop) (parts : List Part) : String → Prop :=
  parts.foldl Part.behind pending

/-- No pending name occurs in parts in front of the end of its first declaration. -/
def Clear (pending : String → Prop) : List Part → Prop
  | [] => True
  | part :: rest =>
    (∀ expression ∈ part.expressions, Avoid pending expression.names) ∧
      Clear (part.behind pending) rest

instance (pending : String → Prop) [DecidablePred pending] (part : Part) :
    DecidablePred (part.behind pending) :=
  match part with
  | .evaluate _ => inferInstanceAs (DecidablePred pending)
  | .declare declarator => fun name =>
    inferInstanceAs (Decidable (pending name ∧ name ≠ declarator.name))

instance decidableClear (pending : String → Prop) [DecidablePred pending] :
    (parts : List Part) → Decidable (Clear pending parts)
  | [] => inferInstanceAs (Decidable True)
  | part :: rest =>
    have := decidableClear (part.behind pending) rest
    inferInstanceAs (Decidable ((∀ expression ∈ part.expressions, ∀ name ∈ expression.names,
      ¬ pending name) ∧ Clear (part.behind pending) rest))

variable {pending fewer : String → Prop} {parts more : List Part}

theorem pendingBehind_append :
    pendingBehind pending (parts ++ more) = pendingBehind (pendingBehind pending parts) more :=
  List.foldl_append

theorem pendingBehind_evaluate (expressions : List Expr) :
    pendingBehind pending (expressions.map .evaluate) = pending := by
  induction expressions with
  | nil => rfl
  | cons first rest ih => exact ih

theorem Part.pending_of_behind {part : Part} {name : String} (isPending : part.behind pending name) :
    pending name := by
  cases part with
  | evaluate expression => exact isPending
  | declare declarator => exact isPending.1

theorem pending_of_behind {name : String} (isPending : pendingBehind pending parts name) :
    pending name := by
  induction parts generalizing pending with
  | nil => exact isPending
  | cons first rest ih => exact first.pending_of_behind (ih isPending)

theorem clear_append :
    Clear pending (parts ++ more) ↔ Clear pending parts ∧ Clear (pendingBehind pending parts) more := by
  induction parts generalizing pending with
  | nil => exact (iff_of_eq (true_and _)).symm
  | cons first rest ih => exact (and_congr_right fun _ => ih).trans and_assoc.symm

theorem clear_evaluate {expressions : List Expr} :
    Clear pending (expressions.map .evaluate) ↔
      ∀ expression ∈ expressions, Avoid pending expression.names := by
  induction expressions with
  | nil => exact ⟨nofun, fun _ => trivial⟩
  | cons first rest ih =>
    rw [List.map_cons, Clear, List.forall_mem_cons]
    exact and_congr ⟨fun avoid => avoid first List.mem_cons_self, fun avoid expression isIn =>
      List.mem_singleton.mp isIn ▸ avoid⟩ ih

/-! ### Types and settled variables -/

/-- The slot of a declared variable has been settled. Its type, if it has one, is from a set, and slot
and type are as given. -/
def Declarator.Settled (types : FieldType → Prop) (declares : Slot → FieldType → Prop) (host : Host)
    (declarator : Declarator) : Prop :=
  ∃ slot, declarator.slot = some slot ∧
    ∀ type, declarator.fieldType host = .ok type → types type ∧ declares slot type

/-- The types that are written in a part mean types from a set, and declared variables have been
settled. -/
structure Part.Fine (types : FieldType → Prop) (declares : Slot → FieldType → Prop) (host : Host)
    (part : Part) : Prop where
  means : ∀ expression ∈ part.expressions, expression.Means types host
  settled : ∀ declarator, part = .declare declarator → declarator.Settled types declares host

/-! ### Other declarators -/

/-- The statement with each of its declarators changed. -/
def Stmt.mapParts (change : Declarator → Declarator) (statement : Stmt) : Stmt :=
  Id.run (statement.mapDeclared fun declarator => pure (change declarator))

/-- The statements with each of their declarators changed. -/
def Stmt.mapPartsAll (change : Declarator → Declarator) (statements : List Stmt) : List Stmt :=
  Id.run (mapDeclaredAll (fun declarator => pure (change declarator)) statements)

/-- The part with its declarator changed, if it has one. -/
def Part.map (change : Declarator → Declarator) : Part → Part
  | evaluate expression => evaluate expression
  | declare declarator => declare (change declarator)

section

variable {change : Declarator → Declarator}
  (named : ∀ declarator, (change declarator).name = declarator.name)

include named

theorem Part.behind_map (part : Part) : (part.map change).behind pending = part.behind pending := by
  cases part with
  | evaluate expression => rfl
  | declare declarator => rw [Part.map, Part.behind, Part.behind, named]

/-- Names are pending as they were when declarators keep their names. -/
theorem pendingBehind_map :
    pendingBehind pending (parts.map (Part.map change)) = pendingBehind pending parts := by
  induction parts generalizing pending with
  | nil => rfl
  | cons first rest ih =>
    show pendingBehind ((first.map change).behind pending) _ = pendingBehind (first.behind pending) _
    rw [first.behind_map named]
    exact ih

/-- Declarators that keep their names and their initial values have pending names where they had. -/
theorem clear_map (initial : ∀ declarator, (change declarator).initial = declarator.initial) :
    Clear pending (parts.map (Part.map change)) ↔ Clear pending parts := by
  induction parts generalizing pending with
  | nil => exact Iff.rfl
  | cons first rest ih =>
    have expressions : (first.map change).expressions = first.expressions := by
      cases first with
      | evaluate expression => rfl
      | declare declarator => exact congrArg Option.toList (initial declarator)
    rw [List.map_cons, Clear, Clear, first.behind_map named, expressions]
    exact and_congr_right fun _ => ih

end

namespace Stmt

mutual

/-- The parts of a changed statement are the changed parts. -/
theorem parts_mapParts (change : Declarator → Declarator) : (statement : Stmt) →
    (statement.mapParts change).parts = statement.parts.map (Part.map change)
  | .declare final declarators position => by
    have mapped : (Stmt.declare final declarators position).mapParts change =
        .declare final (declarators.map change) position := by
      simp [mapParts, mapDeclared]
    rw [mapped, parts, parts, List.map_map, List.map_map]
    rfl
  | .branch test first none position =>
    congrArg (Part.evaluate test :: ·) (parts_mapParts change first)
  | .branch test first (some second) position => by
    rw [parts, List.map_cons, List.map_append, ← parts_mapParts change first,
      ← parts_mapParts change second]
    rfl
  | .whileLoop test body position =>
    congrArg (Part.evaluate test :: ·) (parts_mapParts change body)
  | .doLoop body test position => by
    rw [parts, List.map_append, ← parts_mapParts change body]
    rfl
  | .forLoop start test updates body position => by
    have evaluated : ((test.toList ++ updates).map Part.evaluate).map (Part.map change) =
        (test.toList ++ updates).map Part.evaluate := by
      rw [List.map_map]
      rfl
    rw [parts, List.map_append, List.map_append, evaluated, ← partsAll_mapPartsAll change start,
      ← parts_mapParts change body]
    rfl
  | .block body position => partsAll_mapPartsAll change body
  | .ret none position | .ret (some result) position => rfl
  | .expression _ _ | .breakLoop _ | .continueLoop _ | .throwing _ _ | .empty _ => rfl

theorem partsAll_mapPartsAll (change : Declarator → Declarator) : (statements : List Stmt) →
    partsAll (mapPartsAll change statements) = (partsAll statements).map (Part.map change)
  | [] => rfl
  | first :: rest => by
    rw [partsAll, List.map_append, ← parts_mapParts change first, ← partsAll_mapPartsAll change rest]
    rfl

end

theorem filterMap_evaluate (expressions : List Expr) :
    (expressions.map Part.evaluate).filterMap Part.declarator? = [] := by
  rw [List.filterMap_map]
  exact List.filterMap_eq_nil_iff.mpr fun _ _ => rfl

mutual

/-- The declarators of a statement are the ones of its parts. -/
theorem declared_eq : (statement : Stmt) →
    statement.declared = statement.parts.filterMap Part.declarator?
  | .declare final declarators position => by
    rw [declared, parts, List.filterMap_map]
    exact (List.filterMap_some ..).symm
  | .branch test first none position => declared_eq first
  | .branch test first (some second) position => by
    rw [declared, declared_eq first, declared_eq second, ← List.filterMap_append]
    rfl
  | .whileLoop test body position => declared_eq body
  | .doLoop body test position => by
    rw [parts, List.filterMap_append, ← declared_eq body]
    exact (List.append_nil _).symm
  | .forLoop start test updates body position => by
    rw [parts, List.filterMap_append, List.filterMap_append, filterMap_evaluate, List.append_nil,
      ← declaredAll_eq start, ← declared_eq body]
    rfl
  | .block body position => declaredAll_eq body
  | .ret none position | .ret (some result) position => rfl
  | .expression _ _ | .breakLoop _ | .continueLoop _ | .throwing _ _ | .empty _ => rfl

theorem declaredAll_eq : (statements : List Stmt) →
    declaredAll statements = (partsAll statements).filterMap Part.declarator?
  | [] => rfl
  | first :: rest => by
    rw [declaredAll, partsAll, List.filterMap_append, ← declared_eq first, ← declaredAll_eq rest]

end

end Stmt

end MethodPatch
