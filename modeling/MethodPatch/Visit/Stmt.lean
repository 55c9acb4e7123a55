/-
**Visiting statements.**

A visitor keeps the loops around the statement that it visits, innermost first. The branches of `break`
and `continue` are handed to the innermost loop, which has to be there, and the loop lands them when
its body has been visited.

* `Stmt.visit`: the visit of a statement;
* `Visitor.emit`, `Visitor.generate`: statements that stand in no loop.
-/

import MethodPatch.Visit.Guarded

namespace MethodPatch

/-- Visiting with a scope that changes: an answer or an error, and visitor and scope as they are
then. -/
abbrev VisitScoped := ExceptT SourceError (StateM (Visitor × Scope))

namespace Visit

/-- Branches out of the body of the innermost loop, or to its next round, are left to the loop. -/
def record (exits : LoopExits) : Visit Unit := modify fun visitor =>
  match visitor.loops with
  | [] => visitor
  | innermost :: around => { visitor with loops := (innermost ++ exits) :: around }

/-- A branch out of a loop, which has to be there. -/
def jump (position : Position) (exits : Nat → LoopExits) : Visit Unit := do
  if (← get).loops.isEmpty then throw (notGenerated .jumpOutsideLoop (some position))
  record (exits (← branch .always))

/-- Enters the body of a loop. -/
def enterLoop : Visit Unit := modify fun visitor => { visitor with loops := .none :: visitor.loops }

/-- Leaves the body of the innermost loop, with the branches that were left to it. -/
def leaveLoop : Visit LoopExits := do
  match (← get).loops with
  | [] => return .none
  | innermost :: around =>
    modify fun visitor => { visitor with loops := around }
    return innermost

end Visit

namespace VisitScoped

/-- Visits in the scope as it is. -/
def within {α : Type} (visit : Scope → Visit α) : VisitScoped α := fun (visitor, scope) =>
  let (result, visitor) := visit scope visitor
  (result, (visitor, scope))

/-- Visits whatever the scope is. -/
def plain {α : Type} (visit : Visit α) : VisitScoped α := within fun _ => visit

/-- The visit of a statement at its place, which an error without a place gets. -/
def statement (position : Position) (visit : VisitScoped Unit) : VisitScoped Unit := do
  plain do
    modify fun visitor =>
      { visitor with generator := { visitor.generator with position := some position } }
    Visit.setDepth 0
  ExceptT.adapt (·.orAt (some position)) visit

/-- A name stands for a slot and a type from now on. -/
def bind (name : String) (slot : Slot) (type : FieldType) : VisitScoped Unit :=
  modify fun (visitor, scope) => (visitor, scope.bind name slot type)

/-- The body of a loop, and the branches that were left to the loop. -/
def loopBody (visit : VisitScoped Unit) : VisitScoped LoopExits := do
  plain Visit.enterLoop
  visit
  plain Visit.leaveLoop

end VisitScoped

/-- The visit of a declared variable. It gets the slot that has been settled, or the next one. -/
def Declarator.visit (site : Site) (declarator : Declarator) : VisitScoped Unit := do
  let type ← liftExcept (declarator.fieldType site.host)
  let next := (← get).1.generator.maxLocals
  let slot := declarator.slot.getD next
  let last := slot.toNat + type.width
  if 65535 < last then throw (notGenerated .tooManyLocals (some declarator.position))
  VisitScoped.plain (modify fun visitor =>
    { visitor with generator := visitor.generator.reserveLocals (UInt16.ofNat last) })
  match declarator.initial with
  | none => pure ()
  | some initial => VisitScoped.within fun scope => do
    let source ← (initial.guarded site scope).value
    Visit.instrs (← liftExcept (site.host.coercion source type initial))
    Visit.instr (.store type.storage slot)
  VisitScoped.bind declarator.name slot type

/-- The visit of `return`. -/
def visitReturn (site : Site) (result : Option Expr) (position : Position) (scope : Scope) :
    Visit Unit := do
  match site.method.signature.result, result with
  | none, none => Visit.instr (.ret none)
  | none, some result => throw (mistyped .unexpectedResult (some result.position))
  | some _, none => throw (mistyped .missingResult (some position))
  | some type, some result =>
    let source ← (result.guarded site scope).value
    Visit.instrs (← liftExcept (site.host.coercion source type result))
    Visit.instr (.ret (some type.storage))

/-- The visit of `throw`. -/
def visitThrow (site : Site) (thrown : Expr) (scope : Scope) : Visit Unit := do
  let type ← (thrown.guarded site scope).value
  if !site.host.isThrowable type then
    throw (mistyped (.inconvertible type (.value (.object throwableClass))) (some thrown.position))
  Visit.instr .athrow

/-- The updates of a `for` loop. -/
def visitUpdates (site : Site) (scope : Scope) (updates : List Expr) : Visit Unit :=
  updates.forM fun update => do
    Visit.setDepth 0
    (update.guarded site scope).effect

open VisitScoped in
mutual

/-- The visit of a statement. -/
def Stmt.visit (site : Site) : Stmt → VisitScoped Unit
  | .declare _ declarators position => statement position (declarators.forM (·.visit site))
  | .expression expression position => statement position
    (within fun scope => (expression.guarded site scope).effect)
  | .branch test first none position => statement position do
    let whenFalse ← within fun scope => (test.guarded site scope).branches false
    first.visit site
    plain (Visit.landHere whenFalse)
  | .branch test first (some second) position => statement position do
    let whenFalse ← within fun scope => (test.guarded site scope).branches false
    first.visit site
    let finish ← plain (Visit.branch .always)
    plain (Visit.landHere whenFalse)
    second.visit site
    plain (Visit.landHere [finish])
  | .whileLoop test body position => statement position do
    let start ← plain Visit.here
    let whenFalse ← within fun scope => (test.guarded site scope).branches false
    let exits ← loopBody (body.visit site)
    plain do
      Visit.instr (.branch .always start)
      Visit.land exits.continues start
      Visit.landHere (whenFalse ++ exits.breaks)
  | .doLoop body test position => statement position do
    let start ← plain Visit.here
    let exits ← loopBody (body.visit site)
    let next ← plain Visit.here
    plain (Visit.setDepth 0)
    let whenTrue ← within fun scope => (test.guarded site scope).branches true
    plain do
      Visit.land whenTrue start
      Visit.land exits.continues next
      Visit.landHere exits.breaks
  | .forLoop start test updates body position => statement position do
    visitAll site start
    let first ← plain Visit.here
    plain (Visit.setDepth 0)
    let whenFalse ← match test with
      | some test => within fun scope => (test.guarded site scope).branches false
      | none => pure []
    let exits ← loopBody (body.visit site)
    let next ← plain Visit.here
    within fun scope => visitUpdates site scope updates
    plain do
      Visit.instr (.branch .always first)
      Visit.land exits.continues next
      Visit.landHere (whenFalse ++ exits.breaks)
  | .block body position => statement position (visitAll site body)
  | .ret result position => statement position (within (visitReturn site result position))
  | .breakLoop position => statement position (plain (Visit.jump position fun jump => ⟨[jump], []⟩))
  | .continueLoop position =>
    statement position (plain (Visit.jump position fun jump => ⟨[], [jump]⟩))
  | .throwing thrown position => statement position (within (visitThrow site thrown))
  | .empty position => statement position (pure ())

/-- The visit of statements in order. -/
def visitAll (site : Site) : List Stmt → VisitScoped Unit
  | [] => pure ()
  | first :: rest => do
    first.visit site
    visitAll site rest

end

namespace Visitor

/-- One statement that stands in no loop, and the visitor and the scope behind it. -/
def emit (visitor : Visitor) (site : Site) (scope : Scope) (statement : Stmt) :
    Except SourceError Unit × Visitor × Scope :=
  (statement.visit site).run.run ({ visitor with loops := [], probing := false }, scope)

/-- Statements in order, up to the first error. -/
def generate (visitor : Visitor) (site : Site) (scope : Scope) :
    List Stmt → Except SourceError Unit × Visitor × Scope
  | [] => (.ok (), visitor, scope)
  | first :: rest =>
    match visitor.emit site scope first with
    | (.ok (), visitor, scope) => generate visitor site scope rest
    | (.error error, visitor, scope) => (.error error, visitor, scope)

end Visitor

end MethodPatch
