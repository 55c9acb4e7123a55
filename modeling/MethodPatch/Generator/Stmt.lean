/-
**Code for statements.**

A statement begins with an empty operand stack. The branches of `break` and `continue` are left to
the loop around them, which lands them. A declaration binds its variables in the scope once their
code is there.

* `Stmt.lower`: the code of a statement;
* `Generator.emit`, `Generator.generate`: statements that stand in no loop.
-/

import MethodPatch.Generator.Expr

namespace MethodPatch

/-- Generating with a scope that changes: an answer or an error, and generator and scope as they
are then. -/
abbrev EmitScoped := ExceptT SourceError (StateM (Generator × Scope))

/-- Branches out of the body of a loop and to its next round, which have no target yet. -/
structure LoopExits where
  breaks : List Nat
  continues : List Nat

namespace LoopExits

/-- No branches. -/
def none : LoopExits := ⟨[], []⟩

instance : Append LoopExits where
  append first second := ⟨first.breaks ++ second.breaks, first.continues ++ second.continues⟩

end LoopExits

namespace EmitScoped

/-- Generates in the scope as it is. -/
def within {α : Type} (emit : Scope → Emit α) : EmitScoped α := fun (generator, scope) =>
  let (result, generator) := emit scope generator
  (result, (generator, scope))

/-- Generates whatever the scope is. -/
def plain {α : Type} (emit : Emit α) : EmitScoped α := within fun _ => emit

/-- The code of a statement at its place, which an error without a place gets. -/
def statement {α : Type} (position : Position) (emit : EmitScoped α) : EmitScoped α := do
  plain do
    modify fun generator => { generator with position := some position }
    Emit.setDepth 0
  ExceptT.adapt (·.orAt (some position)) emit

/-- A name stands for a slot and a type from now on. -/
def bind (name : String) (slot : Slot) (type : FieldType) : EmitScoped Unit :=
  modify fun (generator, scope) => (generator, scope.bind name slot type)

end EmitScoped

/-- The class of everything that can be thrown. -/
def throwableClass : String := "java/lang/Throwable"

/-- Values that can be thrown: `null`, and objects unless their class is known to be another one. -/
def Host.isThrowable (host : Host) : StaticType → Bool
  | .null => true
  | .value (.object className) => host.isSubclass? className throwableClass != some false
  | _ => false

/-- The type of a declared variable: the one that has been settled, or the one as written. -/
def Declarator.fieldType (host : Host) (declarator : Declarator) : Except SourceError FieldType :=
  match declarator.typeName with
  | some name =>
    match FieldType.ofSourceName? name with
    | some type => .ok type
    | none => .error (notGenerated (.badTypeName name) (some declarator.position))
  | none => host.typeOf declarator.type

/-- The code of a declared variable. It gets the slot that has been settled, or the next one. -/
def Declarator.lower (site : Site) (declarator : Declarator) : EmitScoped Unit := do
  let type ← liftExcept (declarator.fieldType site.host)
  let next := (← get).1.maxLocals
  let slot := declarator.slot.getD next
  let last := slot.toNat + type.width
  if 65535 < last then throw (notGenerated .tooManyLocals (some declarator.position))
  EmitScoped.plain (modify (·.reserveLocals (UInt16.ofNat last)))
  match declarator.initial with
  | none => pure ()
  | some initial => EmitScoped.within fun scope => do
    let source ← (initial.lower site scope).value
    Emit.instrs (← liftExcept (site.host.coercion source type initial))
    Emit.instr (.store type.storage slot)
  EmitScoped.bind declarator.name slot type

/-- The code of `return`. -/
def lowerReturn (site : Site) (result : Option Expr) (position : Position) (scope : Scope) :
    Emit Unit := do
  match site.method.signature.result, result with
  | none, none => Emit.instr (.ret none)
  | none, some result => throw (mistyped .unexpectedResult (some result.position))
  | some _, none => throw (mistyped .missingResult (some position))
  | some type, some result =>
    let source ← (result.lower site scope).value
    Emit.instrs (← liftExcept (site.host.coercion source type result))
    Emit.instr (.ret (some type.storage))

/-- The code of `throw`. -/
def lowerThrow (site : Site) (thrown : Expr) (scope : Scope) : Emit Unit := do
  let type ← (thrown.lower site scope).value
  if !site.host.isThrowable type then
    throw (mistyped (.inconvertible type (.value (.object throwableClass))) (some thrown.position))
  Emit.instr .athrow

/-- A branch out of a loop, which has to be there. -/
def lowerJump (inLoop : Bool) (position : Position) : Emit Nat := do
  if !inLoop then throw (notGenerated .jumpOutsideLoop (some position))
  Emit.branch .always

/-- The updates of a `for` loop. -/
def lowerUpdates (site : Site) (scope : Scope) (updates : List Expr) : Emit Unit :=
  updates.forM fun update => do
    Emit.setDepth 0
    (update.lower site scope).effect

open EmitScoped in
mutual

/-- The code of a statement, and the branches that the loop around it has to land. -/
def Stmt.lower (site : Site) (inLoop : Bool) : Stmt → EmitScoped LoopExits
  | .declare _ declarators position => statement position do
    declarators.forM (·.lower site)
    return .none
  | .expression expression position => statement position do
    within fun scope => (expression.lower site scope).effect
    return .none
  | .branch test first none position => statement position do
    let whenFalse ← within fun scope => (test.lower site scope).branches false
    let exits ← first.lower site inLoop
    plain (Emit.landHere whenFalse)
    return exits
  | .branch test first (some second) position => statement position do
    let whenFalse ← within fun scope => (test.lower site scope).branches false
    let exits ← first.lower site inLoop
    let finish ← plain (Emit.branch .always)
    plain (Emit.landHere whenFalse)
    let others ← second.lower site inLoop
    plain (Emit.landHere [finish])
    return exits ++ others
  | .whileLoop test body position => statement position do
    let start ← plain Emit.here
    let whenFalse ← within fun scope => (test.lower site scope).branches false
    let exits ← body.lower site true
    plain do
      Emit.instr (.branch .always start)
      Emit.land exits.continues start
      Emit.landHere (whenFalse ++ exits.breaks)
    return .none
  | .doLoop body test position => statement position do
    let start ← plain Emit.here
    let exits ← body.lower site true
    let next ← plain Emit.here
    plain (Emit.setDepth 0)
    let whenTrue ← within fun scope => (test.lower site scope).branches true
    plain do
      Emit.land whenTrue start
      Emit.land exits.continues next
      Emit.landHere exits.breaks
    return .none
  | .forLoop start test updates body position => statement position do
    let _ ← lowerAll site inLoop start
    let first ← plain Emit.here
    plain (Emit.setDepth 0)
    let whenFalse ← match test with
      | some test => within fun scope => (test.lower site scope).branches false
      | none => pure []
    let exits ← body.lower site true
    let next ← plain Emit.here
    within fun scope => lowerUpdates site scope updates
    plain do
      Emit.instr (.branch .always first)
      Emit.land exits.continues next
      Emit.landHere (whenFalse ++ exits.breaks)
    return .none
  | .block body position => statement position (lowerAll site inLoop body)
  | .ret result position => statement position do
    within (lowerReturn site result position)
    return .none
  | .breakLoop position => statement position do
    return ⟨[← plain (lowerJump inLoop position)], []⟩
  | .continueLoop position => statement position do
    return ⟨[], [← plain (lowerJump inLoop position)]⟩
  | .throwing thrown position => statement position do
    within (lowerThrow site thrown)
    return .none
  | .empty position => statement position (return .none)

/-- The code of statements in order. -/
def lowerAll (site : Site) (inLoop : Bool) : List Stmt → EmitScoped LoopExits
  | [] => return .none
  | first :: rest => do
    let exits ← first.lower site inLoop
    let others ← lowerAll site inLoop rest
    return exits ++ others

end

namespace Generator

/-- One statement, and the generator and the scope behind it. -/
def emit (generator : Generator) (site : Site) (scope : Scope) (statement : Stmt) :
    Except SourceError Unit × Generator × Scope :=
  let (result, state) := (statement.lower site false).run.run (generator, scope)
  (result.map fun _ => (), state)

/-- Statements in order, up to the first error. -/
def generate (generator : Generator) (site : Site) (scope : Scope) :
    List Stmt → Except SourceError Unit × Generator × Scope
  | [] => (.ok (), generator, scope)
  | first :: rest =>
    match generator.emit site scope first with
    | (.ok (), generator, scope) => generate generator site scope rest
    | (.error error, generator, scope) => (.error error, generator, scope)

end Generator

end MethodPatch
