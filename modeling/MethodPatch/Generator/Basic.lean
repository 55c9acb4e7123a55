/-
**Generating instructions.**

A generator holds a body under construction, the number of local variable slots in use and the place
in the source text that instructions are made from. Generating either goes on or stops with an
error; what was generated before the error stays in the generator. A branch whose target is not
known yet goes to instruction zero until it is landed.

* `Emit.instr`: one instruction;
* `Emit.branch`, `Emit.land`: a branch, and its target later on;
* `Emit.constant`: a constant of the pool.
-/

import MethodPatch.Code.Body
import MethodPatch.Source.SourceError
import MethodPatch.Host.Basic

namespace MethodPatch

/-- A body under construction. -/
structure Generator where
  body : Body
  maxLocals : UInt16
  position : Option Position
  deriving DecidableEq

namespace Generator

/-- A generator without instructions for a method, over the constants of its class. -/
def ofPool (method : MethodContext) (pool : Pool) : Generator :=
  ⟨.ofPool pool, method.firstFreeSlot, none⟩

/-- The generator with slots up to a count in use. -/
def reserveLocals (generator : Generator) (count : UInt16) : Generator :=
  { generator with maxLocals := max generator.maxLocals count }

/-- The generator without its instructions; the constants stay. -/
def reset (generator : Generator) (method : MethodContext) : Generator :=
  ofPool method generator.body.pool

end Generator

/-- Generating: an answer or an error, and the generator as it is then. -/
abbrev Emit := ExceptT SourceError (StateM Generator)

namespace Emit

/-- One instruction, made from the current place. -/
def instr (instr : Instr) : Emit Unit :=
  modify fun generator => { generator with body := generator.body.emit instr generator.position }

/-- Instructions in order. -/
def instrs (instrs : List Instr) : Emit Unit := instrs.forM instr

/-- The index of the next instruction. -/
def here : Emit Nat := return (← get).body.size

/-- The depth of the operand stack. -/
def depth : Emit Nat := return (← get).body.depth

/-- Goes on with another depth of the operand stack. -/
def setDepth (depth : Nat) : Emit Unit :=
  modify fun generator => { generator with body := generator.body.withDepth depth }

/-- A branch whose target is not known yet, by its index. -/
def branch (test : Test) : Emit Nat := do
  let index ← here
  instr (.branch test 0)
  return index

/-- Branches get their target. -/
def land (branches : List Nat) (target : Nat) : Emit Unit :=
  modify fun generator =>
    { generator with body := branches.foldl (·.retarget · target) generator.body }

/-- Branches go to the next instruction. -/
def landHere (branches : List Nat) : Emit Unit := do land branches (← here)

/-- Code that cannot be generated, at the current place. -/
def fail {α : Type} (fault : InternalFault) : Emit α := do
  throw (notGenerated fault (← get).position)

/-- The index of a constant, which is added to the pool. -/
def constant (add : Pool.Adding PoolIndex) : Emit PoolIndex := do
  let generator ← get
  let (index, pool) := add.run.run generator.body.pool
  set { generator with body := { generator.body with pool } }
  match index with
  | .ok index => return index
  | .error error => fail (.pool error)

/-- A class constant. -/
def classConstant (name : String) : Emit PoolIndex := constant (Pool.addClass name)

end Emit

end MethodPatch
