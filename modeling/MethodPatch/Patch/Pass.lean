/-
**Compiling a patch.**

A pass reads the text of a patch and compiles its statements into a fragment.

* `Fragment.hex`: the code as pairs of hexadecimal digits;
* `adopt`: variables of the surrounding scope keep their slots;
* `Pass.place`: the slots of the variables that a statement declares;
* `Generation.compile`: a pass from the text to the fragment.
-/

import MethodPatch.Class.Pool
import MethodPatch.Locals.Allocator
import MethodPatch.Locals.Basic
import MethodPatch.Patch.Generation
import MethodPatch.Syntax.Parse.Stmt

namespace MethodPatch

/-! ### Compiled patches

A fragment is the code of one pass, what the method needs to run it, and the locals and constants
that come with it. -/

/-- Locals in the order of their slots. -/
def Local.snapshot (entries : List Local) : List Local :=
  entries.mergeSort fun first second => decide (first.slot ≤ second.slot)

/-- The code of a pass, the locals it introduced, the slots and the stack that it needs, the
constants of the class, and the lines of the source text by byte offset. -/
structure Fragment where
  code : List UInt8
  introduced : List Local
  maxLocals : UInt16
  maxStack : Nat
  pool : Pool
  lines : List (Nat × Nat)
  deriving DecidableEq

/-- Two hexadecimal digits. -/
def hexByte (byte : UInt8) : String :=
  String.ofList [Nat.digitChar (byte.toNat / 16), Nat.digitChar (byte.toNat % 16)]

namespace Fragment

/-- The code as pairs of hexadecimal digits with blanks between them. -/
def hex (fragment : Fragment) : String := String.intercalate " " (fragment.code.map hexByte)

/-- The constants that were added to the class. -/
def newConstants (fragment : Fragment) : List (Nat × Constant) :=
  fragment.pool.entriesFrom fragment.pool.reserved

end Fragment

/-! ### Compiling the statements of a patch

A pass reads the text of a patch and goes through its statements. Each variable that a statement
declares gets a slot: the one it has, if its name is known, or else new ones. Then the statement is
generated. A statement that fails gives back the slots it took and ends the pass; what was done
before it stays. -/

/-! ### Variables of the surrounding scope -/

/-- Variables of tables from the inside out, each name where it comes up first. -/
def nearest (seen : List String) : List Symbol → List Symbol
  | [] => []
  | first :: rest =>
    if first.name ∈ seen then nearest seen rest else first :: nearest (first.name :: seen) rest

/-- The local of a variable, if it is bound. -/
def Symbol.local? (symbol : Symbol) : Option Local :=
  symbol.binding?.map fun (slot, type) => ⟨symbol.name, slot, type⟩

/-- Locals that an allocator does not know by name are registered in order. What was registered
before an error stays. -/
def registerUnknown (allocator : Allocator) : List Local → Except PatchError Unit × Allocator
  | [] => (.ok (), allocator)
  | entry :: rest =>
    if (allocator.find? entry.name).isSome then registerUnknown allocator rest
    else
      match allocator.register entry with
      | .ok allocator => registerUnknown allocator rest
      | .error error => (.error error, allocator)

/-- The bound variables of a scope keep their slots. Of a name in several tables only the innermost
variable counts, and only if it is bound. -/
def adopt (roots : Scope) (allocator : Allocator) : Except PatchError Unit × Allocator :=
  registerUnknown allocator ((nearest [] roots.tables.flatten).filterMap Symbol.local?)

/-! ### Slots of declared variables -/

/-- The state while slots are given out: the allocator and the locals that are new. -/
abbrev Placing := ExceptT PatchError (StateM (Allocator × List Local))

/-- The local for a declared name. A known name keeps its slot; a strict pass refuses it a type that
is stored in another way. -/
def placeLocal (strict : Bool) (declarator : Declarator) (declared : FieldType) :
    Placing Local := do
  let (allocator, fresh) ← get
  match allocator.find? declarator.name with
  | some existing =>
    if strict ∧ existing.type.storage ≠ declared.storage then
      throw (.storageChanged declarator.name existing.slot existing.type declared
        (some declarator.position))
    return existing
  | none =>
    match allocator.allocate declarator.name declared with
    | .error error => throw error
    | .ok (entry, allocator) =>
      set (allocator, fresh ++ [entry])
      return entry

/-- The declarator with its slot and with the name of the type that the slot holds. -/
def placeDeclarator (strict : Bool) (host : Host) (declarator : Declarator) :
    Placing Declarator := do
  match host.typeOf declarator.type with
  | .error error => throw (.notCompiled (error.orAt (some declarator.position)))
  | .ok declared =>
    let entry ← placeLocal strict declarator declared
    return { declarator with slot := some entry.slot, typeName := some entry.type.sourceName }

/-! ### Statements in order -/

/-- The state of a pass: the allocator, the generation, the scope that the statements share, and
the new locals in the order of their declarations. -/
structure Pass where
  allocator : Allocator
  generation : Generation
  scope : Scope
  fresh : List Local

namespace Pass

/-- The statement with its variables placed, and the pass behind it. -/
def place (strict : Bool) (pass : Pass) (statement : Stmt) : Except PatchError Stmt × Pass :=
  let placing : Placing Stmt :=
    statement.mapDeclared (placeDeclarator strict pass.generation.site.host)
  let ⟨allocator, generation, scope, fresh⟩ := pass
  let (placed, allocator, fresh) := placing.run.run (allocator, fresh)
  (placed, ⟨allocator, generation, scope, fresh⟩)

/-- One statement, placed and generated. -/
def attempt (strict : Bool) (pass : Pass) (statement : Stmt) : Except PatchError Unit × Pass :=
  match pass.place strict statement with
  | (.error error, pass) => (.error error, pass)
  | (.ok placed, ⟨allocator, generation, scope, fresh⟩) =>
    let (result, generation, scope) :=
      (generation.reserveLocals allocator.count).emit scope placed
    (result.mapError fun error => .notCompiled (error.orAt (some placed.position)),
      ⟨allocator, generation, scope, fresh⟩)

/-- One statement. If it fails, the slots it took are given back and the generation has failed. -/
def step (strict : Bool) (pass : Pass) (statement : Stmt) : Except PatchError Unit × Pass :=
  let mark := pass.allocator.mark
  let fresh := pass.fresh
  match pass.attempt strict statement with
  | (.ok (), later) => (.ok (), later)
  | (.error error, later) =>
    (.error error,
      { later with
        allocator := later.allocator.rollback mark
        generation := later.generation.fail
        fresh })

/-- Statements in order, up to the first that fails. -/
def run (strict : Bool) (pass : Pass) : List Stmt → Except PatchError Unit × Pass
  | [] => (.ok (), pass)
  | first :: rest =>
    match pass.step strict first with
    | (.ok (), later) => run strict later rest
    | (.error error, later) => (.error error, later)

/-- The fragment of a pass that came to its end. -/
def fragment (pass : Pass) : Except PatchError Fragment :=
  pass.generation.extract.map fun code =>
    let generator := pass.generation.generator
    { code
      introduced := Local.snapshot pass.fresh
      maxLocals := max pass.allocator.count generator.maxLocals
      maxStack := generator.body.maxStack
      pool := generator.body.pool
      lines := generator.body.lineTable }

end Pass

/-- A pass over the text of a patch inside of a scope: the fragment or the first error, and the
allocator and the generation behind it. -/
def Generation.compile (generation : Generation) (strict : Bool) (roots : Scope)
    (allocator : Allocator) (source : String) :
    Except PatchError Fragment × Allocator × Generation :=
  match Stmt.parse source with
  | (.error error, _) => (.error (.malformed error), allocator, generation)
  | (.ok statements, declared) =>
    match adopt roots allocator with
    | (.error error, allocator) => (.error error, allocator, generation)
    | (.ok (), allocator) =>
      let start : Pass :=
        { allocator
          generation := generation.begin.reserveLocals allocator.count
          scope := roots.inside.declareAll declared
          fresh := [] }
      match start.run strict statements with
      | (.error error, pass) => (.error error, pass.allocator, pass.generation)
      | (.ok (), pass) =>
        let finished := { pass with generation := pass.generation.finish }
        (finished.fragment, finished.allocator, finished.generation)

end MethodPatch
