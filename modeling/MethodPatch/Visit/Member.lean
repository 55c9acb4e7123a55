/-
**Visiting constants, members, places and calls.**

The type of an expression is found by the same visit that generates its code. Its steps either
generate or only probe.

* `Visit.unlessProbing`: a step of generating that is left out while probing;
* `Visit.probe`: what a visit answers while probing.
-/

import MethodPatch.Generator.Stmt

namespace MethodPatch

/-! ### Visiting: generating code or only probing

The type of an expression is found by the same visit that generates its code. While a visitor probes,
each step that would add to the code is left out: it answers, and nothing else. Probes nest; each one
leaves the visitor generating or probing as it was before. -/

/-- A generator with the loops around the current place, whose branches have no target yet, and
whether it only probes. -/
structure Visitor where
  generator : Generator
  loops : List LoopExits
  probing : Bool

/-- Visiting: an answer or an error, and the visitor as it is then. -/
abbrev Visit := ExceptT SourceError (StateM Visitor)

namespace Visit

variable {α : Type}

/-- A step of generating, which is left out while probing: then it gives the answer `inert`. -/
def unlessProbing (inert : α) (step : Emit α) : Visit α := fun visitor =>
  if visitor.probing then (.ok inert, visitor)
  else
    let (result, generator) := step visitor.generator
    (result, { visitor with generator })

/-- What a visit answers while probing. -/
def probe (visit : Visit α) : Visit α := fun visitor =>
  let (result, after) := visit { visitor with probing := true }
  (result, { after with probing := visitor.probing })

/-- Whether the visitor only probes. -/
def isProbing : Visit Bool := return (← get).probing

/-- One instruction, made from the current place. -/
def instr (instr : Instr) : Visit Unit := unlessProbing () (Emit.instr instr)

/-- Instructions in order. -/
def instrs (instrs : List Instr) : Visit Unit := instrs.forM instr

/-- The index of the next instruction. -/
def here : Visit Nat := return (← get).generator.body.size

/-- The depth of the operand stack. -/
def depth : Visit Nat := return (← get).generator.body.depth

/-- Goes on with another depth of the operand stack. -/
def setDepth (depth : Nat) : Visit Unit := unlessProbing () (Emit.setDepth depth)

/-- A branch whose target is not known yet, by its index. -/
def branch (test : Test) : Visit Nat := do
  let index ← here
  instr (.branch test 0)
  return index

/-- Branches get their target. -/
def land (branches : List Nat) (target : Nat) : Visit Unit :=
  unlessProbing () (Emit.land branches target)

/-- Branches go to the next instruction. -/
def landHere (branches : List Nat) : Visit Unit := do land branches (← here)

/-- Code that cannot be generated, at the current place. -/
def fail (fault : InternalFault) : Visit α := do
  throw (notGenerated fault (← get).generator.position)

/-- The index of a constant, which is added to the pool unless the visitor only probes. -/
def constant (add : Pool.Adding PoolIndex) : Visit PoolIndex := unlessProbing 0 (Emit.constant add)

/-- A class constant. -/
def classConstant (name : String) : Visit PoolIndex := constant (Pool.addClass name)

end Visit

/-! ### Visiting constants, members, places and calls

The steps that an expression is visited in: constants, reads and writes of places, calls, and the
operands of joined strings. They check what generating checks, also while probing. -/

namespace Visit

/-! ### Constants -/

/-- A number: by its own instruction or else from the pool. -/
def number (small : Option Instr) (load : PoolIndex → Instr) (value : Constant) : Visit Unit := do
  match small with
  | some instr => Visit.instr instr
  | none => Visit.instr (load (← constant (Pool.insert value)))

/-- An `int`. -/
def int (value : Int32) : Visit Unit := number (smallInt? value) .ldc (.integer value)

/-- A `long`. -/
def long (value : Int64) : Visit Unit := number (smallLong? value) .ldc2 (.long value)

/-- A `float`, by its bits. -/
def float (bits : UInt32) : Visit Unit := number (smallFloat? bits) .ldc (.float bits)

/-- A `double`, by its bits. -/
def double (bits : UInt64) : Visit Unit := number (smallDouble? bits) .ldc2 (.double bits)

/-- A literal. -/
def literal : Literal → Visit Unit
  | .int value => int value
  | .long value => long value
  | .float bits => float bits
  | .double bits => double bits
  | .char unit => int (Int32.ofNat unit.toNat)
  | .boolean value => instr (.iconst (if value then 1 else 0))
  | .string text => do instr (.ldc (← constant (Pool.addString text)))
  | .null => instr .aconstNull

/-! ### Places and calls -/

/-- The object of the method. -/
def this : Visit Unit := instr (.load .ref 0)

/-- An access to a field: through a class if it is static, else through an object. -/
def field (ofClass ofObject : FieldAccess) (field : FieldRef) : Visit Unit := do
  let index ← constant (Pool.addField field.owner field.name field.type.descriptor)
  let access := if field.isStatic then ofClass else ofObject
  instr (.field access index (UInt8.ofNat field.type.width))

/-- Reads a field. The object of an instance field is on the stack. -/
def readField : FieldRef → Visit Unit := field .getStatic .getField

/-- Reads the value in a place. -/
def read : Place → Visit Unit
  | .variable slot type => instr (.load type.storage slot)
  | .field field => readField field
  | .element type => instr (.arrayLoad type.element)

/-- Stores the value on the stack in a place. -/
def write : Place → Visit Unit
  | .variable slot type => instr (.store type.storage slot)
  | .field found => field .putStatic .putField found
  | .element type => instr (.arrayStore type.element)

/-- Calls a method. Its arguments are on the stack. -/
def invoke (dispatch : Dispatch) (method : MethodRef) : Visit Unit := do
  let add := if dispatch = .interface then Pool.addInterfaceMethod else Pool.addMethod
  let index ← constant (add method.owner method.name method.signature.descriptor)
  let slots := method.signature.parameterSlots
  if 255 < slots then fail .tooManyArguments
  instr (.invoke dispatch index slots.toUInt8 (UInt8.ofNat method.signature.resultSlots))

/-- A new object of a class, before its constructor is called, twice on the stack. -/
def newObject (className : String) : Visit Unit := do
  instr (.new (← classConstant className))
  instr (.stack .dup)

/-! ### Names -/

/-- What a simple name stands for: its value, or nothing if it is a package or a class. -/
def name (site : Site) (scope : Scope) (name : String) (position : Position) : Visit Qualifier := do
  match site.nameUse? scope name with
  | some (.variable slot type) =>
    instr (.load type.storage slot)
    return .value (.value type)
  | some (.field field) =>
    liftExcept (site.checkImplicit field field.name position)
    if !field.isStatic then this
    readField field
    return .value (.value field.type)
  | some (.classRef className) => return .classRef className
  | none => return .package name

/-- A member of what stands in front of a point, which is on the stack if it is a value. -/
def member (site : Site) (qualifier : Qualifier) (name : String) (position : Position) :
    Visit Qualifier := do
  let member ← liftExcept (site.member qualifier name position)
  match member with
  | .package _ | .classRef _ => pure ()
  | .length => instr .arrayLength
  | .field field dropsValue =>
    if dropsValue then instr (.stack .pop)
    readField field
  return member.qualifier

/-- The place that a simple name is. -/
def namePlace (site : Site) (scope : Scope) (name : String) (position : Position) :
    Visit Place := do
  let place ← liftExcept (site.namePlace scope name position)
  if place.operands = 1 then this
  return place

/-- The place that a member of what stands in front of a point is. -/
def memberPlace (site : Site) (qualifier : Qualifier) (name : String) (position : Position) :
    Visit Place := do
  let (field, dropsValue) ← liftExcept (site.memberPlace qualifier name position)
  if dropsValue then instr (.stack .pop)
  return .field field

/-! ### Joined strings -/

/-- A new builder that holds nothing. -/
def emptyBuilder : Visit Unit := do
  newObject builderClass
  invoke .special (builderMethod constructorName [] none)

/-- A new builder in place of the string on the stack, which it starts with. -/
def builderOfString : Visit Unit := do
  invoke .static valueOfMethod
  instr (.new (← classConstant builderClass))
  instrs [.stack .dupX1, .stack .swap]
  invoke .special (builderMethod constructorName [.string] none)

/-- Appends the value on the stack to the builder beneath it. -/
def append (type : StaticType) (position : Position) : Visit Unit := do
  match appendedType? type with
  | none => throw (mistyped .voidOperand (some position))
  | some parameter =>
    invoke .virtual (builderMethod "append" [parameter] (some (.object builderClass)))

/-- The string of the builder on the stack. -/
def builtString : Visit Unit := invoke .virtual (builderMethod "toString" [] (some .string))

/-! ### Conditions -/

/-- A `boolean` on the stack from branches that are taken when it is false. -/
def booleanOf (branches : Visit (List Nat)) : Visit StaticType := do
  let whenFalse ← branches
  let depth ← Visit.depth
  instr (.iconst 1)
  let finish ← branch .always
  landHere whenFalse
  setDepth depth
  instr (.iconst 0)
  landHere [finish]
  return .value .boolean

/-- A branch that depends on a `boolean` on the stack. -/
def branchOnValue (type : StaticType) (position : Position) (outcome : Bool) :
    Visit (List Nat) := do
  liftExcept (requireBoolean type position)
  return [← branch (.zero (if outcome then .ne else .eq))]

/-- Branches of two conditions. If either decides, both branch; otherwise the left one skips the
right one. -/
def branchesOf (op : LogicalOp) (left right : Bool → Visit (List Nat)) (outcome : Bool) :
    Visit (List Nat) := do
  if (op = .or) = outcome then
    let first ← left outcome
    let second ← right outcome
    return first ++ second
  else
    let skips ← left (!outcome)
    let jumps ← right outcome
    landHere skips
    return jumps

/-- The comparison of two numbers of a type on the stack, which branches when a relation holds that
is the wanted one or its opposite. A comparison with a not-a-number is false. -/
def compareNumbers (type : Numeric) (wanted taken : Comparison) : Visit Nat := do
  let isLess := wanted = .lt || wanted = .le
  match type with
  | .int => branch (.ints taken)
  | .long => instr (.compare .long); branch (.zero taken)
  | .float =>
    instr (.compare (if isLess then .floatGreater else .floatLess))
    branch (.zero taken)
  | .double =>
    instr (.compare (if isLess then .doubleGreater else .doubleLess))
    branch (.zero taken)

end Visit

end MethodPatch
