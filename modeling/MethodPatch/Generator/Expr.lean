/-
**Code for expressions.**

An expression is lowered in one of several ways, by what its surroundings want of it: its value on
the stack, a branch that depends on it, a place to store in, and so on. `Lowered` holds them all, and
`Expr.lower` makes them from the lowered operands. Types are checked on the way, in the order of
evaluation, and an error leaves the code before it in the generator.

| wanted | what is left |
|---|---|
| `value` | the value on the stack |
| `branches` | branches for one outcome of a condition; the other one goes on |
| `qualifier` | what stands in front of a point, on the stack if it is a value |
| `place` | the operands of a place to store in |
| `effect` | nothing |
| `append` | the operands of joined strings, appended to a builder |
-/

import MethodPatch.Generator.Member
import MethodPatch.Typing.Infer

namespace MethodPatch

/-- The ways in which an expression is lowered. -/
structure Lowered where
  value : Emit StaticType
  qualifier : Emit Qualifier
  branches : Bool → Emit (List Nat)
  place : Emit Place
  effect : Emit Unit
  append : Emit Unit

namespace Emit

/-- A `boolean` on the stack from branches that are taken when it is false. -/
def booleanOf (branches : Emit (List Nat)) : Emit StaticType := do
  let whenFalse ← branches
  let depth ← Emit.depth
  instr (.iconst 1)
  let finish ← branch .always
  landHere whenFalse
  setDepth depth
  instr (.iconst 0)
  landHere [finish]
  return .value .boolean

/-- A branch that depends on a `boolean` on the stack. -/
def branchOnValue (type : StaticType) (position : Position) (outcome : Bool) :
    Emit (List Nat) := do
  liftExcept (requireBoolean type position)
  return [← branch (.zero (if outcome then .ne else .eq))]

/-- Branches of two conditions. If either decides, both branch; otherwise the left one skips the
right one. -/
def branchesOf (op : LogicalOp) (left right : Bool → Emit (List Nat)) (outcome : Bool) :
    Emit (List Nat) := do
  if (op = .or) = outcome then
    let first ← left outcome
    let second ← right outcome
    return first ++ second
  else
    let skips ← left (!outcome)
    let jumps ← right outcome
    landHere skips
    return jumps

/-- The comparison of two numbers of a type on the stack, which branches when a relation holds that
is the wanted one or its opposite. A comparison with a not-a-number is false. -/
def compareNumbers (type : Numeric) (wanted taken : Comparison) : Emit Nat := do
  let isLess := wanted = .lt || wanted = .le
  match type with
  | .int => branch (.ints taken)
  | .long => instr (.compare .long); branch (.zero taken)
  | .float =>
    instr (.compare (if isLess then .floatGreater else .floatLess))
    branch (.zero taken)
  | .double =>
    instr (.compare (if isLess then .doubleGreater else .doubleLess))
    branch (.zero taken)

end Emit

namespace Lowered

/-- An expression that is nothing but a value. -/
def ofValue (position : Position) (value : Emit StaticType) : Lowered where
  value
  qualifier := return .value (← value)
  branches outcome := do Emit.branchOnValue (← value) position outcome
  place := throw (mistyped .notAssignable (some position))
  effect := do Emit.instrs (← value).drop
  append := do Emit.append (← value) position

/-- An expression that is a condition. -/
def ofCondition (position : Position) (branches : Bool → Emit (List Nat)) : Lowered :=
  { ofValue position (Emit.booleanOf (branches false)) with branches }

/-- A name or a member: a value unless it stands in front of a point. -/
def ofQualifier (position : Position) (unknown : String → ReferenceFault)
    (qualifier : Emit Qualifier) (place : Emit Place) : Lowered :=
  { ofValue position do liftExcept ((← qualifier).asValue unknown position) with qualifier, place }

/-- A `boolean` literal. -/
def boolean (position : Position) (value : Bool) : Lowered :=
  { ofValue position do
      Emit.literal (.boolean value)
      return .value .boolean
    with
      branches := fun outcome => do
        if value = outcome then return [← Emit.branch .always] else return [] }

/-- The array and the index of an element. -/
def elementPlace (array index : Lowered) (indexPosition position : Position) :
    Emit FieldType := do
  let type ← liftExcept (elementType (← array.value) position)
  liftExcept (requireInt (← index.value) indexPosition)
  return type

/-- An element of an array. -/
def element (array index : Lowered) (indexPosition position : Position) : Lowered :=
  { ofValue position do
      let type ← elementPlace array index indexPosition position
      Emit.read (.element type)
      return .value type
    with place := return .element (← elementPlace array index indexPosition position) }

/-- An argument, converted to the type of its parameter. -/
def argument (host : Host) (argument : Expr) (lowered : Lowered) (parameter : FieldType) :
    Emit Unit := do
  let type ← lowered.value
  Emit.instrs (← liftExcept (host.coercion type parameter argument))

/-- A value, converted to the type of the result of which it is one possibility. -/
def convertedTo (lowered : Lowered) (type : StaticType) : Emit Unit := do
  let source ← lowered.value
  match type with
  | .value target => Emit.instrs (source.conversion target)
  | _ => pure ()

/-- A comparison of two operands of known types. -/
def comparison (wanted : Comparison) (plan : ComparisonPlan) (right : Expr)
    (leftLowered rightLowered : Lowered) (outcome : Bool) : Emit Nat := do
  let taken := if outcome then wanted else wanted.negate
  match plan with
  | .leftWithNull =>
    let _ ← leftLowered.value
    Emit.branch (if taken = .eq then .null else .nonNull)
  | .rightWithNull =>
    let _ ← rightLowered.value
    Emit.branch (if taken = .eq then .null else .nonNull)
  | .identity =>
    let _ ← leftLowered.value
    let _ ← rightLowered.value
    Emit.branch (if taken = .eq then .same else .different)
  | .booleans =>
    let _ ← leftLowered.value
    let _ ← rightLowered.value
    Emit.branch (.ints taken)
  | .numbers type =>
    leftLowered.convertedTo (.value type.type)
    if type = .int ∧ right.intConstant? = some 0 then Emit.branch (.zero taken)
    else
      rightLowered.convertedTo (.value type.type)
      Emit.compareNumbers type wanted taken

/-- The value of an operator that computes. -/
def compute (plan : ComputePlan) (left right : Lowered) : Emit StaticType := do
  left.convertedTo (.value plan.result)
  right.convertedTo (.value plan.right)
  Emit.instr plan.instr
  return .value plan.result

/-- The string of operands that are joined. -/
def joined (left right : Lowered) : Emit StaticType := do
  Emit.emptyBuilder
  left.append
  right.append
  Emit.builtString
  return .value .string

/-- The value of an operator on one value. -/
def unary (op : UnaryOp) (operand : Lowered) (position : Position) : Emit StaticType := do
  let source ← operand.value
  let type ← liftExcept (unaryType op source position)
  Emit.instrs (source.conversion type.type)
  match op, type with
  | .minus, _ => Emit.instr (.neg type)
  | .complement, .long =>
    Emit.long (-1)
    Emit.instr (.bitwise .xor .long)
  | .complement, _ =>
    Emit.int (-1)
    Emit.instr (.bitwise .xor .int)
  | _, _ => pure ()
  return .value type.type

/-- Computes the new value of an assignment with an operator; the old one is on the stack. The type
of the right side is known. -/
def combine (op : ComputeOp) (target : FieldType) (valueType : StaticType)
    (value : Lowered) (position : Position) : Emit Unit := do
  if op = .arithmetic .add ∧ target.isString then
    Emit.builderOfString
    Emit.append (← value.value) position
    Emit.builtString
  else
    let plan ← liftExcept (computePlan op (.value target) valueType position)
    Emit.instrs (conversion target plan.result)
    value.convertedTo (.value plan.right)
    Emit.instr plan.instr
    Emit.instrs (conversion plan.result target)

/-- An assignment, with or without its value on the stack. `valueType` is the type of the right
side. -/
def assign (site : Site) (target : Lowered) (op : Option ComputeOp) (source : Expr)
    (valueType : Except SourceError StaticType) (value : Lowered) (position : Position)
    (wanted : Bool) : Emit StaticType := do
  let place ← target.place
  match op with
  | none =>
    let type ← value.value
    Emit.instrs (← liftExcept (site.host.coercion type place.type source))
  | some op =>
    Emit.instrs place.copyOperands
    Emit.read place
    value.combine op place.type (← liftExcept valueType) position
  if wanted then Emit.instr place.copyValue
  Emit.write place
  return .value place.type

/-- A variable that a constant is added to in place. -/
def increment (slot : Slot) (delta : Int16) (wanted : Bool) : Emit StaticType := do
  Emit.instr (.iinc slot delta)
  if wanted then Emit.instr (.load .int slot)
  return .value .int

/-- `++` or `--` of an `int` variable. The value that is wanted is the one before or after. -/
def updateVariable (op : UpdateOp) (before : Bool) (slot : Slot) (wanted : Bool) :
    Emit StaticType := do
  if wanted && !before then Emit.instr (.load .int slot)
  Emit.instr (.iinc slot (if op = .increment then 1 else -1))
  if wanted && before then Emit.instr (.load .int slot)
  return .value .int

/-- `++` or `--` of a place. -/
def update (op : UpdateOp) (before : Bool) (target : Lowered) (position : Position)
    (wanted : Bool) : Emit StaticType := do
  let place ← target.place
  let type ← liftExcept (updateType op place.type position)
  Emit.instrs place.copyOperands
  Emit.read place
  if wanted && !before then Emit.instr place.copyValue
  Emit.instrs (conversion place.type type.type)
  Emit.instr (oneOf type)
  Emit.instr (.arithmetic (if op = .increment then .add else .sub) type)
  Emit.instrs (conversion type.type place.type)
  if wanted && before then Emit.instr place.copyValue
  Emit.write place
  return .value place.type

/-- An expression that is lowered differently if its value is not wanted. -/
def ofWanted (position : Position) (value : Bool → Emit StaticType) : Lowered :=
  { ofValue position (value true) with effect := do let _ ← value false }

/-- A conditional whose branches have a common type. -/
def conditional (test first second : Lowered) (type : StaticType) : Emit StaticType := do
  let whenFalse ← test.branches false
  let depth ← Emit.depth
  first.convertedTo type
  let finish ← Emit.branch .always
  Emit.landHere whenFalse
  Emit.setDepth depth
  second.convertedTo type
  Emit.landHere [finish]
  return type

/-- A cast. -/
def cast (site : Site) (target : FieldType) (operand : Lowered) (position : Position) :
    Emit StaticType := do
  let source ← operand.value
  match site.host.castPlan? source target with
  | some (.convert instrs) => Emit.instrs instrs
  | some (.check className) => Emit.instr (.checkCast (← Emit.classConstant className))
  | none => throw (mistyped (.inconvertible source (.value target)) (some position))
  return .value target

/-- A test whether an object belongs to a class. -/
def instanceOf (target : FieldType) (operand : Lowered) (position : Position) :
    Emit StaticType := do
  let source ← operand.value
  match target.classConstant?, source.isReference with
  | some className, true => Emit.instr (.instanceOf (← Emit.classConstant className))
  | _, _ => throw (mistyped (.notTestable source target) (some position))
  return .value .boolean

/-- A new array of a length. -/
def newArray (element : FieldType) (length : Lowered) (lengthPosition : Position) :
    Emit StaticType := do
  liftExcept (requireInt (← length.value) lengthPosition)
  match element.primitiveElement?, element.classConstant? with
  | some primitive, _ => Emit.instr (.newArray primitive)
  | none, some className => Emit.instr (.anewArray (← Emit.classConstant className))
  | none, none => pure ()
  return .value (.array element)

/-- A call of a method that has been selected, with what its name stands behind and the code of its
arguments. -/
def call (site : Site) (method : MethodRef) (receiver : Receiver)
    (arguments : List FieldType → Emit Unit) : Emit StaticType := do
  if receiver = .implicit && !method.isStatic then Emit.this
  if receiver = .object && method.isStatic then Emit.instr (.stack .pop)
  arguments method.signature.parameters
  Emit.invoke (site.host.dispatch method) method
  return method.resultType

end Lowered

mutual

/-- The ways in which an expression is lowered. -/
def Expr.lower (site : Site) (scope : Scope) : Expr → Lowered
  | .literal (.boolean value) position => .boolean position value
  | .literal value position => .ofValue position do
    Emit.literal value
    return value.type
  | .name name position =>
    .ofQualifier position .unknownVariable (Emit.name site scope name position)
      (Emit.namePlace site scope name position)
  | .this position => .ofValue position do
    let type ← liftExcept (site.thisType "this" position)
    Emit.this
    return type
  | .member object name position =>
    .ofQualifier position .unknownName
      (do Emit.member site (← (object.lower site scope).qualifier) name position)
      (do Emit.memberPlace site (← (object.lower site scope).qualifier) name position)
  | .call none name arguments position => .ofValue position do
    let types ← liftExcept (argumentTypes site scope arguments)
    let method ←
      liftExcept (site.calledMethod site.method.className .implicit name types position)
    Lowered.call site method .implicit (lowerArguments site scope arguments)
  | .call (some callee) name arguments position => .ofValue position do
    let qualifier ← (callee.lower site scope).qualifier
    let (owner, receiver) ← liftExcept (qualifier.receiver callee.position)
    let types ← liftExcept (argumentTypes site scope arguments)
    let method ← liftExcept (site.calledMethod owner receiver name types position)
    Lowered.call site method receiver (lowerArguments site scope arguments)
  | .new type arguments position => .ofValue position do
    let className ← liftExcept (site.instantiated type position)
    let types ← liftExcept (argumentTypes site scope arguments)
    let method ← liftExcept (site.constructor className types position)
    Emit.newObject className
    lowerArguments site scope arguments method.signature.parameters
    Emit.invoke (site.host.dispatch method) method
    return .value (.object className)
  | .newArray element length position => .ofValue position do
    let element ← liftExcept (site.host.typeOf element)
    Lowered.newArray element (length.lower site scope) length.position
  | .index array index position =>
    .element (array.lower site scope) (index.lower site scope) index.position position
  | .assign target op value position => .ofWanted position fun wanted =>
    match site.intVariable? scope target, incrementBy? op value with
    | some slot, some delta => Lowered.increment slot delta wanted
    | _, _ =>
      Lowered.assign site (target.lower site scope) op value (value.staticType site scope)
        (value.lower site scope) position wanted
  | .update op before target position => .ofWanted position fun wanted =>
    match site.intVariable? scope target with
    | some slot => Lowered.updateVariable op before slot wanted
    | none => Lowered.update op before (target.lower site scope) position wanted
  | .unary .not operand position =>
    .ofCondition position fun outcome => (operand.lower site scope).branches (!outcome)
  | .unary op operand position =>
    .ofValue position (Lowered.unary op (operand.lower site scope) position)
  | .binary (.compare wanted) left right position => .ofCondition position fun outcome => do
    let leftType ← liftExcept (left.staticType site scope)
    let rightType ← liftExcept (right.staticType site scope)
    let plan ← liftExcept (comparisonPlan wanted leftType rightType position)
    return [← Lowered.comparison wanted plan right (left.lower site scope)
      (right.lower site scope) outcome]
  | .binary (.compute op) left right position =>
    let types : Except SourceError (StaticType × StaticType) := do
      return (← left.staticType site scope, ← right.staticType site scope)
    let value : Emit StaticType := do
      let (leftType, rightType) ← liftExcept types
      if joinsStrings op leftType rightType then
        Lowered.joined (left.lower site scope) (right.lower site scope)
      else
        let plan ← liftExcept (computePlan op leftType rightType position)
        Lowered.compute plan (left.lower site scope) (right.lower site scope)
    { Lowered.ofValue position value with
      append := do
        let (leftType, rightType) ← liftExcept types
        if joinsStrings op leftType rightType then
          (left.lower site scope).append
          (right.lower site scope).append
        else Emit.append (← value) position }
  | .logical op left right position =>
    .ofCondition position
      (Emit.branchesOf op (left.lower site scope).branches (right.lower site scope).branches)
  | .conditional test first second position => .ofValue position do
    let firstType ← liftExcept (first.staticType site scope)
    let secondType ← liftExcept (second.staticType site scope)
    let type ← liftExcept (site.host.conditionalType firstType secondType position)
    Lowered.conditional (test.lower site scope) (first.lower site scope)
      (second.lower site scope) type
  | .cast type operand position => .ofValue position do
    let target ← liftExcept (site.host.typeOf type)
    Lowered.cast site target (operand.lower site scope) position
  | .instanceOf operand type position => .ofValue position do
    let target ← liftExcept (site.host.typeOf type)
    Lowered.instanceOf target (operand.lower site scope) position

/-- The code of arguments, each converted to the type of its parameter. -/
def lowerArguments (site : Site) (scope : Scope) : List Expr → List FieldType → Emit Unit
  | first :: rest, parameter :: parameters => do
    Lowered.argument site.host first (first.lower site scope) parameter
    lowerArguments site scope rest parameters
  | _, _ => pure ()

end

end MethodPatch
