/-
**Visiting expressions.**

`Expr.visit` visits an expression in each of the ways in which its surroundings use it. One visit
serves two ends: it generates the code of the expression, or it only probes for its type. Where the
type is known before the code is, a probing visit ends there; types of operands are found by probes
on the way, whatever the visit is for.

* `Visited`: the ways in which an expression is visited;
* `Expr.visit`: the visit of an expression;
* `Expr.expressionType`, `Generator.expressionType`: its type, found by a probe.
-/

import MethodPatch.Visit.Member

namespace MethodPatch

/-- The ways in which an expression is visited: for its value, for what stands in front of a point,
for branches that depend on it, for a place to store in, or as an operand of joined strings. -/
structure Visited where
  value : Visit StaticType
  qualifier : Visit Qualifier
  branches : Bool → Visit (List Nat)
  place : Visit Place
  append : Visit Unit

namespace Visited

/-! ### Shapes -/

/-- An expression that is nothing but a value. -/
def ofValue (position : Position) (value : Visit StaticType) : Visited where
  value
  qualifier := return .value (← value)
  branches outcome := do Visit.branchOnValue (← value) position outcome
  place := throw (mistyped .notAssignable (some position))
  append := do Visit.append (← value) position

/-- An expression that is a condition. -/
def ofCondition (position : Position) (branches : Bool → Visit (List Nat)) : Visited :=
  { ofValue position (Visit.booleanOf (branches false)) with branches }

/-- A name or a member: a value unless it stands in front of a point. -/
def ofQualifier (position : Position) (unknown : String → ReferenceFault)
    (qualifier : Visit Qualifier) (place : Visit Place) : Visited :=
  { ofValue position do liftExcept ((← qualifier).asValue unknown position) with qualifier, place }

/-- A `boolean` literal. -/
def boolean (position : Position) (value : Bool) : Visited :=
  { ofValue position do
      Visit.literal (.boolean value)
      return .value .boolean
    with
      branches := fun outcome => do
        if value = outcome then return [← Visit.branch .always] else return [] }

/-- The array and the index of an element. -/
def elementPlace (array index : Visited) (indexPosition position : Position) : Visit FieldType := do
  let type ← liftExcept (elementType (← array.value) position)
  liftExcept (requireInt (← index.value) indexPosition)
  return type

/-- An element of an array. -/
def element (array index : Visited) (indexPosition position : Position) : Visited :=
  { ofValue position do
      let type ← elementPlace array index indexPosition position
      Visit.read (.element type)
      return .value type
    with place := return .element (← elementPlace array index indexPosition position) }

/-! ### Operands -/

/-- An argument, converted to the type of its parameter. -/
def argument (host : Host) (argument : Expr) (visited : Visited) (parameter : FieldType) :
    Visit Unit := do
  let type ← visited.value
  Visit.instrs (← liftExcept (host.coercion type parameter argument))

/-- A value, converted to the type of the result of which it is one possibility. -/
def convertedTo (visited : Visited) (type : StaticType) : Visit Unit := do
  let source ← visited.value
  match type with
  | .value target => Visit.instrs (source.conversion target)
  | _ => pure ()

/-! ### Operators -/

/-- A comparison of two operands of known types. -/
def comparison (wanted : Comparison) (plan : ComparisonPlan) (right : Expr)
    (leftVisited rightVisited : Visited) (outcome : Bool) : Visit Nat := do
  let taken := if outcome then wanted else wanted.negate
  match plan with
  | .leftWithNull =>
    let _ ← leftVisited.value
    Visit.branch (if taken = .eq then .null else .nonNull)
  | .rightWithNull =>
    let _ ← rightVisited.value
    Visit.branch (if taken = .eq then .null else .nonNull)
  | .identity =>
    let _ ← leftVisited.value
    let _ ← rightVisited.value
    Visit.branch (if taken = .eq then .same else .different)
  | .booleans =>
    let _ ← leftVisited.value
    let _ ← rightVisited.value
    Visit.branch (.ints taken)
  | .numbers type =>
    leftVisited.convertedTo (.value type.type)
    if type = .int ∧ right.intConstant? = some 0 then Visit.branch (.zero taken)
    else
      rightVisited.convertedTo (.value type.type)
      Visit.compareNumbers type wanted taken

/-- A relation. A probe needs the types of the operands only. -/
def relation (wanted : Comparison) (right : Expr) (leftVisited rightVisited : Visited)
    (position : Position) (outcome : Bool) : Visit (List Nat) := do
  let leftType ← Visit.probe leftVisited.value
  let rightType ← Visit.probe rightVisited.value
  let plan ← liftExcept (comparisonPlan wanted leftType rightType position)
  if ← Visit.isProbing then return []
  else return [← comparison wanted plan right leftVisited rightVisited outcome]

/-- The string of operands that are joined. A probe does not look at them. -/
def joined (left right : Visited) : Visit StaticType := do
  if ← Visit.isProbing then return .value .string
  else
    Visit.emptyBuilder
    left.append
    right.append
    Visit.builtString
    return .value .string

/-- The value of an operator that computes. A probe needs the types of the operands only. -/
def compute (plan : ComputePlan) (left right : Visited) : Visit StaticType := do
  if ← Visit.isProbing then return .value plan.result
  else
    left.convertedTo (.value plan.result)
    right.convertedTo (.value plan.right)
    Visit.instr plan.instr
    return .value plan.result

/-- An operator on two values. -/
def binary (op : ComputeOp) (left right : Visited) (position : Position) : Visit StaticType := do
  let leftType ← Visit.probe left.value
  let rightType ← Visit.probe right.value
  if joinsStrings op leftType rightType then joined left right
  else
    let plan ← liftExcept (computePlan op leftType rightType position)
    compute plan left right

/-- An operator on two values as an operand of joined strings: one that joins strings itself is
appended by appending its operands. -/
def appendBinary (op : ComputeOp) (left right : Visited) (position : Position) : Visit Unit := do
  let leftType ← Visit.probe left.value
  let rightType ← Visit.probe right.value
  if joinsStrings op leftType rightType then
    left.append
    right.append
  else Visit.append (← binary op left right position) position

/-- The value of an operator on one value. -/
def unary (op : UnaryOp) (operand : Visited) (position : Position) : Visit StaticType := do
  let source ← operand.value
  let type ← liftExcept (unaryType op source position)
  Visit.instrs (source.conversion type.type)
  match op, type with
  | .minus, _ => Visit.instr (.neg type)
  | .complement, .long =>
    Visit.long (-1)
    Visit.instr (.bitwise .xor .long)
  | .complement, _ =>
    Visit.int (-1)
    Visit.instr (.bitwise .xor .int)
  | _, _ => pure ()
  return .value type.type

/-! ### Places -/

/-- Computes the new value of an assignment with an operator; the old one is on the stack. -/
def combine (op : ComputeOp) (target : FieldType) (value : Visited) (position : Position) :
    Visit Unit := do
  let valueType ← Visit.probe value.value
  if op = .arithmetic .add ∧ target.isString then
    Visit.builderOfString
    Visit.append (← value.value) position
    Visit.builtString
  else
    let plan ← liftExcept (computePlan op (.value target) valueType position)
    Visit.instrs (conversion target plan.result)
    value.convertedTo (.value plan.right)
    Visit.instr plan.instr
    Visit.instrs (conversion plan.result target)

/-- The value of an assignment. -/
def assign (site : Site) (target : Visited) (op : Option ComputeOp) (source : Expr)
    (value : Visited) (position : Position) : Visit StaticType := do
  let place ← target.place
  match op with
  | none =>
    let type ← value.value
    Visit.instrs (← liftExcept (site.host.coercion type place.type source))
  | some op =>
    Visit.instrs place.copyOperands
    Visit.read place
    value.combine op place.type position
  Visit.instr place.copyValue
  Visit.write place
  return .value place.type

/-- The value of a variable that a constant is added to in place. -/
def increment (slot : Slot) (delta : Int16) : Visit StaticType := do
  Visit.instr (.iinc slot delta)
  Visit.instr (.load .int slot)
  return .value .int

/-- `++` or `--` of an `int` variable: its value before or after. -/
def updateVariable (op : UpdateOp) (before : Bool) (slot : Slot) : Visit StaticType := do
  if !before then Visit.instr (.load .int slot)
  Visit.instr (.iinc slot (if op = .increment then 1 else -1))
  if before then Visit.instr (.load .int slot)
  return .value .int

/-- `++` or `--` of a place. -/
def update (op : UpdateOp) (before : Bool) (target : Visited) (position : Position) :
    Visit StaticType := do
  let place ← target.place
  let type ← liftExcept (updateType op place.type position)
  Visit.instrs place.copyOperands
  Visit.read place
  if !before then Visit.instr place.copyValue
  Visit.instrs (conversion place.type type.type)
  Visit.instr (oneOf type)
  Visit.instr (.arithmetic (if op = .increment then .add else .sub) type)
  Visit.instrs (conversion type.type place.type)
  if before then Visit.instr place.copyValue
  Visit.write place
  return .value place.type

/-! ### Conditionals, casts and calls -/

/-- A conditional. The types of its branches are found first; a probe needs no more than these and
the condition. -/
def conditional (site : Site) (test first second : Visited) (position : Position) :
    Visit StaticType := do
  let firstType ← Visit.probe first.value
  let secondType ← Visit.probe second.value
  let type ← liftExcept (site.host.conditionalType firstType secondType position)
  let whenFalse ← test.branches false
  if ← Visit.isProbing then return type
  else
    let depth ← Visit.depth
    first.convertedTo type
    let finish ← Visit.branch .always
    Visit.landHere whenFalse
    Visit.setDepth depth
    second.convertedTo type
    Visit.landHere [finish]
    return type

/-- A cast. -/
def cast (site : Site) (target : FieldType) (operand : Visited) (position : Position) :
    Visit StaticType := do
  let source ← operand.value
  match site.host.castPlan? source target with
  | some (.convert instrs) => Visit.instrs instrs
  | some (.check className) => Visit.instr (.checkCast (← Visit.classConstant className))
  | none => throw (mistyped (.inconvertible source (.value target)) (some position))
  return .value target

/-- A test whether an object belongs to a class. -/
def instanceOf (target : FieldType) (operand : Visited) (position : Position) :
    Visit StaticType := do
  let source ← operand.value
  match target.classConstant?, source.isReference with
  | some className, true => Visit.instr (.instanceOf (← Visit.classConstant className))
  | _, _ => throw (mistyped (.notTestable source target) (some position))
  return .value .boolean

/-- A new array of a length. -/
def newArray (element : FieldType) (length : Visited) (lengthPosition : Position) :
    Visit StaticType := do
  liftExcept (requireInt (← length.value) lengthPosition)
  match element.primitiveElement?, element.classConstant? with
  | some primitive, _ => Visit.instr (.newArray primitive)
  | none, some className => Visit.instr (.anewArray (← Visit.classConstant className))
  | none, none => pure ()
  return .value (.array element)

/-- A call of a method that has been selected, with what its name stands behind and the code of its
arguments. A probe needs the method only. -/
def call (site : Site) (method : MethodRef) (receiver : Receiver)
    (arguments : List FieldType → Visit Unit) : Visit StaticType := do
  if ← Visit.isProbing then return method.resultType
  else
    if receiver = .implicit && !method.isStatic then Visit.this
    if receiver = .object && method.isStatic then Visit.instr (.stack .pop)
    arguments method.signature.parameters
    Visit.invoke (site.host.dispatch method) method
    return method.resultType

/-- A new object that is made by a constructor. A probe needs its class only. -/
def new (site : Site) (className : String) (method : MethodRef)
    (arguments : List FieldType → Visit Unit) : Visit StaticType := do
  if ← Visit.isProbing then return .value (.object className)
  else
    Visit.newObject className
    arguments method.signature.parameters
    Visit.invoke (site.host.dispatch method) method
    return .value (.object className)

end Visited

mutual

/-- The ways in which an expression is visited. -/
def Expr.visit (site : Site) (scope : Scope) : Expr → Visited
  | .literal (.boolean value) position => .boolean position value
  | .literal value position => .ofValue position do
    Visit.literal value
    return value.type
  | .name name position =>
    .ofQualifier position .unknownVariable (Visit.name site scope name position)
      (Visit.namePlace site scope name position)
  | .this position => .ofValue position do
    let type ← liftExcept (site.thisType "this" position)
    Visit.this
    return type
  | .member object name position =>
    .ofQualifier position .unknownName
      (do Visit.member site (← (object.visit site scope).qualifier) name position)
      (do Visit.memberPlace site (← (object.visit site scope).qualifier) name position)
  | .call none name arguments position => .ofValue position do
    let types ← probeArguments site scope arguments
    let method ←
      liftExcept (site.calledMethod site.method.className .implicit name types position)
    Visited.call site method .implicit (visitArguments site scope arguments)
  | .call (some callee) name arguments position => .ofValue position do
    let qualifier ← (callee.visit site scope).qualifier
    let (owner, receiver) ← liftExcept (qualifier.receiver callee.position)
    let types ← probeArguments site scope arguments
    let method ← liftExcept (site.calledMethod owner receiver name types position)
    Visited.call site method receiver (visitArguments site scope arguments)
  | .new type arguments position => .ofValue position do
    let className ← liftExcept (site.instantiated type position)
    let types ← probeArguments site scope arguments
    let method ← liftExcept (site.constructor className types position)
    Visited.new site className method (visitArguments site scope arguments)
  | .newArray element length position => .ofValue position do
    let element ← liftExcept (site.host.typeOf element)
    Visited.newArray element (length.visit site scope) length.position
  | .index array index position =>
    .element (array.visit site scope) (index.visit site scope) index.position position
  | .assign target op value position => .ofValue position <|
    match site.intVariable? scope target, incrementBy? op value with
    | some slot, some delta => Visited.increment slot delta
    | _, _ =>
      Visited.assign site (target.visit site scope) op value (value.visit site scope) position
  | .update op before target position => .ofValue position <|
    match site.intVariable? scope target with
    | some slot => Visited.updateVariable op before slot
    | none => Visited.update op before (target.visit site scope) position
  | .unary .not operand position =>
    .ofCondition position fun outcome => (operand.visit site scope).branches (!outcome)
  | .unary op operand position =>
    .ofValue position (Visited.unary op (operand.visit site scope) position)
  | .binary (.compare wanted) left right position =>
    .ofCondition position
      (Visited.relation wanted right (left.visit site scope) (right.visit site scope) position)
  | .binary (.compute op) left right position =>
    { Visited.ofValue position
        (Visited.binary op (left.visit site scope) (right.visit site scope) position) with
      append :=
        Visited.appendBinary op (left.visit site scope) (right.visit site scope) position }
  | .logical op left right position =>
    .ofCondition position
      (Visit.branchesOf op (left.visit site scope).branches (right.visit site scope).branches)
  | .conditional test first second position => .ofValue position
    (Visited.conditional site (test.visit site scope) (first.visit site scope)
      (second.visit site scope) position)
  | .cast type operand position => .ofValue position do
    let target ← liftExcept (site.host.typeOf type)
    Visited.cast site target (operand.visit site scope) position
  | .instanceOf operand type position => .ofValue position do
    let target ← liftExcept (site.host.typeOf type)
    Visited.instanceOf target (operand.visit site scope) position

/-- The types of arguments, found by probes. None of them may be `void`. -/
def probeArguments (site : Site) (scope : Scope) : List Expr → Visit (List StaticType)
  | [] => return []
  | first :: rest => do
    let type ← Visit.probe (first.visit site scope).value
    liftExcept (requireValue type first.position)
    return type :: (← probeArguments site scope rest)

/-- Visits arguments, each converted to the type of its parameter. -/
def visitArguments (site : Site) (scope : Scope) : List Expr → List FieldType → Visit Unit
  | first :: rest, parameter :: parameters => do
    Visited.argument site.host first (first.visit site scope) parameter
    visitArguments site scope rest parameters
  | _, _ => pure ()

end

/-- The type of an expression, found by a probe. -/
def Expr.expressionType (site : Site) (scope : Scope) (expression : Expr) : Visit StaticType :=
  Visit.probe (expression.visit site scope).value

/-- The type of an expression that stands in no loop, and the generator behind the probe. -/
def Generator.expressionType (generator : Generator) (site : Site) (scope : Scope)
    (expression : Expr) : Except SourceError StaticType × Generator :=
  let (type, visitor) := (expression.expressionType site scope).run.run ⟨generator, [], false⟩
  (type, visitor.generator)

end MethodPatch
