/-
**Visiting under guard.**

In some places the visit relies on what it has found out before. It checks each of these all the same,
and where one does not hold the visit ends with an internal error.

* `Guard`: what is checked, and the error if it does not hold;
* `arithmeticPlan`, `arithmeticInstr?`: an operator on two values, its types and its instruction;
* `Visit.classIndex`, `Visit.arithmetic`: guarded steps;
* `Guarded`: the ways in which an expression is visited, with its effect;
* `Expr.guarded`: the visit of an expression.
-/

import MethodPatch.Visit.Expr

namespace MethodPatch

/-! ### Guards

What is relied on: that an operator is a relation, or that it computes, that a promoted type is a
number, that a type has a class constant. The plans here are about operators and types of every kind,
so that a guard has something to refuse. -/

/-- What the visit relies on. -/
inductive Guard where
  | comparison (op : BinaryOp)
  | arithmetic (op : BinaryOp)
  | promotion
  | classConstant (type : FieldType)
  deriving DecidableEq

namespace Guard

/-- The wording of the error where a guard does not hold. -/
def message : Guard → String
  | comparison op => "'" ++ op.symbol ++ "' is not a comparison"
  | arithmetic op => "'" ++ op.symbol ++ "' is not an arithmetic operator"
  | promotion => "non-numeric promotion"
  | classConstant type => type.sourceName ++ " has no class constant"

/-- The error where a guard does not hold. -/
def error (guard : Guard) (position : Option Position) : SourceError :=
  ⟨.stated .internalError guard.message, position⟩

end Guard

/-! ### Operators -/

namespace BinaryOp

/-- The relation that an operator is. -/
def comparison? : BinaryOp → Option Comparison
  | compare wanted => some wanted
  | compute _ => none

/-- Relations. -/
def isComparison (op : BinaryOp) : Bool := op.comparison?.isSome

/-- `<<`, `>>` and `>>>`. -/
def isShift : BinaryOp → Bool
  | compute (.shift _) => true
  | _ => false

/-- `&`, `|` and `^`. -/
def isBitwise : BinaryOp → Bool
  | compute (.bitwise _) => true
  | _ => false

/-- `+` with a string among its operands. -/
def joins (op : BinaryOp) (left right : StaticType) : Bool :=
  op = compute (.arithmetic .add) && (left.isString || right.isString)

end BinaryOp

/-! ### Types -/

namespace FieldType

/-- The type that one operand is promoted to. -/
def unaryPromoted? : FieldType → Option FieldType
  | byte | short | char | int => some int
  | long => some long
  | float => some float
  | double => some double
  | _ => none

/-- The type that two operands are promoted to. -/
def binaryPromoted? (left right : FieldType) : Option FieldType :=
  if !left.isNumeric || !right.isNumeric then none
  else if left = double || right = double then some double
  else if left = float || right = float then some float
  else if left = long || right = long then some long
  else some int

/-- The kind of numbers that a type is. -/
def numberKind? (type : FieldType) : Option Numeric :=
  if !type.isNumeric then none
  else
    match type.storage with
    | .int => some .int
    | .long => some .long
    | .float => some .float
    | .double => some .double
    | .ref => none

end FieldType

/-- What the operands of an operator are converted to, and the type of its value. -/
structure ArithmeticPlan where
  left : FieldType
  right : FieldType
  result : FieldType

/-- The plan for an operator and the types of its operands, if it takes them. -/
def arithmeticPlan? (op : BinaryOp) (left right : StaticType) : Option ArithmeticPlan :=
  match left, right with
  | .value left, .value right =>
    if op.isShift then
      match left.unaryPromoted?, right.unaryPromoted? with
      | some value, some distance =>
        if value.isIntegral && distance.isIntegral then some ⟨value, .int, value⟩ else none
      | _, _ => none
    else if op.isBitwise && left = .boolean && right = .boolean then
      some ⟨.boolean, .boolean, .boolean⟩
    else
      match left.binaryPromoted? right with
      | some type => if !op.isBitwise || type.isIntegral then some ⟨type, type, type⟩ else none
      | none => none
  | _, _ => none

/-- The plan for an operator, or the error that its operands are bad. -/
def arithmeticPlan (op : BinaryOp) (left right : StaticType) (position : Position) :
    Except SourceError ArithmeticPlan :=
  match arithmeticPlan? op left right with
  | some plan => .ok plan
  | none => .error (badOperands op.symbol left right position)

/-- The kind of whole numbers in which an operator on bits computes. -/
def FieldType.integralKind (type : FieldType) : Integral := if type = .long then .long else .int

/-- The instruction of an operator for values of a type, if it computes at all. -/
def arithmeticInstr? (op : BinaryOp) (type : FieldType) : Option Instr :=
  match op with
  | .compute (.arithmetic op) => some (.arithmetic op (type.numberKind?.getD .int))
  | .compute (.shift op) => some (.shift op type.integralKind)
  | .compute (.bitwise op) => some (.bitwise op type.integralKind)
  | .compare _ => none

/-- The type that `++` and `--` compute in, or the error that they do not take a value. -/
def promotedUpdate (op : UpdateOp) (operand : FieldType) (position : Position) :
    Except SourceError FieldType :=
  match operand.unaryPromoted? with
  | some type => .ok type
  | none => .error (mistyped (.badOperand op.symbol (.value operand)) (some position))

/-- The kind of numbers that a promoted type is. -/
def promotedKind (type : FieldType) (position : Position) : Except SourceError Numeric :=
  match type.numberKind? with
  | some kind => .ok kind
  | none => .error (Guard.promotion.error (some position))

namespace Visit

/-! ### Steps -/

/-- The class constant of a type. -/
def classIndex (type : FieldType) : Visit PoolIndex := do
  match type.classConstant? with
  | some name => classConstant name
  | none => throw ((Guard.classConstant type).error (← get).generator.position)

/-- The instruction of an operator. -/
def arithmetic (op : BinaryOp) (type : FieldType) (position : Position) : Visit Unit := do
  match arithmeticInstr? op type with
  | some instr => Visit.instr instr
  | none => throw ((Guard.arithmetic op).error (some position))

end Visit

/-! ### Visiting under guard

`Expr.guarded` visits an expression as `Expr.visit` does, and checks on the way what it relies on. An
expression that is a statement is visited for its effect, which leaves no value. -/

/-- The ways in which an expression is visited. For its effect it is visited as a statement. -/
structure Guarded extends Visited where
  effect : Visit Unit

namespace Guarded

/-! ### Shapes -/

/-- An expression whose value is dropped if it is not wanted. -/
def ofVisited (visited : Visited) : Guarded :=
  { visited with effect := do Visit.instrs (← visited.value).drop }

/-- An expression that is visited differently if its value is not wanted. -/
def ofWanted (position : Position) (value : Bool → Visit StaticType) : Guarded :=
  { Visited.ofValue position (value true) with effect := do let _ ← value false }

/-! ### Operators -/

/-- A relation, which the operator has to be. -/
def relation (op : BinaryOp) (right : Expr) (leftVisited rightVisited : Visited)
    (position : Position) (outcome : Bool) : Visit (List Nat) := do
  match op.comparison? with
  | some wanted => Visited.relation wanted right leftVisited rightVisited position outcome
  | none => throw ((Guard.comparison op).error (some position))

/-- A new object of a class, before its constructor is called, twice on the stack. -/
def newObject (type : FieldType) : Visit Unit := do
  Visit.instr (.new (← Visit.classIndex type))
  Visit.instr (.stack .dup)

/-- A new builder that holds nothing. -/
def emptyBuilder : Visit Unit := do
  newObject (.object builderClass)
  Visit.invoke .special (builderMethod constructorName [] none)

/-- A new builder in place of the string on the stack, which it starts with. -/
def builderOfString : Visit Unit := do
  Visit.invoke .static valueOfMethod
  Visit.instr (.new (← Visit.classIndex (.object builderClass)))
  Visit.instrs [.stack .dupX1, .stack .swap]
  Visit.invoke .special (builderMethod constructorName [.string] none)

/-- The string of operands that are joined. A probe does not look at them. -/
def joined (left right : Visited) : Visit StaticType := do
  if ← Visit.isProbing then return .value .string
  else
    emptyBuilder
    left.append
    right.append
    Visit.builtString
    return .value .string

/-- The value of an operator that computes. A probe needs the types of the operands only. -/
def compute (op : BinaryOp) (plan : ArithmeticPlan) (left right : Visited) (position : Position) :
    Visit StaticType := do
  if ← Visit.isProbing then return .value plan.result
  else
    left.convertedTo (.value plan.left)
    right.convertedTo (.value plan.right)
    Visit.arithmetic op plan.result position
    return .value plan.result

/-- An operator on two values. -/
def binary (op : BinaryOp) (left right : Visited) (position : Position) : Visit StaticType := do
  let leftType ← Visit.probe left.value
  let rightType ← Visit.probe right.value
  if op.joins leftType rightType then joined left right
  else
    let plan ← liftExcept (arithmeticPlan op leftType rightType position)
    compute op plan left right position

/-- An operator on two values as an operand of joined strings: one that joins strings itself is
appended by appending its operands. -/
def appendBinary (op : BinaryOp) (left right : Visited) (position : Position) : Visit Unit := do
  let leftType ← Visit.probe left.value
  let rightType ← Visit.probe right.value
  if op.joins leftType rightType then
    left.append
    right.append
  else Visit.append (← binary op left right position) position

/-! ### Places -/

/-- Computes the new value of an assignment with an operator; the old one is on the stack. -/
def combine (op : BinaryOp) (target : FieldType) (value : Visited) (position : Position) :
    Visit Unit := do
  let valueType ← Visit.probe value.value
  if op = .compute (.arithmetic .add) ∧ target.isString then
    builderOfString
    Visit.append (← value.value) position
    Visit.builtString
  else
    let plan ← liftExcept (arithmeticPlan op (.value target) valueType position)
    Visit.instrs (conversion target plan.left)
    value.convertedTo (.value plan.right)
    Visit.arithmetic op plan.result position
    Visit.instrs (conversion plan.result target)

/-- An assignment, with or without its value on the stack. -/
def assign (site : Site) (target : Visited) (op : Option BinaryOp) (source : Expr)
    (value : Visited) (position : Position) (wanted : Bool) : Visit StaticType := do
  let place ← target.place
  match op with
  | none =>
    let type ← value.value
    Visit.instrs (← liftExcept (site.host.coercion type place.type source))
  | some op =>
    Visit.instrs place.copyOperands
    Visit.read place
    combine op place.type value position
  if wanted then Visit.instr place.copyValue
  Visit.write place
  return .value place.type

/-- A variable that a constant is added to in place. -/
def increment (slot : Slot) (delta : Int16) (wanted : Bool) : Visit StaticType := do
  Visit.instr (.iinc slot delta)
  if wanted then Visit.instr (.load .int slot)
  return .value .int

/-- `++` or `--` of an `int` variable. The value that is wanted is the one before or after. -/
def updateVariable (op : UpdateOp) (before : Bool) (slot : Slot) (wanted : Bool) :
    Visit StaticType := do
  if wanted && !before then Visit.instr (.load .int slot)
  Visit.instr (.iinc slot (if op = .increment then 1 else -1))
  if wanted && before then Visit.instr (.load .int slot)
  return .value .int

/-- `++` or `--` of a place. -/
def update (op : UpdateOp) (before : Bool) (target : Visited) (position : Position)
    (wanted : Bool) : Visit StaticType := do
  let place ← target.place
  let type ← liftExcept (promotedUpdate op place.type position)
  let kind ← liftExcept (promotedKind type position)
  Visit.instrs place.copyOperands
  Visit.read place
  if wanted && !before then Visit.instr place.copyValue
  Visit.instrs (conversion place.type type)
  Visit.instr (oneOf kind)
  Visit.instr (.arithmetic (if op = .increment then .add else .sub) kind)
  Visit.instrs (conversion type place.type)
  if wanted && before then Visit.instr place.copyValue
  Visit.write place
  return .value place.type

/-! ### Types that are named -/

/-- A cast. -/
def cast (site : Site) (target : FieldType) (operand : Visited) (position : Position) :
    Visit StaticType := do
  let source ← operand.value
  let refused : Visit Unit := throw (mistyped (.inconvertible source (.value target)) (some position))
  match source with
  | .void => refused
  | .null => if target.isReference then pure () else refused
  | .value type =>
    if type.isNumeric && target.isNumeric then Visit.instrs (conversion type target)
    else if type = target then pure ()
    else if type.isReference && target.isReference then
      if site.host.widensReference false type target then pure ()
      else Visit.instr (.checkCast (← Visit.classIndex target))
    else refused
  return .value target

/-- A test whether an object belongs to a class. -/
def instanceOf (target : FieldType) (operand : Visited) (position : Position) :
    Visit StaticType := do
  let source ← operand.value
  if source.isReference && target.isReference then
    Visit.instr (.instanceOf (← Visit.classIndex target))
    return .value .boolean
  else throw (mistyped (.notTestable source target) (some position))

/-- A new array of a length. -/
def newArray (element : FieldType) (length : Visited) (lengthPosition : Position) :
    Visit StaticType := do
  liftExcept (requireInt (← length.value) lengthPosition)
  match element.primitiveElement? with
  | some primitive => Visit.instr (.newArray primitive)
  | none => Visit.instr (.anewArray (← Visit.classIndex element))
  return .value (.array element)

/-- A new object that is made by a constructor. A probe needs its class only. -/
def new (site : Site) (className : String) (method : MethodRef)
    (arguments : List FieldType → Visit Unit) : Visit StaticType := do
  if ← Visit.isProbing then return .value (.object className)
  else
    newObject (.object className)
    arguments method.signature.parameters
    Visit.invoke (site.host.dispatch method) method
    return .value (.object className)

end Guarded

mutual

/-- The ways in which an expression is visited under guard. -/
def Expr.guarded (site : Site) (scope : Scope) : Expr → Guarded
  | .literal (.boolean value) position => .ofVisited (.boolean position value)
  | .literal value position => .ofVisited (.ofValue position do
    Visit.literal value
    return value.type)
  | .name name position =>
    .ofVisited (.ofQualifier position .unknownVariable (Visit.name site scope name position)
      (Visit.namePlace site scope name position))
  | .this position => .ofVisited (.ofValue position do
    let type ← liftExcept (site.thisType "this" position)
    Visit.this
    return type)
  | .member object name position =>
    .ofVisited (.ofQualifier position .unknownName
      (do Visit.member site (← (object.guarded site scope).qualifier) name position)
      (do Visit.memberPlace site (← (object.guarded site scope).qualifier) name position))
  | .call none name arguments position => .ofVisited (.ofValue position do
    let types ← guardedTypes site scope arguments
    let method ←
      liftExcept (site.calledMethod site.method.className .implicit name types position)
    Visited.call site method .implicit (guardedArguments site scope arguments))
  | .call (some callee) name arguments position => .ofVisited (.ofValue position do
    let qualifier ← (callee.guarded site scope).qualifier
    let (owner, receiver) ← liftExcept (qualifier.receiver callee.position)
    let types ← guardedTypes site scope arguments
    let method ← liftExcept (site.calledMethod owner receiver name types position)
    Visited.call site method receiver (guardedArguments site scope arguments))
  | .new type arguments position => .ofVisited (.ofValue position do
    let className ← liftExcept (site.instantiated type position)
    let types ← guardedTypes site scope arguments
    let method ← liftExcept (site.constructor className types position)
    Guarded.new site className method (guardedArguments site scope arguments))
  | .newArray element length position => .ofVisited (.ofValue position do
    let element ← liftExcept (site.host.typeOf element)
    Guarded.newArray element (length.guarded site scope).toVisited length.position)
  | .index array index position =>
    .ofVisited (.element (array.guarded site scope).toVisited (index.guarded site scope).toVisited
      index.position position)
  | .assign target op value position => .ofWanted position fun wanted =>
    match site.intVariable? scope target, incrementBy? op value with
    | some slot, some delta => Guarded.increment slot delta wanted
    | _, _ =>
      Guarded.assign site (target.guarded site scope).toVisited (op.map .compute) value
        (value.guarded site scope).toVisited position wanted
  | .update op before target position => .ofWanted position fun wanted =>
    match site.intVariable? scope target with
    | some slot => Guarded.updateVariable op before slot wanted
    | none => Guarded.update op before (target.guarded site scope).toVisited position wanted
  | .unary .not operand position =>
    .ofVisited (.ofCondition position fun outcome =>
      (operand.guarded site scope).branches (!outcome))
  | .unary op operand position =>
    .ofVisited (.ofValue position
      (Visited.unary op (operand.guarded site scope).toVisited position))
  | .binary op left right position =>
    if op.isComparison then
      .ofVisited (.ofCondition position (Guarded.relation op right
        (left.guarded site scope).toVisited (right.guarded site scope).toVisited position))
    else
      .ofVisited
        { Visited.ofValue position (Guarded.binary op (left.guarded site scope).toVisited
            (right.guarded site scope).toVisited position) with
          append := Guarded.appendBinary op (left.guarded site scope).toVisited
            (right.guarded site scope).toVisited position }
  | .logical op left right position =>
    .ofVisited (.ofCondition position (Visit.branchesOf op (left.guarded site scope).branches
      (right.guarded site scope).branches))
  | .conditional test first second position => .ofVisited (.ofValue position
    (Visited.conditional site (test.guarded site scope).toVisited
      (first.guarded site scope).toVisited (second.guarded site scope).toVisited position))
  | .cast type operand position => .ofVisited (.ofValue position do
    let target ← liftExcept (site.host.typeOf type)
    Guarded.cast site target (operand.guarded site scope).toVisited position)
  | .instanceOf operand type position => .ofVisited (.ofValue position do
    let target ← liftExcept (site.host.typeOf type)
    Guarded.instanceOf target (operand.guarded site scope).toVisited position)

/-- The types of arguments, found by probes. None of them may be `void`. -/
def guardedTypes (site : Site) (scope : Scope) : List Expr → Visit (List StaticType)
  | [] => return []
  | first :: rest => do
    let type ← Visit.probe (first.guarded site scope).value
    liftExcept (requireValue type first.position)
    return type :: (← guardedTypes site scope rest)

/-- Visits arguments, each converted to the type of its parameter. -/
def guardedArguments (site : Site) (scope : Scope) : List Expr → List FieldType → Visit Unit
  | first :: rest, parameter :: parameters => do
    Visited.argument site.host first (first.guarded site scope).toVisited parameter
    guardedArguments site scope rest parameters
  | _, _ => pure ()

end

end MethodPatch
