/-
**Types of expressions.**

The type of an expression is found without generating code. An expression has up to three uses: it
is a value, it stands in front of a point, or a value is stored in it. `Typed` holds what is known
of each, and `Expr.typed` finds it for an expression from what is known of its operands.

* `Expr.staticType`: the type of the value of an expression.
-/

import MethodPatch.Typing.Call
import MethodPatch.Typing.Operands

namespace MethodPatch

/-- The type of a literal. -/
def Literal.type : Literal → StaticType
  | .int _ => .value .int
  | .long _ => .value .long
  | .float _ => .value .float
  | .double _ => .value .double
  | .char _ => .value .char
  | .string _ => .value .string
  | .boolean _ => .value .boolean
  | .null => .null

/-- What an expression is in each of its uses. -/
structure Typed where
  value : Except SourceError StaticType
  qualifier : Except SourceError Qualifier
  place : Except SourceError Place

namespace Typed

/-- An expression that is nothing but a value. -/
def ofValue (position : Position) (value : Except SourceError StaticType) : Typed :=
  ⟨value, value.map .value, .error (mistyped .notAssignable (some position))⟩

/-- The type of the operand of `!`, `&&`, `||` or of another condition. -/
def condition (typed : Typed) (position : Position) : Except SourceError Unit := do
  requireBoolean (← typed.value) position

/-- A simple name. -/
def name (site : Site) (scope : Scope) (name : String) (position : Position) : Typed :=
  let qualifier := site.nameQualifier scope name position
  ⟨do (← qualifier).asValue .unknownVariable position, qualifier,
    site.namePlace scope name position⟩

/-- A member of an expression. -/
def member (site : Site) (object : Typed) (name : String) (position : Position) : Typed :=
  let qualifier : Except SourceError Qualifier := do
    return (← site.member (← object.qualifier) name position).qualifier
  ⟨do (← qualifier).asValue .unknownName position, qualifier,
    do return .field (← site.memberPlace (← object.qualifier) name position).1⟩

/-- An element of an array. -/
def element (array index : Typed) (indexPosition position : Position) : Typed :=
  let type : Except SourceError FieldType := do
    let type ← elementType (← array.value) position
    requireInt (← index.value) indexPosition
    return type
  ⟨type.map .value, type.map fun type => .value (.value type), type.map .element⟩

/-- An assignment of a value of known type to a place, with or without an operator. -/
def assignment (site : Site) (place : Place) (op : Option ComputeOp) (value : Expr)
    (valueType : StaticType) (position : Position) : Except SourceError StaticType := do
  match op with
  | none =>
    let _ ← site.host.coercion valueType place.type value
  | some op =>
    if op = .arithmetic .add ∧ place.type.isString then requireValue valueType position
    else
      let _ ← computePlan op (.value place.type) valueType position
  return .value place.type

end Typed

mutual

/-- What an expression is in each of its uses. -/
def Expr.typed (site : Site) (scope : Scope) : Expr → Typed
  | .literal value position => .ofValue position (.ok value.type)
  | .name name position => .name site scope name position
  | .this position => .ofValue position (site.thisType "this" position)
  | .member object name position => .member site (object.typed site scope) name position
  | .call none name arguments position => .ofValue position do
    let types ← argumentTypes site scope arguments
    let method ← site.calledMethod site.method.className .implicit name types position
    return method.resultType
  | .call (some callee) name arguments position => .ofValue position do
    let (owner, receiver) ← (← (callee.typed site scope).qualifier).receiver callee.position
    let types ← argumentTypes site scope arguments
    let method ← site.calledMethod owner receiver name types position
    return method.resultType
  | .new type arguments position => .ofValue position do
    let className ← site.instantiated type position
    let types ← argumentTypes site scope arguments
    let _ ← site.constructor className types position
    return .value (.object className)
  | .newArray element length position => .ofValue position do
    let element ← site.host.typeOf element
    requireInt (← (length.typed site scope).value) length.position
    return .value (.array element)
  | .index array index position =>
    .element (array.typed site scope) (index.typed site scope) index.position position
  | .assign target op value position => .ofValue position <|
    match site.intVariable? scope target, incrementBy? op value with
    | some _, some _ => .ok (.value .int)
    | _, _ => do
      let place ← (target.typed site scope).place
      let valueType ← (value.typed site scope).value
      Typed.assignment site place op value valueType position
  | .update op _ target position => .ofValue position <|
    match site.intVariable? scope target with
    | some _ => .ok (.value .int)
    | none => do
      let place ← (target.typed site scope).place
      let _ ← updateType op place.type position
      return .value place.type
  | .unary .not operand position => .ofValue position do
    (operand.typed site scope).condition operand.position
    return .value .boolean
  | .unary op operand position => .ofValue position do
    let type ← unaryType op (← (operand.typed site scope).value) position
    return .value type.type
  | .binary (.compare comparison) left right position => .ofValue position do
    let leftType ← (left.typed site scope).value
    let rightType ← (right.typed site scope).value
    let _ ← comparisonPlan comparison leftType rightType position
    return .value .boolean
  | .binary (.compute op) left right position => .ofValue position do
    let leftType ← (left.typed site scope).value
    let rightType ← (right.typed site scope).value
    if joinsStrings op leftType rightType then return .value .string
    let plan ← computePlan op leftType rightType position
    return .value plan.result
  | .logical _ left right position => .ofValue position do
    (left.typed site scope).condition left.position
    (right.typed site scope).condition right.position
    return .value .boolean
  | .conditional test first second position => .ofValue position do
    let firstType ← (first.typed site scope).value
    let secondType ← (second.typed site scope).value
    let type ← site.host.conditionalType firstType secondType position
    (test.typed site scope).condition test.position
    return type
  | .cast type operand position => .ofValue position do
    let target ← site.host.typeOf type
    let source ← (operand.typed site scope).value
    match site.host.castPlan? source target with
    | some _ => return .value target
    | none => throw (mistyped (.inconvertible source (.value target)) (some position))
  | .instanceOf operand type position => .ofValue position do
    let target ← site.host.typeOf type
    let source ← (operand.typed site scope).value
    if !(source.isReference && target.isReference) then
      throw (mistyped (.notTestable source target) (some position))
    return .value .boolean

/-- The types of arguments, none of which may be `void`. -/
def argumentTypes (site : Site) (scope : Scope) : List Expr → Except SourceError (List StaticType)
  | [] => .ok []
  | first :: rest => do
    let type ← (first.typed site scope).value
    requireValue type first.position
    return type :: (← argumentTypes site scope rest)

end

/-- The type of the value of an expression. -/
def Expr.staticType (site : Site) (scope : Scope) (expression : Expr) :
    Except SourceError StaticType :=
  (expression.typed site scope).value

end MethodPatch
