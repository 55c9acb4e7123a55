/-
**Types of operators.**

For each operator and the types of its operands there is a plan, which says what the operands are
converted to, what the result is and which instruction computes it, or there is none and the
operands are bad.

* `ComputePlan.of?`: operators that compute a value;
* `ComparisonPlan.of?`: relations;
* `conditionalType?`: the common type of the branches of a conditional.
-/

import MethodPatch.Typing.Assignable

namespace MethodPatch

/-- How a value is computed from two operands. -/
inductive ComputePlan where
  | arithmetic (op : Arithmetic) (type : Numeric)
  | shift (op : Shift) (type : Integral)
  | bitwise (op : Bitwise) (type : Integral)
  | booleans (op : Bitwise)
  deriving DecidableEq

namespace ComputePlan

/-- The type that the left operand is converted to, which is also the type of the result. -/
def result : ComputePlan → FieldType
  | .arithmetic _ type => type.type
  | .shift _ type | .bitwise _ type => type.type
  | .booleans _ => .boolean

/-- The type that the right operand is converted to. The distance of a shift is an `int`. -/
def right : ComputePlan → FieldType
  | .shift _ _ => .int
  | plan => plan.result

/-- The instruction that computes the value. -/
def instr : ComputePlan → Instr
  | .arithmetic op type => .arithmetic op type
  | .shift op type => .shift op type
  | .bitwise op type => .bitwise op type
  | .booleans op => .bitwise op .int

/-- The plan for operands of two types. -/
def ofTypes? (op : ComputeOp) (left right : FieldType) : Option ComputePlan :=
  match op with
  | .arithmetic op => (promotion? left right).map (.arithmetic op)
  | .shift op => do
    let type ← (← left.numeric?).integral?
    let _ ← (← right.numeric?).integral?
    return .shift op type
  | .bitwise op =>
    if left = .boolean ∧ right = .boolean then some (.booleans op)
    else do return .bitwise op (← (← promotion? left right).integral?)

/-- The plan for two operands. -/
def of? (op : ComputeOp) (left right : StaticType) : Option ComputePlan :=
  match left, right with
  | .value left, .value right => ofTypes? op left right
  | _, _ => none

end ComputePlan

/-- Operands that an operator does not take. -/
def badOperands (symbol : String) (left right : StaticType) (position : Position) : SourceError :=
  mistyped (.badOperands symbol left right) (some position)

/-- The plan for two operands, or the error that there is none. -/
def computePlan (op : ComputeOp) (left right : StaticType) (position : Position) :
    Except SourceError ComputePlan :=
  match ComputePlan.of? op left right with
  | some plan => .ok plan
  | none => .error (badOperands op.symbol left right position)

/-- Whether an operator joins strings: `+` with a string among its operands. -/
def joinsStrings (op : ComputeOp) (left right : StaticType) : Bool :=
  op = .arithmetic .add && (left.isString || right.isString)

/-- How two operands are compared. -/
inductive ComparisonPlan where
  | leftWithNull
  | rightWithNull
  | identity
  | booleans
  | numbers (type : Numeric)
  deriving DecidableEq

/-- Relations that ask whether two operands are the same. -/
def Comparison.isEquality : Comparison → Bool
  | .eq | .ne => true
  | _ => false

/-- The plan for two operands of a relation. -/
def ComparisonPlan.of? (comparison : Comparison) (left right : StaticType) :
    Option ComparisonPlan :=
  if comparison.isEquality && (left.isReference || right.isReference) then
    if !(left.isReference && right.isReference) then none
    else if right = .null then some .leftWithNull
    else if left = .null then some .rightWithNull
    else some .identity
  else if comparison.isEquality ∧ left = .value .boolean ∧ right = .value .boolean then
    some .booleans
  else
    match left, right with
    | .value left, .value right => (promotion? left right).map .numbers
    | _, _ => none

/-- The plan for two operands of a relation, or the error that there is none. -/
def comparisonPlan (comparison : Comparison) (left right : StaticType) (position : Position) :
    Except SourceError ComparisonPlan :=
  match ComparisonPlan.of? comparison left right with
  | some plan => .ok plan
  | none => .error (badOperands comparison.symbol left right position)

/-- The type of an operator on one value. -/
def unaryType? (op : UnaryOp) (operand : StaticType) : Option Numeric :=
  match operand with
  | .value type =>
    type.numeric?.filter fun promoted => op != .complement || promoted.integral?.isSome
  | _ => none

/-- The type of an operator on one value, or the error that it does not take the value. -/
def unaryType (op : UnaryOp) (operand : StaticType) (position : Position) :
    Except SourceError Numeric :=
  match unaryType? op operand with
  | some type => .ok type
  | none => .error (mistyped (.badOperand op.symbol operand) (some position))

/-- The type in which `++` and `--` compute, or the error that they do not take a value. -/
def updateType (op : UpdateOp) (operand : FieldType) (position : Position) :
    Except SourceError Numeric :=
  match operand.numeric? with
  | some type => .ok type
  | none => .error (mistyped (.badOperand op.symbol (.value operand)) (some position))

/-- The common type of two classes or arrays: the one that the other is known to belong to. -/
def Host.commonReference (host : Host) (first second : FieldType) : FieldType :=
  if host.widensReference false first second then second
  else if host.widensReference false second first then first
  else .object objectClass

/-- The common type of the branches of a conditional. -/
def Host.conditionalType? (host : Host) (first second : StaticType) : Option StaticType :=
  match first, second with
  | .value left, .value right =>
    if left = right then some first
    else
      match promotion? left right with
      | some type => some (.value type.type)
      | none =>
        if left.isReference && right.isReference then
          some (.value (host.commonReference left right))
        else none
  | .null, .null => some .null
  | .null, .value type | .value type, .null =>
    if type.isReference then some (.value type) else none
  | _, _ => none

/-- The common type of the branches of a conditional, or the error that there is none. -/
def Host.conditionalType (host : Host) (first second : StaticType) (position : Position) :
    Except SourceError StaticType :=
  match host.conditionalType? first second with
  | some type => .ok type
  | none => .error (mistyped (.branchesDisagree first second) (some position))

theorem ComputePlan.right_width (plan : ComputePlan) :
    plan.right.width = plan.result.width ∨ ∃ op type, plan = .shift op type := by
  cases plan <;> simp [ComputePlan.right]

end MethodPatch
