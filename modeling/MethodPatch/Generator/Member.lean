/-
**Constants, members and joined strings.**

The steps that the code of an expression is made of.

* `Place.operands`: the slots of those operands;
* `Place.copyOperands`, `Place.copyValue`: what is duplicated when a place is read and then written,
  or when the value stored is wanted as well.
-/

import MethodPatch.Generator.Basic
import MethodPatch.Syntax.Tree
import MethodPatch.Typing.Call

namespace MethodPatch

/-! ### Constants on the stack

Small numbers have instructions of their own; every other constant comes from the pool. -/

/-- The instruction for a small `int`. -/
def smallInt? (value : Int32) : Option Instr :=
  let number := value.toInt
  if -1 ≤ number ∧ number ≤ 5 then some (.iconst (Int8.ofInt number))
  else if -128 ≤ number ∧ number ≤ 127 then some (.bipush (Int8.ofInt number))
  else if -32768 ≤ number ∧ number ≤ 32767 then some (.sipush (Int16.ofInt number))
  else none

/-- The instruction for a small `long`. -/
def smallLong? (value : Int64) : Option Instr :=
  if value = 0 then some (.lconst 0) else if value = 1 then some (.lconst 1) else none

/-- The instruction for a `float` of zero, one or two. The zero is the positive one. -/
def smallFloat? (bits : UInt32) : Option Instr :=
  if bits = 0 then some (.fconst 0)
  else if bits = 0x3F800000 then some (.fconst 1)
  else if bits = 0x40000000 then some (.fconst 2)
  else none

/-- The instruction for a `double` of zero or one. The zero is the positive one. -/
def smallDouble? (bits : UInt64) : Option Instr :=
  if bits = 0 then some (.dconst 0)
  else if bits = 0x3FF0000000000000 then some (.dconst 1)
  else none

/-- The instruction for the number one. -/
def oneOf : Numeric → Instr
  | .int => .iconst 1
  | .long => .lconst 1
  | .float => .fconst 1
  | .double => .dconst 1

namespace Emit

/-- A number: by its own instruction or else from the pool. -/
def number (small : Option Instr) (load : PoolIndex → Instr) (value : Constant) : Emit Unit := do
  match small with
  | some instr => Emit.instr instr
  | none => Emit.instr (load (← constant (Pool.insert value)))

/-- An `int`. -/
def int (value : Int32) : Emit Unit := number (smallInt? value) .ldc (.integer value)

/-- A `long`. -/
def long (value : Int64) : Emit Unit := number (smallLong? value) .ldc2 (.long value)

/-- A `float`, by its bits. -/
def float (bits : UInt32) : Emit Unit := number (smallFloat? bits) .ldc (.float bits)

/-- A `double`, by its bits. -/
def double (bits : UInt64) : Emit Unit := number (smallDouble? bits) .ldc2 (.double bits)

/-- A literal. -/
def literal : Literal → Emit Unit
  | .int value => int value
  | .long value => long value
  | .float bits => float bits
  | .double bits => double bits
  | .char unit => int (Int32.ofNat unit.toNat)
  | .boolean value => instr (.iconst (if value then 1 else 0))
  | .string text => do instr (.ldc (← constant (Pool.addString text)))
  | .null => instr .aconstNull

end Emit

/-! ### Members, places and calls

Instructions that read and write fields, variables and array elements, and that call methods. An
operation on a place finds the operands of the place on the stack. -/

/-- The kind of array instruction for elements of a type. -/
def FieldType.element : FieldType → Element
  | .boolean | .byte => .byte
  | .char => .char
  | .short => .short
  | .int => .int
  | .long => .long
  | .float => .float
  | .double => .double
  | .object _ | .array _ => .ref

/-- The kind of new array for elements of a primitive type. -/
def FieldType.primitiveElement? : FieldType → Option PrimitiveElement
  | .boolean => some .boolean
  | .byte => some .byte
  | .char => some .char
  | .short => some .short
  | .int => some .int
  | .long => some .long
  | .float => some .float
  | .double => some .double
  | .object _ | .array _ => none

namespace Place

/-- The slots of the operands that a place has on the stack. -/
def operands : Place → Nat
  | .variable _ _ => 0
  | .field found => if found.isStatic then 0 else 1
  | .element _ => 2

/-- Duplicates the operands of a place. -/
def copyOperands (place : Place) : List Instr :=
  match place.operands with
  | 0 => []
  | 1 => [.stack .dup]
  | _ => [.stack .dup2]

/-- Copies the value on the stack beneath the operands of a place. -/
def copyValue (place : Place) : Instr :=
  .stack <|
    match place.operands, place.type.isWide with
    | 0, false => .dup
    | 0, true => .dup2
    | 1, false => .dupX1
    | 1, true => .dup2X1
    | _, false => .dupX2
    | _, true => .dup2X2

end Place

/-- Drops a value. -/
def StaticType.drop (type : StaticType) : List Instr :=
  match type.width with
  | 0 => []
  | 1 => [.stack .pop]
  | _ => [.stack .pop2]

/-- The way a method is called. -/
def Host.dispatch (host : Host) (method : MethodRef) : Dispatch :=
  if method.isStatic then .static
  else if method.name = constructorName || method.isPrivate then .special
  else if host.isInterface method.owner then .interface
  else .virtual

namespace Emit

/-- The object of the method. -/
def this : Emit Unit := instr (.load .ref 0)

/-- An access to a field: through a class if it is static, else through an object. -/
def field (ofClass ofObject : FieldAccess) (field : FieldRef) : Emit Unit := do
  let index ← constant (Pool.addField field.owner field.name field.type.descriptor)
  let access := if field.isStatic then ofClass else ofObject
  instr (.field access index (UInt8.ofNat field.type.width))

/-- Reads a field. The object of an instance field is on the stack. -/
def readField : FieldRef → Emit Unit := field .getStatic .getField

/-- Reads the value in a place. -/
def read : Place → Emit Unit
  | .variable slot type => instr (.load type.storage slot)
  | .field field => readField field
  | .element type => instr (.arrayLoad type.element)

/-- Stores the value on the stack in a place. -/
def write : Place → Emit Unit
  | .variable slot type => instr (.store type.storage slot)
  | .field found => field .putStatic .putField found
  | .element type => instr (.arrayStore type.element)

/-- Calls a method. Its arguments are on the stack. -/
def invoke (dispatch : Dispatch) (method : MethodRef) : Emit Unit := do
  let add := if dispatch = .interface then Pool.addInterfaceMethod else Pool.addMethod
  let index ← constant (add method.owner method.name method.signature.descriptor)
  let slots := method.signature.parameterSlots
  if 255 < slots then fail .tooManyArguments
  instr (.invoke dispatch index slots.toUInt8 (UInt8.ofNat method.signature.resultSlots))

/-- A new object of a class, before its constructor is called, twice on the stack. -/
def newObject (className : String) : Emit Unit := do
  instr (.new (← classConstant className))
  instr (.stack .dup)

/-- What a simple name stands for: its value, or nothing if it is a package or a class. -/
def name (site : Site) (scope : Scope) (name : String) (position : Position) : Emit Qualifier := do
  match site.nameUse? scope name with
  | some (.variable slot type) =>
    instr (.load type.storage slot)
    return .value (.value type)
  | some (.field field) =>
    liftExcept (site.checkImplicit field field.name position)
    if !field.isStatic then this
    readField field
    return .value (.value field.type)
  | some (.classRef className) => return .classRef className
  | none => return .package name

/-- A member of what stands in front of a point, which is on the stack if it is a value. -/
def member (site : Site) (qualifier : Qualifier) (name : String) (position : Position) :
    Emit Qualifier := do
  let member ← liftExcept (site.member qualifier name position)
  match member with
  | .package _ | .classRef _ => pure ()
  | .length => instr .arrayLength
  | .field field dropsValue =>
    if dropsValue then instr (.stack .pop)
    readField field
  return member.qualifier

/-- The place that a simple name is. -/
def namePlace (site : Site) (scope : Scope) (name : String) (position : Position) : Emit Place := do
  let place ← liftExcept (site.namePlace scope name position)
  if place.operands = 1 then this
  return place

/-- The place that a member of what stands in front of a point is. -/
def memberPlace (site : Site) (qualifier : Qualifier) (name : String) (position : Position) :
    Emit Place := do
  let (field, dropsValue) ← liftExcept (site.memberPlace qualifier name position)
  if dropsValue then instr (.stack .pop)
  return .field field

end Emit

/-! ### Strings from their parts

Joined operands are appended one after the other to a `StringBuilder`. `+=` starts the builder with
the string that is there. -/

/-- The class that builds strings. -/
def builderClass : String := "java/lang/StringBuilder"

/-- A method of the class that builds strings. -/
def builderMethod (name : String) (parameters : List FieldType) (result : Option FieldType) :
    MethodRef :=
  ⟨builderClass, name, ⟨parameters, result⟩, false, false⟩

/-- The text of an object, which may be `null`. -/
def valueOfMethod : MethodRef :=
  ⟨"java/lang/String", "valueOf", ⟨[.object objectClass], some .string⟩, true, false⟩

/-- The type as which a value is appended; a `void` operand has none. -/
def appendedType? : StaticType → Option FieldType
  | .void => none
  | .null => some (.object objectClass)
  | .value .byte | .value .short => some .int
  | .value type =>
    if type.isPrimitive || type.isString then some type else some (.object objectClass)

namespace Emit

/-- A new builder that holds nothing. -/
def emptyBuilder : Emit Unit := do
  newObject builderClass
  invoke .special (builderMethod constructorName [] none)

/-- A new builder in place of the string on the stack, which it starts with. -/
def builderOfString : Emit Unit := do
  invoke .static valueOfMethod
  instr (.new (← classConstant builderClass))
  instrs [.stack .dupX1, .stack .swap]
  invoke .special (builderMethod constructorName [.string] none)

/-- Appends the value on the stack to the builder beneath it. -/
def append (type : StaticType) (position : Position) : Emit Unit := do
  match appendedType? type with
  | none => throw (mistyped .voidOperand (some position))
  | some parameter =>
    invoke .virtual (builderMethod "append" [parameter] (some (.object builderClass)))

/-- The string of the builder on the stack. -/
def builtString : Emit Unit := invoke .virtual (builderMethod "toString" [] (some .string))

end Emit

end MethodPatch
