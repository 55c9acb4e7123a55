/-
**What a value can be converted to and passed as.**

Operands are promoted to numbers of a common type. A value is passed where its type, or a wider one, is
wanted.

* `FieldType.numeric?`: the type that a single operand is promoted to;
* `conversion`: the instructions of a conversion;
* `conversion_numeric`: converting to a promoted type takes one instruction at most;
* `Host.accepts`: both rules;
* `Host.coercion`: the instructions of an assignment, or what is wrong with it;
* `Host.castPlan?`: what a cast takes.
-/

import MethodPatch.Code.Instr
import MethodPatch.Host.Basic
import MethodPatch.Source.SourceError
import MethodPatch.Syntax.Tree

namespace MethodPatch

/-! ### Numeric promotion and conversion

Operands of arithmetic are widened to `int`, `long`, `float` or `double`; two operands are widened to
the wider of their types. A primitive value becomes one of another type by instructions that depend
on the two types alone. -/

namespace Numeric

/-- The field type of a number. -/
def type : Numeric → FieldType
  | .int => .int
  | .long => .long
  | .float => .float
  | .double => .double

/-- The type of whole numbers that a type is. -/
def integral? : Numeric → Option Integral
  | .int => some .int
  | .long => some .long
  | _ => none

/-- The wider of two types. -/
def join : Numeric → Numeric → Numeric
  | .double, _ | _, .double => .double
  | .float, _ | _, .float => .float
  | .long, _ | _, .long => .long
  | .int, .int => .int

end Numeric

/-- The field type of a whole number. -/
def Integral.type : Integral → FieldType
  | .int => .int
  | .long => .long

/-- The type that an operand of arithmetic is promoted to; absent if it is no number. -/
def FieldType.numeric? : FieldType → Option Numeric
  | .byte | .short | .char | .int => some .int
  | .long => some .long
  | .float => some .float
  | .double => some .double
  | _ => none

/-- The type that two operands of arithmetic are promoted to. -/
def promotion? (left right : FieldType) : Option Numeric := do
  return (← left.numeric?).join (← right.numeric?)

/-- Primitive types that take every value of another one, and that it is widened to. -/
def widens : FieldType → FieldType → Bool
  | .byte, target => target ∈ [.short, .int, .long, .float, .double]
  | .short, target | .char, target => target ∈ [.int, .long, .float, .double]
  | .int, target => target ∈ [.long, .float, .double]
  | .long, target => target ∈ [.float, .double]
  | .float, target => target = .double
  | _, _ => false

/-- The instructions that cut an `int` down to a type, given the type that it was converted from. -/
def narrowing (source : FieldType) : FieldType → List Instr
  | .byte => [.narrow .byte]
  | .short => if source = .byte then [] else [.narrow .short]
  | .char => [.narrow .char]
  | _ => []

/-- The instructions that convert a value of one type to another. There are none if the types are
equal or one is no number. -/
def conversion (source target : FieldType) : List Instr :=
  if source = target then []
  else
    match source.numeric?, target.numeric? with
    | some first, some second =>
      (if first = second then [] else [.convert first second]) ++ narrowing source target
    | _, _ => []

/-- Constants that a smaller type takes without a conversion. -/
def constantFits (value : Int32) : FieldType → Bool
  | .byte => -128 ≤ value.toInt ∧ value.toInt ≤ 127
  | .short => -32768 ≤ value.toInt ∧ value.toInt ≤ 32767
  | .char => 0 ≤ value.toInt ∧ value.toInt ≤ 65535
  | _ => false

/-- The value of an `int` or a `char` literal. -/
def Expr.intConstant? : Expr → Option Int32
  | .literal (.int value) _ => some value
  | .literal (.char unit) _ => some (Int32.ofNat unit.toNat)
  | _ => none

theorem Numeric.numeric?_type (numeric : Numeric) : numeric.type.numeric? = some numeric := by
  cases numeric <;> rfl

theorem FieldType.numeric?_isSome (type : FieldType) : type.numeric?.isSome = type.isNumeric := by
  cases type <;> rfl

theorem conversion_numeric (source : FieldType) (target : Numeric) :
    (conversion source target.type).length ≤ 1 := by
  cases source <;> cases target <;>
    simp [conversion, FieldType.numeric?, Numeric.type, narrowing]

/-! ### What a value can be passed as

A value can be passed as its own type, as a wider primitive type, or as a class or array type that
it is known to belong to. Where the host does not know how two classes are related, the strict rule
says no and the lenient rule says yes. Assignments follow the lenient rule, and they also take a
constant that fits. -/

namespace StaticType

/-- References: `null`, classes and arrays. -/
def isReference : StaticType → Bool
  | .void => false
  | .null => true
  | .value type => type.isReference

/-- Strings. -/
def isString : StaticType → Bool
  | .value type => type.isString
  | _ => false

/-- The instructions that convert a value to a type. -/
def conversion (source : StaticType) (target : FieldType) : List Instr :=
  match source with
  | .value type => MethodPatch.conversion type target
  | _ => []

end StaticType

/-- The interfaces that arrays implement. -/
def arrayInterfaces : List String := ["java/lang/Cloneable", "java/io/Serializable"]

/-- How the error names a value that has the wrong type. -/
def conversionFault (source : StaticType) (target : FieldType) : TypeFault :=
  match source with
  | .value type =>
    if type.isNumeric && target.isNumeric then .lossy type target
    else .inconvertible source (.value target)
  | _ => .inconvertible source (.value target)

namespace Host

/-- Whether a value of a class or array type can be passed as another one. `unknown` is the answer
where the host has none. -/
def widensReference (host : Host) (unknown : Bool) (source target : FieldType) : Bool :=
  match target with
  | .object className =>
    className = objectClass ||
      match source with
      | .object sourceClass => (host.isSubclass? sourceClass className).getD unknown
      | .array _ => className ∈ arrayInterfaces
      | _ => false
  | .array targetElement =>
    match source with
    | .array element =>
      if element.isReference && targetElement.isReference then
        widensReference host unknown element targetElement
      else element = targetElement
    | _ => false
  | _ => false

/-- Whether a value can be passed as a type, by the strict or the lenient rule. -/
def accepts (host : Host) (strict : Bool) (source : StaticType) (target : FieldType) : Bool :=
  match source with
  | .void => false
  | .null => target.isReference
  | .value type =>
    type = target ||
      (if type.isPrimitive then target.isPrimitive && widens type target
       else target.isReference && host.widensReference (!strict) type target)

/-- The instructions by which an assignment converts a value. Constants fit into smaller types. -/
def coercion? (host : Host) (source : StaticType) (target : FieldType) (constant : Option Int32) :
    Option (List Instr) :=
  if host.accepts false source target then some (source.conversion target)
  else
    match source, constant with
    | .value type, some value =>
      if type.numeric? = some .int ∧ constantFits value target then some [] else none
    | _, _ => none

/-- The instructions by which an assignment converts the value of an expression. -/
def coercion (host : Host) (source : StaticType) (target : FieldType) (value : Expr) :
    Except SourceError (List Instr) :=
  match host.coercion? source target value.intConstant? with
  | some instrs => .ok instrs
  | none => .error (mistyped (conversionFault source target) (some value.position))

end Host

/-- What a cast takes: conversion of a number, or a check of the class of an object. -/
inductive CastPlan where
  | convert (instrs : List Instr)
  | check (className : String)

/-- What a cast of a value to a type takes, if it is possible. -/
def Host.castPlan? (host : Host) (source : StaticType) (target : FieldType) : Option CastPlan :=
  match source with
  | .void => none
  | .null => if target.isReference then some (.convert []) else none
  | .value type =>
    if type = target || type.isNumeric && target.isNumeric then
      some (.convert (conversion type target))
    else if type.isReference && target.isReference then
      if host.widensReference false type target then some (.convert [])
      else target.classConstant?.map .check
    else none

/-- A value that is used where an `int` has to be: an index or a length. -/
def requireInt (found : StaticType) (position : Position) : Except SourceError Unit :=
  match found with
  | .value type =>
    if type.numeric? = some .int then .ok ()
    else .error (mistyped (conversionFault found .int) (some position))
  | _ => .error (mistyped (conversionFault found .int) (some position))

/-- A condition has to be `boolean`. -/
def requireBoolean (found : StaticType) (position : Position) : Except SourceError Unit :=
  if found = .value .boolean then .ok ()
  else .error (mistyped (.inconvertible found (.value .boolean)) (some position))

/-- A value that is used at all must not be `void`. -/
def requireValue (found : StaticType) (position : Position) : Except SourceError Unit :=
  if found = .void then .error (mistyped .voidOperand (some position)) else .ok ()

end MethodPatch
