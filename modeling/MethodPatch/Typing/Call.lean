/-
**What names and calls mean.**

A name stands for a variable, a field or a class, and the name in a call for one of the methods of a
class.

* `Site.nameUse?`: simple names;
* `Site.member`: one step behind a point;
* `Place`: where a value can be stored;
* `Host.applicable`: the applicable candidates;
* `Host.select`: the method that is called;
* `Site.constructor`: the constructor of a new object. A class without known constructors is trusted
  to have one that fits.
-/

import MethodPatch.Scope
import MethodPatch.Typing.Assignable

namespace MethodPatch

/-! ### What names stand for

A simple name is a local variable, a field of the surrounding class or a class, in this order. A
dotted name is read from its front: as long as it names nothing it may be a package, behind a class
come its static fields, behind a value its fields. -/

/-- What a simple name stands for. -/
inductive NameUse where
  | variable (slot : Slot) (type : FieldType)
  | field (field : FieldRef)
  | classRef (className : String)

/-- What may stand in front of a point: the beginning of a longer name, a class, or a value. -/
inductive Qualifier where
  | package (name : String)
  | classRef (className : String)
  | value (type : StaticType)
  deriving DecidableEq

/-- A place that holds a value. The object that a field belongs to, or the array and the index of an
element, are operands on the stack. -/
inductive Place where
  | variable (slot : Slot) (type : FieldType)
  | field (field : FieldRef)
  | element (type : FieldType)
  deriving DecidableEq

/-- The type of the value in a place. -/
def Place.type : Place → FieldType
  | .variable _ type => type
  | .field found => found.type
  | .element type => type

/-- A member of what stands in front of a point. Reading a static field of a value drops the
value. -/
inductive Member where
  | package (name : String)
  | classRef (className : String)
  | length
  | field (field : FieldRef) (dropsValue : Bool)

/-- What a member is to the next point. -/
def Member.qualifier : Member → Qualifier
  | .package name => .package name
  | .classRef className => .classRef className
  | .length => .value (.value .int)
  | .field found _ => .value (.value found.type)

/-- An instance field that is used where there is no object. -/
def staticContext (what : String) (position : Position) : SourceError :=
  mistyped (.staticContext what) (some position)

/-- The value in front of a point, which is not a package or a class. `unknown` says what is wrong
with a name that stands for nothing. -/
def Qualifier.asValue (qualifier : Qualifier) (unknown : String → ReferenceFault)
    (position : Position) : Except SourceError StaticType :=
  match qualifier with
  | .value type => .ok type
  | .classRef className => .error (unresolved (.classAsValue className) (some position))
  | .package name => .error (unresolved (unknown name) (some position))

namespace Site

/-- What a simple name stands for. -/
def nameUse? (site : Site) (scope : Scope) (name : String) : Option NameUse :=
  match scope.binding? name with
  | some (slot, type) => some (.variable slot type)
  | none =>
    match site.host.field? site.method.className name with
    | some field => some (.field field)
    | none => (site.host.classNamed? name).map .classRef

/-- The type of `this`, which static methods do not have. `what` names what needs it. -/
def thisType (site : Site) (what : String) (position : Position) : Except SourceError StaticType :=
  if site.method.isStatic then .error (staticContext what position)
  else .ok (.value (.object site.method.className))

/-- A field without an object in front of it needs `this` unless it is static. -/
def checkImplicit (site : Site) (field : FieldRef) (name : String) (position : Position) :
    Except SourceError Unit :=
  if field.isStatic then .ok ()
  else (site.thisType ("variable " ++ name) position).map fun _ => ()

/-- What a simple name is to the next point. -/
def nameQualifier (site : Site) (scope : Scope) (name : String) (position : Position) :
    Except SourceError Qualifier :=
  match site.nameUse? scope name with
  | some (.variable _ type) => .ok (.value (.value type))
  | some (.field field) =>
    (site.checkImplicit field field.name position).map fun _ => .value (.value field.type)
  | some (.classRef className) => .ok (.classRef className)
  | none => .ok (.package name)

/-- The static field of a class. `missing` says what is wrong if there is no such field. -/
def staticField (site : Site) (owner name : String) (missing : ReferenceFault)
    (position : Position) : Except SourceError FieldRef :=
  match site.host.field? owner name with
  | some field =>
    if field.isStatic then .ok field
    else .error (staticContext ("variable " ++ name) position)
  | none => .error (unresolved missing (some position))

/-- A member of what stands in front of a point. -/
def member (site : Site) (qualifier : Qualifier) (name : String) (position : Position) :
    Except SourceError Member :=
  match qualifier with
  | .package front =>
    let whole := front ++ "." ++ name
    match site.host.classNamed? whole with
    | some className => .ok (.classRef className)
    | none => .ok (.package whole)
  | .classRef owner =>
    (site.staticField owner name (.unknownField name owner) position).map (.field · false)
  | .value (.value (.array _)) =>
    if name = "length" then .ok .length
    else .error (unresolved (.unknownVariable name) (some position))
  | .value (.value (.object owner)) =>
    match site.host.field? owner name with
    | some field => .ok (.field field field.isStatic)
    | none => .error (unresolved (.unknownField name owner) (some position))
  | .value type => .error (mistyped (.notDereferenceable type) (some position))

/-- The field behind a point that a value is stored in, and whether the value in front is
dropped. -/
def memberPlace (site : Site) (qualifier : Qualifier) (name : String) (position : Position) :
    Except SourceError (FieldRef × Bool) :=
  match qualifier with
  | .package front => .error (unresolved (.unknownName front) (some position))
  | .classRef owner =>
    (site.staticField owner name (.unknownVariable name) position).map (·, false)
  | .value (.value (.object owner)) =>
    match site.host.field? owner name with
    | some field => .ok (field, field.isStatic)
    | none => .error (unresolved (.unknownVariable name) (some position))
  | .value type =>
    .error (mistyped
      (match type with
        | .value (.array _) => if name = "length" then .finalLength else .notDereferenceable type
        | _ => .notDereferenceable type)
      (some position))

/-- The place that a simple name is. -/
def namePlace (site : Site) (scope : Scope) (name : String) (position : Position) :
    Except SourceError Place :=
  match site.nameUse? scope name with
  | some (.variable slot type) => .ok (.variable slot type)
  | some (.field field) => (site.checkImplicit field name position).map fun _ => .field field
  | _ => .error (unresolved (.unknownVariable name) (some position))

/-- The slot of an `int` variable that a name stands for. -/
def intVariable? (site : Site) (scope : Scope) : Expr → Option Slot
  | .name name _ =>
    match site.nameUse? scope name with
    | some (.variable slot .int) => some slot
    | _ => none
  | _ => none

end Site

/-- The elements of an array. -/
def elementType (array : StaticType) (position : Position) : Except SourceError FieldType :=
  match array with
  | .value (.array element) => .ok element
  | _ => .error (mistyped (.notAnArray array) (some position))

/-- The class that a written type names, with its brackets. -/
def Host.typeOf (host : Host) (type : TypeRef) : Except SourceError FieldType :=
  match type.base with
  | .primitive element => .ok (TypeRef.arrayType element type.dimensions.toNat)
  | .named name =>
    match host.classNamed? name with
    | some className => .ok (TypeRef.arrayType (.object className) type.dimensions.toNat)
    | none => .error (unresolved (.unknownClass name) type.position)

/-- The amount by which an assignment operator changes an `int` variable in place: a constant of
sixteen bits that is added or taken away. -/
def incrementBy? (op : Option ComputeOp) (value : Expr) : Option Int16 := do
  let amount ← value.intConstant?
  let delta ← match op with
    | some (.arithmetic .add) => some amount.toInt
    | some (.arithmetic .sub) => some (-amount.toInt)
    | _ => none
  if -32768 ≤ delta ∧ delta ≤ 32767 then some (Int16.ofInt delta) else none

/-! ### Which method a call means

Candidates are the methods of the right name. Those that take the arguments by the strict rule are
applicable or, if there are none, those that take them by the lenient rule. Of the applicable ones
the first is called that is as specific as all others, or the first of all. -/

/-- The types of arguments, as messages give them. -/
def argumentText (arguments : List StaticType) : String :=
  String.intercalate ", " (arguments.map StaticType.sourceName)

namespace Host

/-- Whether a method takes arguments, by the strict or the lenient rule. -/
def takes (host : Host) (strict : Bool) (arguments : List StaticType) (method : MethodRef) : Bool :=
  method.signature.parameters.length = arguments.length &&
    (arguments.zip method.signature.parameters).all fun (argument, parameter) =>
      host.accepts strict argument parameter

/-- The methods that take arguments: by the strict rule or, failing that, by the lenient one. -/
def applicable (host : Host) (candidates : List MethodRef) (arguments : List StaticType) :
    List MethodRef :=
  match candidates.filter (host.takes true arguments) with
  | [] => candidates.filter (host.takes false arguments)
  | strict => strict

/-- Whether a method is as specific as another: the other would take what it takes. -/
def isAsSpecific (host : Host) (method other : MethodRef) : Bool :=
  (method.signature.parameters.zip other.signature.parameters).all fun (mine, theirs) =>
    host.accepts true (.value mine) theirs

/-- The first method that is as specific as all others, or the first of all. -/
def mostSpecific? (host : Host) (methods : List MethodRef) : Option MethodRef :=
  (methods.find? fun method => methods.all (host.isAsSpecific method)) <|> methods.head?

/-- The candidate that a call with arguments means. -/
def select (host : Host) (candidates : List MethodRef) (name : String)
    (arguments : List StaticType) (position : Position) : Except SourceError MethodRef :=
  if candidates.isEmpty then
    .error (unresolved (.unknownMethod name (argumentText arguments)) (some position))
  else
    match host.mostSpecific? (host.applicable candidates arguments) with
    | some method => .ok method
    | none => .error (mistyped (.noSuitableMethod name (argumentText arguments)) (some position))

end Host

/-- What a method is called on: nothing in front of its name, a class, or an object on the stack. -/
inductive Receiver where
  | implicit
  | classRef
  | object
  deriving DecidableEq

/-- The class whose method is called, given what stands in front of the point. Arrays have the
methods of `Object`. -/
def Qualifier.receiver (qualifier : Qualifier) (position : Position) :
    Except SourceError (String × Receiver) :=
  match qualifier with
  | .package name => .error (unresolved (.unknownName name) (some position))
  | .classRef className => .ok (className, .classRef)
  | .value (.value (.object className)) => .ok (className, .object)
  | .value (.value (.array _)) => .ok (objectClass, .object)
  | .value type => .error (mistyped (.notDereferenceable type) (some position))

namespace Site

/-- The method that a call means. An instance method needs an object to be called on. -/
def calledMethod (site : Site) (owner : String) (receiver : Receiver) (name : String)
    (arguments : List StaticType) (position : Position) : Except SourceError MethodRef := do
  let method ← site.host.select (site.host.methods owner name) name arguments position
  if !method.isStatic && (receiver = .classRef || receiver = .implicit && site.method.isStatic) then
    throw (staticContext ("method " ++ method.text) position)
  return method

/-- The class of which an object is made. -/
def instantiated (site : Site) (type : TypeRef) (position : Position) :
    Except SourceError String := do
  let type ← site.host.typeOf type
  match type with
  | .object className =>
    if site.host.isInterface className then
      throw (mistyped (.notInstantiable type) (some position))
    return className
  | _ => throw (mistyped (.notInstantiable type) (some position))

/-- A parameter that takes an argument as it is. -/
def parameterFor : StaticType → FieldType
  | .value type => type
  | _ => .object objectClass

/-- The constructor that a new object is made by. -/
def constructor (site : Site) (className : String) (arguments : List StaticType)
    (position : Position) : Except SourceError MethodRef :=
  match site.host.methods className constructorName with
  | [] => .ok ⟨className, constructorName, ⟨arguments.map parameterFor, none⟩, false, false⟩
  | candidates => site.host.select candidates constructorName arguments position

end Site

/-- The type of a call. -/
def MethodRef.resultType (method : MethodRef) : StaticType :=
  match method.signature.result with
  | some type => .value type
  | none => .void

end MethodPatch
