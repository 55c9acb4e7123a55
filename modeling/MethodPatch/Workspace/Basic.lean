/-
**The classes that a patch can see.**

A workspace is the resource under edit and its libraries; behind them are the platform classes,
which every workspace sees. A class is looked up in this order, and the first of its name counts.

* `Workspace.find?`: the class of an internal name;
* `MethodEntry.record`: the locals of a method, from its table or else from its signature.
-/

import MethodPatch.Host.Basic
import MethodPatch.Locals.Allocator

namespace MethodPatch

/-- A field of a class, with its type as a descriptor. -/
structure FieldEntry where
  name : String
  descriptor : String
  isStatic : Bool
  deriving DecidableEq, Inhabited

/-- A method or a constructor of a class, with its signature as a descriptor. -/
structure MethodEntry where
  name : String
  descriptor : String
  isStatic : Bool
  isPrivate : Bool
  maxLocals : Option UInt16
  locals : List LocalRecord
  deriving DecidableEq, Inhabited

/-- A class or an interface. Other classes are named by their internal names. -/
structure ClassEntry where
  name : String
  parent : Option String
  interfaces : List String
  isInterface : Bool
  fields : List FieldEntry
  methods : List MethodEntry
  poolCount : UInt16
  deriving DecidableEq, Inhabited

/-- A named collection of classes. -/
structure Resource where
  name : String
  classes : List ClassEntry
  deriving DecidableEq, Inhabited

/-- The resource under edit and its libraries. -/
structure Workspace where
  primary : Resource
  libraries : List Resource
  deriving DecidableEq, Inhabited

/-- The package of a class, which is empty for a name without slashes. -/
def packageOf (className : String) : String :=
  String.ofList (((className.toList.reverse.dropWhile (· ≠ '/')).drop 1).reverse)

/-- The name of a class without its package. -/
def simpleName (className : String) : String :=
  String.ofList (className.toList.reverse.takeWhile (· ≠ '/')).reverse

namespace MethodEntry

/-- The signature of a method. -/
def signature (method : MethodEntry) : Except PatchError Signature :=
  (Signature.ofDescriptor? method.descriptor).mapError fun error =>
    .badRecord (.signature method.name error)

/-- The locals of a method of a class. A method has the slots of its parameters at least. -/
def record (method : MethodEntry) (owner : String) : Except PatchError MethodRecord :=
  method.signature.map fun signature =>
    let derived := MethodRecord.ofSignature owner method.isStatic signature
    { maxLocals := max derived.maxLocals (method.maxLocals.getD 0)
      locals := if method.locals = [] then derived.locals else method.locals }

end MethodEntry

namespace ClassEntry

/-- The class and the interfaces that a class is derived from, in order. -/
def supertypes (entry : ClassEntry) : List String := entry.parent.toList ++ entry.interfaces

/-- The field of a name that a class declares. -/
def field? (entry : ClassEntry) (name : String) : Option FieldEntry :=
  entry.fields.find? fun field => field.name = name

/-- The method of a name and a descriptor that a class declares. -/
def method? (entry : ClassEntry) (name descriptor : String) : Option MethodEntry :=
  entry.methods.find? fun method => method.name = name ∧ method.descriptor = descriptor

end ClassEntry

end MethodPatch
