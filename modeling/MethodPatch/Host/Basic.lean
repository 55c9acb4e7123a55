/-
**What code can refer to.**

Everything beyond the local variables of a fragment is looked up in a host: classes by the names
that source text gives them, fields and methods by the classes that have or inherit them. A host
need not know how two classes are related.

Code goes into a method. A site is this method and the host that its code can refer to. The slots in
front belong to `this`, unless the method is static, and to the parameters.

* `FieldRef`, `MethodRef`: members as code refers to them;
* `Host.detached`: a host that knows the names of some classes and nothing about them;
* `Site`: a method and its host.
-/

import MethodPatch.Types.Signature
import MethodPatch.Types.SourceName

namespace MethodPatch

/-! ### Members of classes -/

/-- A field, with the internal name of the class that declares it. -/
structure FieldRef where
  owner : String
  name : String
  type : FieldType
  isStatic : Bool
  deriving DecidableEq

/-- A method or a constructor, with the internal name of the class that declares it or, for an instance
method, of the class that it was looked for in. -/
structure MethodRef where
  owner : String
  name : String
  signature : Signature
  isStatic : Bool
  isPrivate : Bool
  deriving DecidableEq

/-- The name that constructors go by. -/
def constructorName : String := "<init>"

/-- The name and the parameter types of a method, as messages give them. -/
def MethodRef.text (method : MethodRef) : String :=
  method.name ++ "(" ++
    String.intercalate ", " (method.signature.parameters.map FieldType.sourceName) ++ ")"

/-! ### Look-ups -/

/-- The class that every other one extends. -/
def objectClass : String := "java/lang/Object"

/-- Look-ups of classes and their members. Classes go by their internal names but for the argument
of `classNamed?`, which is a name in source text. -/
structure Host where
  /-- The class of a simple or a dotted name. -/
  classNamed? : (name : String) → Option String
  /-- The field that a class has or inherits. -/
  field? : (owner name : String) → Option FieldRef
  /-- The methods that a class has or inherits. -/
  methods : (owner name : String) → List MethodRef
  /-- Whether a class is an interface. -/
  isInterface : (owner : String) → Bool
  /-- Whether a class is, extends or implements another; absent if that is not known. -/
  isSubclass? : (className ancestor : String) → Option Bool

/-- What is known of any two classes: each is itself, and all extend `Object`. -/
def isPlainSubclass? (className ancestor : String) : Option Bool :=
  if className = ancestor ∨ ancestor = objectClass then some true else none

/-- Classes of the package `java.lang` that need not be looked up. -/
def coreClasses : List String :=
  ["Object", "String", "StringBuilder", "System", "Math", "Integer", "Long", "Float", "Double",
    "Boolean", "Character", "Byte", "Short", "Thread", "Throwable", "Exception",
    "RuntimeException", "IllegalStateException", "IllegalArgumentException"]

/-- A host without classes: every dotted name is a class, and some simple names are. -/
def Host.detached : Host where
  classNamed? name :=
    if '.' ∈ name.toList then some (String.ofList (dotsToSlashes name.toList))
    else if name ∈ coreClasses then some ("java/lang/" ++ name)
    else none
  field? _ _ := none
  methods _ _ := []
  isInterface _ := false
  isSubclass? := isPlainSubclass?

/-! ### The method that code goes into -/

/-- A method that code can be put into. -/
structure MethodContext where
  className : String
  name : String
  signature : Signature
  isStatic : Bool
  deriving DecidableEq

namespace MethodContext

/-- A static method `run` of a class `Patch`. -/
def detached : MethodContext := ⟨"Patch", "run", ⟨[], none⟩, true⟩

/-- The slots of `this`, unless the method is static, and of the parameters. -/
def slots (method : MethodContext) : Nat :=
  method.signature.slots + if method.isStatic then 0 else 1

/-- The first slot that neither `this` nor a parameter takes, counted in 16 bits. -/
def firstFreeSlot (method : MethodContext) : UInt16 :=
  method.signature.parameterSlots + if method.isStatic then 0 else 1

theorem toNat_firstFreeSlot (method : MethodContext) :
    method.firstFreeSlot.toNat = method.slots % 65536 := by
  rw [firstFreeSlot, slots, UInt16.toNat_add, Signature.toNat_parameterSlots, Nat.mod_add_mod]
  cases method.isStatic <;> rfl

end MethodContext

/-- A method and what its code can refer to. -/
structure Site where
  method : MethodContext
  host : Host

/-- A method on its own. -/
def Site.detached : Site := ⟨.detached, .detached⟩

end MethodPatch
