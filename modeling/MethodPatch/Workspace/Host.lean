/-
**A workspace as the host of code.**

What code of a class can name in a workspace, and the method of the class that is under edit.

* `Workspace.host`: the look-ups of code in a class;
* `Target.ofMethod?`: a target from a method written as its name and descriptor;
* `Target.site`, `Target.pool`, `Target.record`: what a generator and a session need of the method.
-/

import MethodPatch.Host.Basic
import MethodPatch.Workspace.Hierarchy

namespace MethodPatch.Workspace

/-! ### A workspace as the host of code

Code of a class names other classes by their simple names or by their dotted names, and it uses the
fields and methods that classes have or inherit. Of methods with one name and descriptor the one
nearest to the class counts; private ones are for the class itself. -/

/-- The only value of a list whose values are all the same. -/
def only? {α : Type} [DecidableEq α] : List α → Option α
  | [] => none
  | first :: rest => if rest.all (· = first) then some first else none

/-- The class that a name stands for in a class. A name with dots or slashes names it in full. A
simple name is looked for in the package of the class, then in `java.lang`, then everywhere; the
last way only counts if it leads to one name. -/
def classNamed? (workspace : Workspace) (className name : String) : Option String :=
  let package := packageOf className
  if name.toList.any fun c => c = '.' ∨ c = '/' then
    (workspace.find? (String.ofList (dotsToSlashes name.toList))).map ClassEntry.name
  else
    let near := if package = "" then name else package ++ "/" ++ name
    ((workspace.find? near <|> workspace.find? ("java/lang/" ++ name)).map ClassEntry.name) <|>
      only? ((workspace.classes.map ClassEntry.name).filter fun found => simpleName found = name)

/-- A declared field as code refers to it, if its descriptor makes sense. -/
def fieldRef? (entry : ClassEntry) (field : FieldEntry) : Option FieldRef :=
  match FieldType.ofDescriptor? field.descriptor with
  | .ok type => some ⟨entry.name, field.name, type, field.isStatic⟩
  | .error _ => none

/-- The field that a class has or inherits. -/
def fieldOf? (workspace : Workspace) (owner name : String) : Option FieldRef :=
  (workspace.hierarchy owner).findSome? fun entry => (entry.field? name).bind (fieldRef? entry)

/-- A declared method as code refers to it, if its descriptor makes sense. An instance method is
looked for in the class that it is called on. -/
def methodRef? (owner : String) (entry : ClassEntry) (method : MethodEntry) : Option MethodRef :=
  match Signature.ofDescriptor? method.descriptor with
  | .ok signature =>
    some ⟨if method.isStatic then entry.name else owner, method.name, signature, method.isStatic,
      method.isPrivate⟩
  | .error _ => none

/-- Whether code of a class may call a declared method. -/
def isAccessible (className : String) (entry : ClassEntry) (method : MethodEntry) : Bool :=
  !method.isPrivate || entry.name == className

/-- Declarations without those that come after one with the same descriptor. -/
def overriding (seen : List String) :
    List (ClassEntry × MethodEntry) → List (ClassEntry × MethodEntry)
  | [] => []
  | (entry, method) :: rest =>
    if method.descriptor ∈ seen then overriding seen rest
    else (entry, method) :: overriding (method.descriptor :: seen) rest

/-- The declarations of a method name that a class has or inherits. Constructors are not
inherited. -/
def declarations (workspace : Workspace) (owner name : String) : List (ClassEntry × MethodEntry) :=
  let classes :=
    if name = constructorName then (workspace.find? owner).toList else workspace.hierarchy owner
  classes.flatMap fun entry =>
    (entry.methods.filter fun method => method.name = name).map fun method => (entry, method)

/-- The methods of a class that code of another class may call. -/
def methodsOf (workspace : Workspace) (className owner name : String) : List MethodRef :=
  (overriding [] (workspace.declarations owner name)).filterMap fun (entry, method) =>
    if isAccessible className entry method then methodRef? owner entry method else none

/-- The look-ups of code in a class. -/
def host (workspace : Workspace) (className : String) : Host where
  classNamed? := workspace.classNamed? className
  field? := workspace.fieldOf?
  methods := workspace.methodsOf className
  isInterface owner := (workspace.find? owner).any ClassEntry.isInterface
  isSubclass? := workspace.isSubclass?

end MethodPatch.Workspace

namespace MethodPatch

/-! ### The method under edit

A target names a method of a class in a workspace. The workspace may be read again while it is open;
each reading has a number, and targets of different readings are different targets, also when the
classes are the same. -/

/-- A method of a class in a workspace. -/
structure Target where
  workspace : Workspace
  reading : Nat
  className : String
  methodName : String
  descriptor : String
  deriving DecidableEq

namespace Target

/-- The target of a class name, in its internal spelling or with dots, and a method. -/
def named (workspace : Workspace) (reading : Nat) (className methodName descriptor : String) :
    Target :=
  ⟨workspace, reading, String.ofList (dotsToSlashes className.toList), methodName, descriptor⟩

/-- The target of a method whose descriptor is written behind its name. -/
def ofMethod? (workspace : Workspace) (reading : Nat) (className method : String) :
    Except PatchError Target :=
  if '(' ∈ method.toList then
    .ok (named workspace reading className
      (String.ofList (method.toList.takeWhile (· ≠ '(')))
      (String.ofList (method.toList.dropWhile (· ≠ '('))))
  else .error (.noTarget (.malformedMethod method))

/-- The same method of the same reading of the workspace. -/
def same (first second : Target) : Bool :=
  first.reading = second.reading && first.className = second.className &&
    first.methodName = second.methodName && first.descriptor = second.descriptor

/-- The class under edit. -/
def entry (target : Target) : Except PatchError ClassEntry :=
  match target.workspace.find? target.className with
  | some entry => .ok entry
  | none => .error (.noTarget (.missingClass target.className))

/-- The declaration of the method under edit. -/
def method (target : Target) : Except PatchError MethodEntry :=
  target.entry.bind fun entry =>
    match entry.method? target.methodName target.descriptor with
    | some method => .ok method
    | none =>
      .error (.noTarget (.missingMethod target.className target.methodName target.descriptor))

/-- The method under edit as code sees it. -/
def context (target : Target) : Except PatchError MethodContext := do
  let method ← target.method
  let signature ← method.signature
  return ⟨target.className, target.methodName, signature, method.isStatic⟩

/-- The method under edit and what its code can refer to. -/
def site (target : Target) : Except PatchError Site :=
  target.context.map fun method => ⟨method, target.workspace.host target.className⟩

/-- The locals of the method under edit. -/
def record (target : Target) : Except PatchError MethodRecord :=
  target.method.bind fun method => method.record target.className

/-- The constants of the class under edit. -/
def pool (target : Target) : Except PatchError Pool :=
  target.entry.map fun entry => .ofReserved entry.poolCount

end Target

end MethodPatch
