/-
**Workspaces as JSON values.**

The form in which workspaces are described, with all fields in their order.
-/

import MethodPatch.Workspace.Basic
import MethodPatch.Json.Value

namespace MethodPatch

open Json (Value)

/-- A value that may be missing. -/
def optionalValue {α : Type} (write : α → Value) (value : Option α) : Value :=
  (value.map write).getD .null

/-- A word as a number. -/
def wordValue (word : UInt16) : Value := .natural word.toNat

/-- A local of a local variable table. -/
def LocalRecord.toValue (entry : LocalRecord) : Value :=
  .object [("name", .text entry.name), ("index", wordValue entry.slot),
    ("descriptor", .text entry.descriptor)]

/-- A field of a class. -/
def FieldEntry.toValue (field : FieldEntry) : Value :=
  .object [("name", .text field.name), ("descriptor", .text field.descriptor),
    ("is_static", .boolean field.isStatic)]

/-- A method of a class. -/
def MethodEntry.toValue (method : MethodEntry) : Value :=
  .object [("name", .text method.name), ("descriptor", .text method.descriptor),
    ("is_static", .boolean method.isStatic), ("is_private", .boolean method.isPrivate),
    ("max_locals", optionalValue wordValue method.maxLocals),
    ("locals", .array (method.locals.map LocalRecord.toValue))]

/-- A class. -/
def ClassEntry.toValue (entry : ClassEntry) : Value :=
  .object [("name", .text entry.name), ("super_name", optionalValue .text entry.parent),
    ("interfaces", .array (entry.interfaces.map .text)),
    ("is_interface", .boolean entry.isInterface),
    ("fields", .array (entry.fields.map FieldEntry.toValue)),
    ("methods", .array (entry.methods.map MethodEntry.toValue)),
    ("constant_pool_count", wordValue entry.poolCount)]

/-- A resource. -/
def Resource.toValue (resource : Resource) : Value :=
  .object [("name", .text resource.name),
    ("classes", .array (resource.classes.map ClassEntry.toValue))]

/-- A workspace. -/
def Workspace.toValue (workspace : Workspace) : Value :=
  .object [("primary", workspace.primary.toValue),
    ("libraries", .array (workspace.libraries.map Resource.toValue))]

end MethodPatch
