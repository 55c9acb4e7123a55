/-
**Descriptions of workspaces.**

A workspace and the local variable table of a method are described in JSON, by records with the
fields below. Of a resource the name is required, of a member and a local the name and the
descriptor, and everything else may be left out.
-/

import MethodPatch.Workspace.Basic
import MethodPatch.Json.Decode

namespace MethodPatch

open Json (Fault Decoder)
open Json.Decode (required defaulted list optional string boolean word)

/-- A local of a local variable table. -/
def LocalRecord.decode : Decoder LocalRecord :=
  Json.Decode.record ⟨"", 0, ""⟩
    [required "name" string fun entry name => { entry with name },
      required "index" word fun entry slot => { entry with slot },
      required "descriptor" string fun entry descriptor => { entry with descriptor }]

/-- A local variable table. -/
def MethodRecord.decode : Decoder MethodRecord :=
  Json.Decode.record ⟨0, []⟩
    [defaulted "max_locals" word fun record count => { record with maxLocals := count },
      defaulted "locals" (list LocalRecord.decode) fun record locals => { record with locals }]

/-- A field of a class. -/
def FieldEntry.decode : Decoder FieldEntry :=
  Json.Decode.record ⟨"", "", false⟩
    [required "name" string fun field name => { field with name },
      required "descriptor" string fun field descriptor => { field with descriptor },
      defaulted "is_static" boolean fun field isStatic => { field with isStatic }]

/-- A method of a class. -/
def MethodEntry.decode : Decoder MethodEntry :=
  Json.Decode.record ⟨"", "", false, false, none, []⟩
    [required "name" string fun method name => { method with name },
      required "descriptor" string fun method descriptor => { method with descriptor },
      defaulted "is_static" boolean fun method isStatic => { method with isStatic },
      defaulted "is_private" boolean fun method isPrivate => { method with isPrivate },
      defaulted "max_locals" (optional word) fun method maxLocals => { method with maxLocals },
      defaulted "locals" (list LocalRecord.decode) fun method locals => { method with locals }]

/-- A class. -/
def ClassEntry.decode : Decoder ClassEntry :=
  Json.Decode.record ⟨"", none, [], false, [], [], 0⟩
    [required "name" string fun entry name => { entry with name },
      defaulted "super_name" (optional string) fun entry parent => { entry with parent },
      defaulted "interfaces" (list string) fun entry interfaces => { entry with interfaces },
      defaulted "is_interface" boolean fun entry isInterface => { entry with isInterface },
      defaulted "fields" (list FieldEntry.decode) fun entry fields => { entry with fields },
      defaulted "methods" (list MethodEntry.decode) fun entry methods => { entry with methods },
      defaulted "constant_pool_count" word fun entry poolCount => { entry with poolCount }]

/-- A resource. -/
def Resource.decode : Decoder Resource :=
  Json.Decode.record ⟨"", []⟩
    [required "name" string fun resource name => { resource with name },
      defaulted "classes" (list ClassEntry.decode) fun resource classes => { resource with classes }]

/-- A workspace. -/
def Workspace.decode : Decoder Workspace :=
  Json.Decode.record ⟨⟨"", []⟩, []⟩
    [required "primary" Resource.decode fun workspace primary => { workspace with primary },
      defaulted "libraries" (list Resource.decode) fun workspace libraries =>
        { workspace with libraries }]

/-- The workspace that a text describes. -/
def Workspace.ofText (text : String) : Except Fault Workspace := Json.Decode.text decode text

/-- The local variable table that a text describes. -/
def MethodRecord.ofText (text : String) : Except Fault MethodRecord := Json.Decode.text decode text

end MethodPatch
