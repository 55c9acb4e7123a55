/-
**What a session shows.**

A fragment is shown as lines of text or as JSON, with a listing of its code if that is wanted, and
the locals of a session as a table.

* `View.render`: a fragment;
* `Session.symbolLines`: the locals.
-/

import MethodPatch.Code.Listing
import MethodPatch.Json.Value
import MethodPatch.Patch.Session
import MethodPatch.Text.Plain

namespace MethodPatch

/-- A constant with its index. -/
def constantLine (entry : Nat × Constant) : String :=
  "#" ++ toString entry.1 ++ " = " ++ entry.2.text

namespace Fragment

/-- The added constants, one to a line. -/
def constantLines (fragment : Fragment) : List String := fragment.newConstants.map constantLine

/-- A fragment as JSON. -/
def toValue (fragment : Fragment) : Json.Value :=
  .object
    [("bytecode", .text fragment.hex), ("max_locals", .natural fragment.maxLocals.toNat),
      ("max_stack", .natural fragment.maxStack),
      ("introduced", .array (fragment.introduced.map fun entry => .object
        [("name", .text entry.name), ("slot", .natural entry.slot.toNat),
          ("width", .natural entry.width), ("descriptor", .text entry.type.descriptor)])),
      ("constants", .array (fragment.constantLines.map .text)),
      ("line_numbers", .array (fragment.lines.map fun (offset, line) =>
        .array [.natural offset, .natural line]))]

/-- The line that introduces a local. -/
def introducedLine (entry : Local) : String :=
  "  " ++ entry.type.descriptor ++ " " ++ entry.name ++ " @ " ++ toString entry.slot.toNat

/-- Lines under a heading, which is left out when there are none. -/
def headed (heading : String) (lines : List String) : List String :=
  if lines = [] then [] else heading :: lines

/-- A fragment as lines of text. -/
def lineTexts (fragment : Fragment) : List String :=
  ["bytecode: " ++ fragment.hex, "max_locals: " ++ toString fragment.maxLocals.toNat,
      "max_stack: " ++ toString fragment.maxStack] ++
    headed "introduced:" (fragment.introduced.map introducedLine) ++
    headed "constants:" (fragment.constantLines.map ("  " ++ ·))

/-- The line table in one line. -/
def lineTableText (fragment : Fragment) : String :=
  "lines: " ++ String.intercalate " "
    (fragment.lines.map fun (offset, line) => toString offset ++ ":" ++ toString line)

end Fragment

/-- How fragments are shown. -/
structure View where
  withListing : Bool
  asJson : Bool
  deriving DecidableEq

/-- A fragment as it is shown, given the listing of the last pass. -/
def View.render (view : View) (listing : Option String) (fragment : Fragment) : String :=
  if view.asJson then fragment.toValue.pretty
  else
    Text.unlines fragment.lineTexts ++
      match listing with
      | some text =>
        if view.withListing then "code:\n" ++ text ++ Text.unlines [fragment.lineTableText] else ""
      | none => ""

namespace Session

/-- The listing of the last pass. -/
def listing (session : Session) : Option String :=
  session.hook.installed.map fun installed => installed.generation.generator.body.listingText

/-- The known locals, one to a line, and the first slot that is free. -/
def symbolLines (session : Session) : List String :=
  (session.allocator.bySlot.map fun entry =>
      padLeft 4 (toString entry.slot.toNat) ++ "  " ++ entry.type.sourceName ++ " " ++ entry.name) ++
    ["next free slot: " ++ toString session.allocator.next]

/-- The known locals as a text, which a name can break into more lines. -/
def symbolText (session : Session) : String := Text.unlines session.symbolLines

end Session

end MethodPatch
