/-
**The names of types in source text.**

Source text spells a class with dots between its packages and an array with a pair of brackets
behind its component. `FieldType.sourceName` writes this form, `FieldType.ofSourceName?` reads it
and also takes a class in its internal spelling.

The type of an expression is a field type, the type of `null`, which every reference takes, or nothing
at all for a call without a result; `StaticType.sourceName` is its name in messages.
-/

import MethodPatch.Text.Plain
import MethodPatch.Types.FieldType

namespace MethodPatch

/-- The internal name of a class, from a spelling with dots. -/
def dotsToSlashes (name : List Char) : List Char := name.map fun c => if c = '.' then '/' else c

/-- The spelling of a class with dots, from its internal name. -/
def slashesToDots (name : List Char) : List Char := name.map fun c => if c = '/' then '.' else c

/-- The spelling with dots of an internal class name. -/
def dottedName (className : String) : String := String.ofList (slashesToDots className.toList)

namespace FieldType

/-- The form of a type in source text and in messages. -/
def sourceName : FieldType → String
  | .boolean => "boolean"
  | .byte => "byte"
  | .char => "char"
  | .short => "short"
  | .int => "int"
  | .long => "long"
  | .float => "float"
  | .double => "double"
  | .object className => dottedName className
  | .array component => sourceName component ++ "[]"

/-- The primitive type of a keyword. -/
def ofKeyword? : String → Option FieldType
  | "boolean" => some .boolean
  | "byte" => some .byte
  | "char" => some .char
  | "short" => some .short
  | "int" => some .int
  | "long" => some .long
  | "float" => some .float
  | "double" => some .double
  | _ => none

/-- The type of a name without brackets: a keyword or a class, but not `void` and not nothing. -/
def ofPlainName? (name : List Char) : Option FieldType :=
  match ofKeyword? (String.ofList name) with
  | some type => some type
  | none =>
    if name = [] ∨ name = "void".toList then none
    else some (.object (String.ofList (dotsToSlashes name)))

/-- The type of a name read from its end: blanks are dropped and pairs of brackets counted. -/
def ofReversedName? : List Char → Option FieldType
  | ']' :: '[' :: front => (ofReversedName? front).map .array
  | last :: front =>
    if Text.isBlank last then ofReversedName? front
    else ofPlainName? (Text.trimStart (last :: front).reverse)
  | [] => none

/-- The type of a name in source text, whatever blanks surround it and its brackets. -/
def ofSourceName? (name : String) : Option FieldType := ofReversedName? name.toList.reverse

end FieldType

/-! ### Types of expressions -/

/-- What is known about the value of an expression. -/
inductive StaticType where
  | void
  | null
  | value (type : FieldType)
  deriving DecidableEq, Inhabited

namespace StaticType

/-- The name of the type in messages. -/
def sourceName : StaticType → String
  | .void => "void"
  | .null => "<null>"
  | .value type => type.sourceName

/-- The slots of a value of the type. -/
def width : StaticType → Nat
  | .void => 0
  | .null => 1
  | .value type => type.width

end StaticType

end MethodPatch
