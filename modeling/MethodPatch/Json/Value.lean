/-
**Writing JSON.**

Values are written over several lines: what is inside an array or an object is indented by two
blanks, one part to a line; without parts both are written in one piece. In texts the quote, the
backslash and the control characters are escaped.

* `Value.pretty`: the text of a value.
-/

namespace MethodPatch.Json

/-- A value to be written. The members of an object keep their order. -/
inductive Value where
  | null
  | boolean (value : Bool)
  | natural (value : Nat)
  | text (value : String)
  | array (items : List Value)
  | object (members : List (String × Value))
  deriving Inhabited

/-- A digit of a hexadecimal number. -/
def hexDigit (value : Nat) : Char := Nat.digitChar (value % 16)

/-- The way one character is written in a text. -/
def escaped (c : Char) : String :=
  match c with
  | '"' => "\\\""
  | '\\' => "\\\\"
  | '\n' => "\\n"
  | '\r' => "\\r"
  | '\t' => "\\t"
  | '\x08' => "\\b"
  | '\x0c' => "\\f"
  | _ =>
    if c < ' ' then "\\u00" ++ String.ofList [hexDigit (c.toNat / 16), hexDigit c.toNat]
    else c.toString

/-- A text in quotes. -/
def quoted (text : String) : String := "\"" ++ String.join (text.toList.map escaped) ++ "\""

/-- The line breaks between parts that are indented to a depth. -/
def newLine (depth : Nat) : String := "\n" ++ String.join (List.replicate depth "  ")

/-- Parts between two brackets, one to a line. -/
def bracketed (depth : Nat) (opening closing : String) (parts : List String) : String :=
  if parts = [] then opening ++ closing
  else
    opening ++ newLine (depth + 1) ++
      String.intercalate ("," ++ newLine (depth + 1)) parts ++ newLine depth ++ closing

mutual

/-- The text of a value at a depth. -/
def Value.render (depth : Nat) : Value → String
  | .null => "null"
  | .boolean value => if value then "true" else "false"
  | .natural value => toString value
  | .text value => quoted value
  | .array items => bracketed depth "[" "]" (renderItems (depth + 1) items)
  | .object members => bracketed depth "\x7b" "\x7d" (renderMembers (depth + 1) members)

/-- The texts of the items of an array. -/
def renderItems (depth : Nat) : List Value → List String
  | [] => []
  | first :: rest => first.render depth :: renderItems depth rest

/-- The texts of the members of an object. -/
def renderMembers (depth : Nat) : List (String × Value) → List String
  | [] => []
  | (key, value) :: rest =>
    (quoted key ++ ": " ++ value.render depth) :: renderMembers depth rest

end

/-- The text of a value. -/
def Value.pretty (value : Value) : String := value.render 0

end MethodPatch.Json
