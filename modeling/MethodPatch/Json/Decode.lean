/-
**Reading values from JSON.**

A text is read into a node, and a decoder takes a value of a wanted shape out of it.

* `Node.ofText`: the node of a text and what is behind it;
* `Decode.record`: records by the list of their fields;
* `Decode.text`: the value of a whole text.
-/

import MethodPatch.Json.Scalar

namespace MethodPatch.Json

/-! ### Reading JSON

A value is a word, a number, a text, an array or an object. What is read comes with the text behind
it, unless it is broken off. -/

/-- What was read, and the text behind it if it is whole. -/
abbrev Read (bound : Nat) (α : Type) := α × Option (Shorter bound)

/-- The rest of a word, of which the first letter is read, with the node that it stands for. -/
def readWord (node : Node) (word text : List Char) : Read (text.length + 1) Node :=
  match taken : wordFrom word text with
  | .ok rest => (node, some ⟨rest, Nat.lt_succ_of_le (wordFrom_length taken)⟩)
  | .error fault => (.broken (.both fault), none)

/-- A number without its sign. -/
def readNumber (negative : Bool) (text : List Char) : Read text.length Node :=
  match taken : numberFrom negative text with
  | .ok (node, rest) => (node, some ⟨rest, numberFrom_length taken⟩)
  | .error place => (.broken place, none)

/-- A text behind its first quote: what it spells, if it spells something, or where it breaks
off. -/
def readText (text : List Char) : Read text.length (Except Break (Option String)) :=
  let read := (pieces text).1
  match taken : (pieces text).2 with
  | .ok rest =>
    (.ok ((spelling none read).toOption.map String.ofList), some ⟨rest, pieces_length taken⟩)
  | .error fault =>
    let wanted := match spelling (some fault) read with
      | .error first => first
      | .ok _ => fault
    (.error ⟨wanted, fault⟩, none)

/-- The value of a text. -/
def textNode : Except Break (Option String) → Node
  | .ok (some value) => .text value
  | .ok none => .valueless
  | .error place => .broken place

/-- A value that is no array and no object, from its first character on. -/
def readScalar (c : Char) (text : List Char) : Read (text.length + 1) Node :=
  let widen {α : Type} (read : Read text.length α) : Read (text.length + 1) α :=
    (read.1, read.2.map fun rest => ⟨rest.1, Nat.lt_succ_of_lt rest.2⟩)
  match c with
  | 'n' => readWord .null "ull".toList text
  | 't' => readWord (.boolean true) "rue".toList text
  | 'f' => readWord (.boolean false) "alse".toList text
  | '"' =>
    let read := widen (readText text)
    (textNode read.1, read.2)
  | '-' => widen (readNumber true text)
  | _ =>
    if c.isDigit then readNumber false (c :: text)
    else (.broken (.both .malformed), none)

/-- The text behind blanks and one character. -/
theorem tail_length {text rest : List Char} {c : Char} (found : trimStart text = c :: rest) :
    rest.length < text.length := by
  have := trimStart_length text
  rw [found, List.length_cons] at this
  omega

mutual

/-- A value. -/
def readValue (text : List Char) : Read text.length Node :=
  match found : trimStart text with
  | [] => (.broken (.both .endOfText), none)
  | c :: rest =>
    have := tail_length found
    if c = '[' then
      match closing : trimStart rest with
      | [] => (.array [] (some (.both .endOfText)), none)
      | d :: behind =>
        if d = ']' then (.array [] none, some ⟨behind, by have := tail_length closing; omega⟩)
        else
          let ((items, ending), behind) := readItems rest
          (.array items ending, behind.map fun rest => ⟨rest.1, by have := rest.2; omega⟩)
    else if c = '{' then
      match closing : trimStart rest with
      | [] => (.object [] (some (.both .endOfText)), none)
      | d :: behind =>
        if d = '}' then (.object [] none, some ⟨behind, by have := tail_length closing; omega⟩)
        else
          let ((members, ending), behind) := readMembers rest
          (.object members ending, behind.map fun rest => ⟨rest.1, by have := rest.2; omega⟩)
    else
      let (node, behind) := readScalar c rest
      (node, behind.map fun rest => ⟨rest.1, by have := rest.2; omega⟩)
termination_by (text.length, 0)

/-- The items of an array up to its end, and the break where the array is not closed. -/
def readItems (text : List Char) : Read text.length (List Node × Option Break) :=
  match readValue text with
  | (node, none) => (([node], none), none)
  | (node, some ⟨rest, _⟩) =>
    match found : trimStart rest with
    | [] => (([node], some (.both .endOfText)), none)
    | c :: behind =>
      have := tail_length found
      if c = ']' then (([node], none), some ⟨behind, by omega⟩)
      else if c = ',' then
        let ((nodes, ending), behind) := readItems behind
        ((node :: nodes, ending), behind.map fun rest => ⟨rest.1, by have := rest.2; omega⟩)
      else (([node], some (.both .malformed)), none)
termination_by (text.length, 1)

/-- The members of an object up to its end, and the break where the object is not closed. -/
def readMembers (text : List Char) :
    Read text.length (List (Option String × Node) × Option Break) :=
  match found : trimStart text with
  | [] => (([], some (.both .endOfText)), none)
  | c :: quoted =>
    have := tail_length found
    if c ≠ '"' then (([], some (.both .malformed)), none)
    else
      match readText quoted with
      | (.error place, _) => (([], some place), none)
      | (.ok _, none) => (([], some (.both .endOfText)), none)
      | (.ok key, some ⟨rest, _⟩) =>
        match found : trimStart rest with
        | [] => (([(key, .broken (.both .endOfText))], none), none)
        | c :: rest =>
          have := tail_length found
          if c ≠ ':' then (([(key, .broken (.both .malformed))], none), none)
          else
            match readValue rest with
            | (node, none) => (([(key, node)], none), none)
            | (node, some ⟨rest, _⟩) =>
              match found : trimStart rest with
              | [] => (([(key, node)], some (.both .endOfText)), none)
              | c :: behind =>
                have := tail_length found
                if c = '}' then (([(key, node)], none), some ⟨behind, by omega⟩)
                else if c = ',' then
                  let ((members, ending), behind) := readMembers behind
                  (((key, node) :: members, ending),
                    behind.map fun rest => ⟨rest.1, by have := rest.2; omega⟩)
                else (([(key, node)], some (.both .malformed)), none)
termination_by (text.length, 1)

end

/-- The node of a text, and what is behind it if it is whole. -/
def Node.ofText (text : String) : Node × Option (List Char) :=
  let (node, behind) := readValue text.toList
  (node, behind.map fun rest => trimStart rest.1)

/-! ### Values of a wanted shape

A decoder takes a value out of a node or says what is wrong first. Everything inside a node is looked
at in the order of the text. A record is an object of its fields, with other members passed over, or
an array of its fields in order. A field that may be left out keeps the value it had at the start. -/

/-- A value of a node, or what is wrong first. -/
abbrev Decoder (α : Type) := Node → Except Fault α

/-- What is wrong with a node that is not of the wanted shape. -/
def Node.fault : Node → Fault
  | .valueless => .malformed
  | .broken place => place.wanted
  | _ => .mismatch

/-- What is wrong where a list of nodes ends, if something is. -/
def closed : Option Break → Except Fault Unit
  | some place => .error place.wanted
  | none => .ok ()

mutual

/-- Passes over a node. -/
def Node.skip : Node → Except Fault Unit
  | .array items ending => skipItems ending items
  | .object members ending => skipMembers ending members
  | .broken place => .error place.skipped
  | _ => .ok ()

/-- Passes over nodes. -/
def skipItems (ending : Option Break) : List Node → Except Fault Unit
  | [] =>
    match ending with
    | some place => .error place.skipped
    | none => .ok ()
  | first :: rest => do
    first.skip
    skipItems ending rest

/-- Passes over members. -/
def skipMembers (ending : Option Break) : List (Option String × Node) → Except Fault Unit
  | [] =>
    match ending with
    | some place => .error place.skipped
    | none => .ok ()
  | (_, node) :: rest => do
    node.skip
    skipMembers ending rest

end

namespace Decode

/-- A text. -/
def string : Decoder String
  | .text value => .ok value
  | node => .error node.fault

/-- A truth value. -/
def boolean : Decoder Bool
  | .boolean value => .ok value
  | node => .error node.fault

/-- A number of sixteen bits. -/
def word : Decoder UInt16
  | .natural value => if value < 65536 then .ok (UInt16.ofNat value) else .error .mismatch
  | node => .error node.fault

/-- A value or `null`. -/
def optional {α : Type} (decode : Decoder α) : Decoder (Option α)
  | .null => .ok none
  | node => (decode node).map some

/-- A list of values. -/
def list {α : Type} (decode : Decoder α) : Decoder (List α)
  | .array items ending => do
    let values ← items.mapM decode
    closed ending
    return values
  | node => .error node.fault

/-- A field of a record that is put together in steps. -/
structure Field (α : Type) where
  name : String
  required : Bool
  set : α → Node → Except Fault α

/-- A field that has to be there. -/
def required {α β : Type} (name : String) (decode : Decoder β) (set : α → β → α) : Field α :=
  ⟨name, true, fun record node => (decode node).map (set record)⟩

/-- A field that may be left out. -/
def defaulted {α β : Type} (name : String) (decode : Decoder β) (set : α → β → α) : Field α :=
  ⟨name, false, fun record node => (decode node).map (set record)⟩

/-- Fields that are still missing may be missing. -/
def complete {α : Type} (missing : List (Field α)) : Except Fault Unit :=
  if missing.any Field.required then .error .mismatch else .ok ()

/-- A record from members. `missing` are the fields that have not come yet, out of all of them. -/
def ofMembers {α : Type} (fields missing : List (Field α)) (ending : Option Break) (record : α) :
    List (Option String × Node) → Except Fault α
  | [] => do
    closed ending
    complete missing
    return record
  | (none, _) :: _ => .error .malformed
  | (some key, node) :: rest =>
    match fields.find? fun field => field.name = key with
    | none => do
      node.skip
      ofMembers fields missing ending record rest
    | some field =>
      if missing.any fun other => other.name = key then do
        let record ← field.set record node
        ofMembers fields (missing.filter fun other => other.name ≠ key) ending record rest
      else .error .mismatch

/-- A record from the items of an array, one for each field. -/
def ofItems {α : Type} (ending : Option Break) (record : α) :
    List (Field α) → List Node → Except Fault α
  | [], [] => do
    closed ending
    return record
  | [], _ :: _ => .error .malformed
  | missing, [] => do
    closed ending
    complete missing
    return record
  | field :: fields, node :: rest => do
    let record ← field.set record node
    ofItems ending record fields rest

/-- A record, put together from a start. -/
def record {α : Type} (start : α) (fields : List (Field α)) : Decoder α
  | .object members ending => ofMembers fields fields ending start members
  | .array items ending => ofItems ending start fields items
  | node => .error node.fault

/-- The value of a whole text, with nothing but blanks around it. -/
def text {α : Type} (decode : Decoder α) (text : String) : Except Fault α :=
  let (node, behind) := Node.ofText text
  match decode node, behind with
  | .error fault, _ => .error fault
  | .ok value, some [] => .ok value
  | .ok _, _ => .error .malformed

end Decode

end MethodPatch.Json
