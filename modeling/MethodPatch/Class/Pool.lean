/-
**Constant pools that grow.**

A pool holds the constants of a class, each of which has an index.

* `Constant.slots`: `long` and `double` constants take two indices;
* `Constant.encode`: the entry as it stands in a class file;
* `Pool.entries`: the appended constants with their indices;
* `Pool.next_push`: the next index moves by the slots of what is appended;
* `Pool.insert_of_indexOf`: a constant that is there is not added again.
-/

import MethodPatch.Decimal
import MethodPatch.Text.Quoted
import MethodPatch.Text.Utf16
import MethodPatch.Total

namespace MethodPatch

/-! ### Constants of a class file

A constant is a text, a number, or refers to other constants by their indices in the pool. Numbers
with a fraction are kept as their bits, so that equal constants are the same constant. -/

/-- An index into a constant pool. -/
abbrev PoolIndex := UInt16

/-- A constant of a class file. -/
inductive Constant where
  | utf8 (text : String)
  | integer (value : Int32)
  | float (bits : UInt32)
  | long (value : Int64)
  | double (bits : UInt64)
  | classRef (name : PoolIndex)
  | string (text : PoolIndex)
  | field (owner nameAndType : PoolIndex)
  | method (owner nameAndType : PoolIndex)
  | interfaceMethod (owner nameAndType : PoolIndex)
  | nameAndType (name descriptor : PoolIndex)
  deriving DecidableEq

/-- The big-endian bytes of a 16-bit number. -/
def bytes16 (value : UInt16) : List UInt8 :=
  [UInt8.ofNat (value.toNat / 0x100), UInt8.ofNat value.toNat]

/-- The big-endian bytes of a 32-bit number. -/
def bytes32 (value : UInt32) : List UInt8 :=
  [UInt8.ofNat (value.toNat / 0x1000000), UInt8.ofNat (value.toNat / 0x10000),
    UInt8.ofNat (value.toNat / 0x100), UInt8.ofNat value.toNat]

/-- The big-endian bytes of a 64-bit number. -/
def bytes64 (value : UInt64) : List UInt8 :=
  bytes32 (UInt32.ofNat (value.toNat / 0x100000000)) ++ bytes32 (UInt32.ofNat value.toNat)

theorem bytes16_length (value : UInt16) : (bytes16 value).length = 2 := rfl

theorem bytes32_length (value : UInt32) : (bytes32 value).length = 4 := rfl

theorem bytes64_length (value : UInt64) : (bytes64 value).length = 8 := rfl

namespace Constant

/-- The byte that tells the kinds of constants apart in a class file. -/
def tag : Constant → UInt8
  | .utf8 _ => 1
  | .integer _ => 3
  | .float _ => 4
  | .long _ => 5
  | .double _ => 6
  | .classRef _ => 7
  | .string _ => 8
  | .field _ _ => 9
  | .method _ _ => 10
  | .interfaceMethod _ _ => 11
  | .nameAndType _ _ => 12

/-- The number of pool indices that a constant takes. -/
def slots : Constant → Nat
  | .long _ | .double _ => 2
  | _ => 1

theorem slots_pos (constant : Constant) : 0 < constant.slots := by
  cases constant <;> simp [slots]

/-- What follows the tag in a class file. -/
def payload : Constant → List UInt8
  | .utf8 text =>
    let bytes := Text.ModifiedUtf8.encode text.toList
    bytes16 (UInt16.ofNat bytes.length) ++ bytes
  | .integer value => bytes32 value.toUInt32
  | .float bits => bytes32 bits
  | .long value => bytes64 value.toUInt64
  | .double bits => bytes64 bits
  | .classRef index | .string index => bytes16 index
  | .field owner member | .method owner member | .interfaceMethod owner member =>
    bytes16 owner ++ bytes16 member
  | .nameAndType name descriptor => bytes16 name ++ bytes16 descriptor

/-- The entry of a constant in a class file. -/
def encode (constant : Constant) : List UInt8 := constant.tag :: constant.payload

/-- The way messages and listings of the pool show a constant. -/
def text : Constant → String
  | .utf8 text => "Utf8 " ++ Text.quoted text
  | .integer value => "Integer " ++ toString value.toInt
  | .float bits => "Float " ++ Decimal.singleText bits
  | .long value => "Long " ++ toString value.toInt
  | .double bits => "Double " ++ Decimal.doubleText bits
  | .classRef index => "Class #" ++ toString index.toNat
  | .string index => "String #" ++ toString index.toNat
  | .field owner member => "Fieldref #" ++ toString owner.toNat ++ ".#" ++ toString member.toNat
  | .method owner member => "Methodref #" ++ toString owner.toNat ++ ".#" ++ toString member.toNat
  | .interfaceMethod owner member =>
    "InterfaceMethodref #" ++ toString owner.toNat ++ ".#" ++ toString member.toNat
  | .nameAndType name descriptor =>
    "NameAndType #" ++ toString name.toNat ++ ":#" ++ toString descriptor.toNat

end Constant

/-! ### Constant pools that grow

A pool belongs to a class that already has constants: their count is reserved, and what is added is
numbered behind them. An equal constant is added once. The index of an appended constant is the
reserved count and the slots of the constants before it, so nothing but the constants is stored. -/

/-- Why a constant cannot be added. -/
inductive PoolError where
  | overflow (constant : Constant)
  | textTooLong (length : Nat)
  deriving DecidableEq

/-- The wording of a pool error. -/
def PoolError.message : PoolError → String
  | .overflow constant =>
    "constant pool overflow: cannot add " ++ constant.text ++ " beyond index 65535"
  | .textTooLong length =>
    "constant string too long: " ++ toString length ++ " bytes, at most 65535"

/-- The constants added to a class whose own constants end before `reserved`. -/
structure Pool where
  reserved : Nat
  constants : Array Constant
  deriving DecidableEq

namespace Pool

/-- The pool of a class with `count` indices in use. Index zero always is. -/
def ofReserved (count : UInt16) : Pool := ⟨max count.toNat 1, #[]⟩

/-- The pool of a class without constants. -/
def empty : Pool := ofReserved 1

instance : Inhabited Pool := ⟨empty⟩

/-- Constants numbered from an index. -/
def layout (index : Nat) : List Constant → List (Nat × Constant)
  | [] => []
  | constant :: rest => (index, constant) :: layout (index + constant.slots) rest

/-- The slots of a list of constants. -/
def totalSlots (constants : List Constant) : Nat := total Constant.slots constants

/-- The appended constants with their indices, in order. -/
def entries (pool : Pool) : List (Nat × Constant) := layout pool.reserved pool.constants.toList

/-- The first index that is free. -/
def next (pool : Pool) : Nat := pool.reserved + totalSlots pool.constants.toList

/-- The number of appended constants. -/
def size (pool : Pool) : Nat := pool.constants.size

/-- The constant at an index among entries in the order of their indices, by halving. -/
def search (index : Nat) (entries : List (Nat × Constant)) : Option Constant :=
  match _upper : entries.drop (entries.length / 2) with
  | [] => none
  | (middle, constant) :: above =>
    if index = middle then some constant
    else if index < middle then search index (entries.take (entries.length / 2))
    else search index above
termination_by entries.length
decreasing_by all_goals
  have length := congrArg List.length _upper
  simp only [List.length_drop, List.length_cons, List.length_take] at length ⊢
  omega

/-- The appended constant at an index. -/
def get? (pool : Pool) (index : Nat) : Option Constant := search index pool.entries

/-- The index of an appended constant. -/
def indexOf? (pool : Pool) (constant : Constant) : Option Nat :=
  (pool.entries.find? fun entry => entry.2 = constant).map Prod.fst

/-- The appended constants from an index on. -/
def entriesFrom (pool : Pool) (index : Nat) : List (Nat × Constant) :=
  pool.entries.filter fun entry => index ≤ entry.1

/-- The appended constants from an index on, as they stand in a class file. -/
def encodeFrom (pool : Pool) (index : Nat) : List UInt8 :=
  (pool.entriesFrom index).flatMap fun entry => entry.2.encode

/-- The pool with one more constant at its end. -/
def push (pool : Pool) (constant : Constant) : Pool :=
  { pool with constants := pool.constants.push constant }

/-- The largest count of indices of a class file. -/
def maxCount : Nat := 65535

/-- The count of indices in use, as a class file holds it. It goes no further than the largest. -/
def count (pool : Pool) : UInt16 := UInt16.ofNat (min pool.next maxCount)

/-- The longest text of a class file, in bytes. -/
def maxTextLength : Nat := 65535

/-- The length of a text that is too long for a class file. -/
def excessLength? : Constant → Option Nat
  | .utf8 text =>
    let length := Text.ModifiedUtf8.length text.toList
    if maxTextLength < length then some length else none
  | _ => none

/-- Adding constants: the answer is an index or an error, and what was added before an error stays. -/
abbrev Adding := ExceptT PoolError (StateM Pool)

/-- The index of a constant, which is appended if it is not there yet. -/
def insert (constant : Constant) : Adding PoolIndex := fun pool =>
  match pool.indexOf? constant with
  | some index => (.ok (UInt16.ofNat index), pool)
  | none =>
    match excessLength? constant with
    | some length => (.error (.textTooLong length), pool)
    | none =>
      if maxCount < pool.next + constant.slots then (.error (.overflow constant), pool)
      else (.ok (UInt16.ofNat pool.next), pool.push constant)

/-- A text. -/
def addText (text : String) : Adding PoolIndex := insert (.utf8 text)

/-- A class by its internal name, or an array by its descriptor. -/
def addClass (name : String) : Adding PoolIndex := do
  let name ← addText name
  insert (.classRef name)

/-- A string literal. -/
def addString (text : String) : Adding PoolIndex := do
  let text ← addText text
  insert (.string text)

/-- The name and the descriptor of a member. -/
def addNameAndType (name descriptor : String) : Adding PoolIndex := do
  let name ← addText name
  let descriptor ← addText descriptor
  insert (.nameAndType name descriptor)

/-- A member of a class, made from the indices of its owner and of its name and descriptor. -/
def addMember (member : PoolIndex → PoolIndex → Constant) (owner name descriptor : String) :
    Adding PoolIndex := do
  let owner ← addClass owner
  let nameAndType ← addNameAndType name descriptor
  insert (member owner nameAndType)

/-- A field. -/
def addField : String → String → String → Adding PoolIndex := addMember .field

/-- A method of a class. -/
def addMethod : String → String → String → Adding PoolIndex := addMember .method

/-- A method of an interface. -/
def addInterfaceMethod : String → String → String → Adding PoolIndex := addMember .interfaceMethod

/-- What an index stands for, with references followed `depth` times. An index that was not
appended stands for itself. -/
def describeWithin (pool : Pool) : Nat → PoolIndex → String
  | 0, index => "#" ++ toString index.toNat
  | depth + 1, index =>
    match pool.get? index.toNat with
    | none => "#" ++ toString index.toNat
    | some (.utf8 text) => text
    | some (.integer value) => toString value.toInt
    | some (.float bits) => Decimal.singleText bits ++ "f"
    | some (.long value) => toString value.toInt ++ "l"
    | some (.double bits) => Decimal.doubleText bits ++ "d"
    | some (.classRef name) => describeWithin pool depth name
    | some (.string text) => Text.quoted (describeWithin pool depth text)
    | some (.nameAndType name descriptor) =>
      describeWithin pool depth name ++ ":" ++ describeWithin pool depth descriptor
    | some (.field owner member) | some (.method owner member)
    | some (.interfaceMethod owner member) =>
      describeWithin pool depth owner ++ "." ++ describeWithin pool depth member

/-- What an index stands for. A chain of references that does not come back to itself is no longer
than the pool. -/
def describe (pool : Pool) (index : PoolIndex) : String := pool.describeWithin (pool.size + 1) index

/-! ### Small facts -/

theorem totalSlots_append (first second : List Constant) :
    totalSlots (first ++ second) = totalSlots first + totalSlots second := by
  simp [totalSlots]

theorem layout_append (index : Nat) (first second : List Constant) :
    layout index (first ++ second) =
      layout index first ++ layout (index + totalSlots first) second := by
  induction first generalizing index with
  | nil => simp [layout, totalSlots]
  | cons constant rest ih => simp [layout, ih, totalSlots, Nat.add_assoc]

theorem entries_push (pool : Pool) (constant : Constant) :
    (pool.push constant).entries = pool.entries ++ [(pool.next, constant)] := by
  simp [entries, push, layout_append, layout, next]

theorem next_push (pool : Pool) (constant : Constant) :
    (pool.push constant).next = pool.next + constant.slots := by
  simp [next, push, totalSlots, Nat.add_assoc]

theorem insert_of_indexOf {pool : Pool} {constant : Constant} {index : Nat}
    (known : pool.indexOf? constant = some index) :
    insert constant pool = (.ok (UInt16.ofNat index), pool) := by
  simp only [insert, known]

end Pool

end MethodPatch
