/-
**Method bodies.**

A body is put together instruction by instruction, and written as the bytes of a class file once it
is complete.

* `Body.emit`: one instruction more;
* `Body.retarget`: a branch that was emitted before its target was known gets it;
* `Body.offsets_length`: there is a byte offset for each instruction and one for the end;
* `Instr.plainBytes`: the bytes of an instruction that is no branch;
* `Body.encode`: the whole code, or the first reason why there is none.
-/

import MethodPatch.Class.Pool
import MethodPatch.Code.Opcode
import MethodPatch.Source.Position
import MethodPatch.Total

namespace MethodPatch

/-! ### Method bodies under construction

A body is a list of instructions, each with the place in the source text that it was made from, and
the constants that they use. While instructions are added the body follows the depth of the operand
stack and remembers the largest. -/

/-- An instruction and the place it was made from. -/
structure Step where
  instr : Instr
  position : Option Position
  deriving DecidableEq

/-- The source line of an instruction, if a line table can hold it. -/
def Step.line? (step : Step) : Option Nat :=
  match step.position with
  | some position => if position.line < 65536 then some position.line else none
  | none => none

/-- Instructions, their constants, and what is known about the operand stack. -/
structure Body where
  code : Array Step
  pool : Pool
  depth : Nat
  maxStack : Nat
  deriving DecidableEq

namespace Body

/-- A body without instructions over the constants of a class. -/
def ofPool (pool : Pool) : Body := ⟨#[], pool, 0, 0⟩

instance : Inhabited Body := ⟨ofPool .empty⟩

/-- The part of a depth that the recorded maximum keeps: sixteen bits, as in a class file. -/
def recordedDepth (depth : Nat) : Nat := depth % 65536

/-- The body with another depth of the operand stack. -/
def withDepth (body : Body) (depth : Nat) : Body :=
  { body with depth, maxStack := max body.maxStack (recordedDepth depth) }

/-- One instruction more. -/
def emit (body : Body) (instr : Instr) (position : Option Position) : Body :=
  { body.withDepth (body.depth + instr.effect).toNat with code := body.code.push ⟨instr, position⟩ }

/-- The body with a branch moved to a target; an index that holds no branch changes nothing. -/
def retarget (body : Body) (index target : Nat) : Body :=
  { body with code := body.code.modify index fun step =>
      { step with instr := step.instr.retarget target } }

/-- The body without its instructions; the constants stay. -/
def clear (body : Body) : Body := ofPool body.pool

/-- The number of instructions. -/
def size (body : Body) : Nat := body.code.size

/-- The sum of the sizes of the instructions before each one, and of all. -/
def offsetsFrom (offset : Nat) : List Step → List Nat
  | [] => [offset]
  | step :: rest => offset :: offsetsFrom (offset + step.instr.size) rest

/-- The byte offset of each instruction and of the end. -/
def offsets (body : Body) : List Nat := offsetsFrom 0 body.code.toList

theorem offsetsFrom_length (offset : Nat) (steps : List Step) :
    (offsetsFrom offset steps).length = steps.length + 1 := by
  induction steps generalizing offset with
  | nil => rfl
  | cons step rest ih => simp [offsetsFrom, ih]

theorem offsets_length (body : Body) : body.offsets.length = body.size + 1 := by
  simp [offsets, offsetsFrom_length, size]

/-- Entries of a line table: an entry where the line changes. Instructions without a line, or beyond
the reach of the table, add nothing. -/
def lineEntries (last : Option Nat) : List (Nat × Step) → List (Nat × Nat)
  | [] => []
  | (offset, step) :: rest =>
    match step.line? with
    | none => lineEntries last rest
    | some line =>
      if offset < 65536 ∧ last ≠ some line then (offset, line) :: lineEntries (some line) rest
      else lineEntries last rest

/-- The line table: byte offsets and the lines that begin there. -/
def lineTable (body : Body) : List (Nat × Nat) :=
  lineEntries none (body.offsets.zip body.code.toList)

@[simp] theorem size_emit (body : Body) (instr : Instr) (position : Option Position) :
    (body.emit instr position).size = body.size + 1 := by
  simp [emit, size, withDepth]

@[simp] theorem size_retarget (body : Body) (index target : Nat) :
    (body.retarget index target).size = body.size := by
  simp [retarget, size]

end Body

/-! ### Bodies as bytes

The code array of a class file: each instruction is its opcode and its operands, most significant
byte first, and a branch holds the distance in bytes from itself to its target. -/

/-- Why a body has no encoding. -/
inductive EncodeError where
  | missingTarget (index target : Nat)
  | branchTooFar (index : Nat) (distance : Int)
  | codeTooLarge (size : Nat)
  deriving DecidableEq

/-- The wording of an encoding error. -/
def EncodeError.message : EncodeError → String
  | .missingTarget index target =>
    "instruction " ++ toString index ++ " jumps to missing instruction " ++ toString target
  | .branchTooFar index distance =>
    "instruction " ++ toString index ++ " branch offset " ++ toString distance ++
      " exceeds 16 bits"
  | .codeTooLarge size => "code length " ++ toString size ++ " exceeds 65535 bytes"

/-- The longest code of a method, in bytes. -/
def maxCodeSize : Nat := 65535

/-- The byte that widens the instruction behind it. -/
def wideByte : UInt8 := 0xC4

namespace Instr

/-- The bytes of an instruction that is no branch. -/
def plainBytes (instr : Instr) : List UInt8 :=
  match instr with
  | .bipush value => [instr.opcode, value.toUInt8]
  | .sipush value => instr.opcode :: bytes16 value.toUInt16
  | .ldc index => if index ≤ 0xFF then [instr.opcode, index.toUInt8] else instr.opcode :: bytes16 index
  | .load _ slot | .store _ slot =>
    if slot ≤ 3 then [instr.opcode]
    else if instr.isWide then wideByte :: instr.opcode :: bytes16 slot
    else [instr.opcode, slot.toUInt8]
  | .iinc slot delta =>
    if instr.isWide then wideByte :: instr.opcode :: (bytes16 slot ++ bytes16 delta.toUInt16)
    else [instr.opcode, slot.toUInt8, delta.toUInt16.toUInt8]
  | .newArray element => [instr.opcode, UInt8.ofNat element.code]
  | .invoke .interface index argumentSlots _ =>
    instr.opcode :: (bytes16 index ++ [argumentSlots + 1, 0])
  | _ =>
    match instr.poolIndex? with
    | some index => instr.opcode :: bytes16 index
    | none => [instr.opcode]

/-- The bytes of an instruction, given its index and the byte offsets of all instructions. -/
def encode (offsets : Array Nat) (index : Nat) (instr : Instr) : Except EncodeError (List UInt8) :=
  match instr.target? with
  | none => .ok instr.plainBytes
  | some target =>
    match offsets[target]? with
    | none => .error (.missingTarget index target)
    | some destination =>
      let distance : Int := destination - (offsets[index]?.getD 0 : Nat)
      if -32768 ≤ distance ∧ distance ≤ 32767 then
        .ok (instr.opcode :: bytes16 (Int16.ofInt distance).toUInt16)
      else .error (.branchTooFar index distance)

end Instr

namespace Body

/-- The bytes of instructions that are numbered from an index. -/
def encodeFrom (offsets : Array Nat) (index : Nat) :
    List Step → Except EncodeError (List (List UInt8))
  | [] => .ok []
  | step :: rest =>
    match step.instr.encode offsets index with
    | .error error => .error error
    | .ok bytes =>
      match encodeFrom offsets (index + 1) rest with
      | .error error => .error error
      | .ok others => .ok (bytes :: others)

/-- The number of bytes of a body. -/
def codeSize (body : Body) : Nat := total (fun step => step.instr.size) body.code.toList

/-- The code array of a body. -/
def encode (body : Body) : Except EncodeError (List UInt8) :=
  if maxCodeSize < body.codeSize then .error (.codeTooLarge body.codeSize)
  else (encodeFrom body.offsets.toArray 0 body.code.toList).map List.flatten

end Body

end MethodPatch
