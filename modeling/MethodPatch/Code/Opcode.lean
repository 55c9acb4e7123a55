/-
**Opcode bytes and lengths.**

The byte that an instruction is encoded with, its short form where one exists, and the number of
bytes that the whole instruction takes. A local variable beyond the 256th, or an increment beyond a
signed byte, needs the wide form, which has one more byte in front.
-/

import MethodPatch.Code.Instr

namespace MethodPatch

/-- The place of a family among the instructions on local variables. -/
def Storage.family : Storage → Nat
  | .int => 0
  | .long => 1
  | .float => 2
  | .double => 3
  | .ref => 4

/-- The place of a type among the arithmetic instructions. -/
def Numeric.family : Numeric → Nat
  | .int => 0
  | .long => 1
  | .float => 2
  | .double => 3

/-- The place of a type among the bitwise instructions. -/
def Integral.family : Integral → Nat
  | .int => 0
  | .long => 1

/-- The place of a type among the array instructions. -/
def Element.family : Element → Nat
  | .int => 0
  | .long => 1
  | .float => 2
  | .double => 3
  | .ref => 4
  | .byte => 5
  | .char => 6
  | .short => 7

/-- The operand that stands for an element type where an array of primitives is made. -/
def PrimitiveElement.code : PrimitiveElement → Nat
  | .boolean => 4
  | .char => 5
  | .float => 6
  | .double => 7
  | .byte => 8
  | .short => 9
  | .int => 10
  | .long => 11

/-- The place of a relation among the conditional branches. -/
def Comparison.family : Comparison → Nat
  | .eq => 0
  | .ne => 1
  | .lt => 2
  | .ge => 3
  | .gt => 4
  | .le => 5

/-- The opcode of a stack operation. -/
def StackOp.opcode : StackOp → Nat
  | .pop => 0x57
  | .pop2 => 0x58
  | .dup => 0x59
  | .dupX1 => 0x5A
  | .dupX2 => 0x5B
  | .dup2 => 0x5C
  | .dup2X1 => 0x5D
  | .dup2X2 => 0x5E
  | .swap => 0x5F

/-- The first opcode of an arithmetic operation. -/
def Arithmetic.opcode : Arithmetic → Nat
  | .add => 0x60
  | .sub => 0x64
  | .mul => 0x68
  | .div => 0x6C
  | .rem => 0x70

/-- The first opcode of a shift. -/
def Shift.opcode : Shift → Nat
  | .left => 0x78
  | .right => 0x7A
  | .unsignedRight => 0x7C

/-- The first opcode of a bitwise operation. -/
def Bitwise.opcode : Bitwise → Nat
  | .and => 0x7E
  | .or => 0x80
  | .xor => 0x82

/-- The opcode of a conversion between two types. A type is never converted to itself. -/
def conversionOpcode : Numeric → Numeric → Nat
  | .int, .long => 0x85
  | .int, .float => 0x86
  | .int, .double => 0x87
  | .long, .int => 0x88
  | .long, .float => 0x89
  | .long, .double => 0x8A
  | .float, .int => 0x8B
  | .float, .long => 0x8C
  | .float, .double => 0x8D
  | .double, .int => 0x8E
  | .double, .long => 0x8F
  | .double, .float => 0x90
  | .int, .int | .long, .long | .float, .float | .double, .double => 0x00

/-- The opcode of a cut. -/
def Narrow.opcode : Narrow → Nat
  | .byte => 0x91
  | .char => 0x92
  | .short => 0x93

/-- The opcode of a comparison that leaves a number. -/
def Ordering3.opcode : Ordering3 → Nat
  | .long => 0x94
  | .floatLess => 0x95
  | .floatGreater => 0x96
  | .doubleLess => 0x97
  | .doubleGreater => 0x98

/-- The opcode of a branch. -/
def Test.opcode : Test → Nat
  | .zero comparison => 0x99 + comparison.family
  | .ints comparison => 0x9F + comparison.family
  | .same => 0xA5
  | .different => 0xA6
  | .always => 0xA7
  | .null => 0xC6
  | .nonNull => 0xC7

/-- The opcode of a field access. -/
def FieldAccess.opcode : FieldAccess → Nat
  | .getStatic => 0xB2
  | .putStatic => 0xB3
  | .getField => 0xB4
  | .putField => 0xB5

/-- The opcode of a call. -/
def Dispatch.opcode : Dispatch → Nat
  | .virtual => 0xB6
  | .special => 0xB7
  | .static => 0xB8
  | .interface => 0xB9

/-- The opcode of an access to a local variable: the first four have opcodes of their own. -/
def localOpcode (short long : Nat) (storage : Storage) (slot : Slot) : Nat :=
  if slot ≤ 3 then short + 4 * storage.family + slot.toNat else long + storage.family

namespace Instr

/-- The opcode of an instruction, without the byte that widens it. -/
def opcode : Instr → UInt8
  | .nop => 0x00
  | .aconstNull => 0x01
  | .iconst value => (3 + value).toUInt8
  | .lconst value => 0x09 + value
  | .fconst value => 0x0B + value
  | .dconst value => 0x0E + value
  | .bipush _ => 0x10
  | .sipush _ => 0x11
  | .ldc index => if index ≤ 0xFF then 0x12 else 0x13
  | .ldc2 _ => 0x14
  | .load storage slot => UInt8.ofNat (localOpcode 0x1A 0x15 storage slot)
  | .store storage slot => UInt8.ofNat (localOpcode 0x3B 0x36 storage slot)
  | .iinc _ _ => 0x84
  | .arrayLoad element => UInt8.ofNat (0x2E + element.family)
  | .arrayStore element => UInt8.ofNat (0x4F + element.family)
  | .arrayLength => 0xBE
  | .newArray _ => 0xBC
  | .anewArray _ => 0xBD
  | .stack op => UInt8.ofNat op.opcode
  | .arithmetic op numeric => UInt8.ofNat (op.opcode + numeric.family)
  | .neg numeric => UInt8.ofNat (0x74 + numeric.family)
  | .shift op integral => UInt8.ofNat (op.opcode + integral.family)
  | .bitwise op integral => UInt8.ofNat (op.opcode + integral.family)
  | .convert source target => UInt8.ofNat (conversionOpcode source target)
  | .narrow target => UInt8.ofNat target.opcode
  | .compare ordering => UInt8.ofNat ordering.opcode
  | .branch test _ => UInt8.ofNat test.opcode
  | .ret (some storage) => UInt8.ofNat (0xAC + storage.family)
  | .ret none => 0xB1
  | .athrow => 0xBF
  | .field access _ _ => UInt8.ofNat access.opcode
  | .invoke dispatch _ _ _ => UInt8.ofNat dispatch.opcode
  | .new _ => 0xBB
  | .checkCast _ => 0xC0
  | .instanceOf _ => 0xC1

/-- Instructions that need the wide form. -/
def isWide : Instr → Bool
  | .load _ slot | .store _ slot => 0xFF < slot
  | .iinc slot delta => 0xFF < slot || delta < -128 || 127 < delta
  | _ => false

/-- The number of bytes of an instruction. -/
def size (instr : Instr) : Nat :=
  match instr with
  | .load _ slot | .store _ slot => if slot ≤ 3 then 1 else if instr.isWide then 4 else 2
  | .iinc _ _ => if instr.isWide then 6 else 3
  | .bipush _ | .newArray _ => 2
  | .ldc index => if index ≤ 0xFF then 2 else 3
  | .sipush _ | .ldc2 _ | .anewArray _ | .new _ | .checkCast _ | .instanceOf _ | .field _ _ _
  | .branch _ _ => 3
  | .invoke .interface _ _ _ => 5
  | .invoke _ _ _ _ => 3
  | _ => 1

theorem size_pos (instr : Instr) : 0 < instr.size := by
  unfold size
  split <;> try split
  all_goals first | omega | (split <;> omega)

end Instr

end MethodPatch
