/-
**Code as text.**

Instructions and bodies as they are shown to a reader.
-/

import MethodPatch.Code.Body
import MethodPatch.Code.Opcode
import MethodPatch.Text.Plain

namespace MethodPatch

/-! ### Instructions as text

The mnemonic of an instruction carries the operands that its opcode carries, such as the slot in
`iload_1`; `Instr.text` writes the others behind it. A branch shows the index of its target. -/

/-- The letter of a family in mnemonics. -/
def Storage.letter : Storage → String
  | .int => "i"
  | .long => "l"
  | .float => "f"
  | .double => "d"
  | .ref => "a"

/-- The letter of an arithmetic type in mnemonics. -/
def Numeric.letter : Numeric → String
  | .int => "i"
  | .long => "l"
  | .float => "f"
  | .double => "d"

/-- The letter of a bitwise type in mnemonics. -/
def Integral.letter : Integral → String
  | .int => "i"
  | .long => "l"

/-- The letter of an element type in mnemonics. -/
def Element.letter : Element → String
  | .int => "i"
  | .long => "l"
  | .float => "f"
  | .double => "d"
  | .ref => "a"
  | .byte => "b"
  | .char => "c"
  | .short => "s"

/-- The name of an element type in listings. -/
def PrimitiveElement.name : PrimitiveElement → String
  | .boolean => "Boolean"
  | .char => "Char"
  | .float => "Float"
  | .double => "Double"
  | .byte => "Byte"
  | .short => "Short"
  | .int => "Int"
  | .long => "Long"

/-- The ending of a conditional branch. -/
def Comparison.ending : Comparison → String
  | .eq => "eq"
  | .ne => "ne"
  | .lt => "lt"
  | .ge => "ge"
  | .gt => "gt"
  | .le => "le"

/-- The mnemonic of a stack operation. -/
def StackOp.mnemonic : StackOp → String
  | .pop => "pop"
  | .pop2 => "pop2"
  | .dup => "dup"
  | .dupX1 => "dup_x1"
  | .dupX2 => "dup_x2"
  | .dup2 => "dup2"
  | .dup2X1 => "dup2_x1"
  | .dup2X2 => "dup2_x2"
  | .swap => "swap"

/-- The ending of an arithmetic operation. -/
def Arithmetic.ending : Arithmetic → String
  | .add => "add"
  | .sub => "sub"
  | .mul => "mul"
  | .div => "div"
  | .rem => "rem"

/-- The ending of a shift. -/
def Shift.ending : Shift → String
  | .left => "shl"
  | .right => "shr"
  | .unsignedRight => "ushr"

/-- The ending of a bitwise operation. -/
def Bitwise.ending : Bitwise → String
  | .and => "and"
  | .or => "or"
  | .xor => "xor"

/-- The mnemonic of a cut. -/
def Narrow.mnemonic : Narrow → String
  | .byte => "i2b"
  | .char => "i2c"
  | .short => "i2s"

/-- The mnemonic of a comparison that leaves a number. -/
def Ordering3.mnemonic : Ordering3 → String
  | .long => "lcmp"
  | .floatLess => "fcmpl"
  | .floatGreater => "fcmpg"
  | .doubleLess => "dcmpl"
  | .doubleGreater => "dcmpg"

/-- The mnemonic of a branch. -/
def Test.mnemonic : Test → String
  | .zero comparison => "if" ++ comparison.ending
  | .ints comparison => "if_icmp" ++ comparison.ending
  | .same => "if_acmpeq"
  | .different => "if_acmpne"
  | .null => "ifnull"
  | .nonNull => "ifnonnull"
  | .always => "goto"

/-- The mnemonic of a field access. -/
def FieldAccess.mnemonic : FieldAccess → String
  | .getStatic => "getstatic"
  | .putStatic => "putstatic"
  | .getField => "getfield"
  | .putField => "putfield"

/-- The mnemonic of a call. -/
def Dispatch.mnemonic : Dispatch → String
  | .virtual => "invokevirtual"
  | .special => "invokespecial"
  | .static => "invokestatic"
  | .interface => "invokeinterface"

/-- The mnemonic of an access to a local variable. -/
def localMnemonic (storage : Storage) (action : String) (slot : Slot) : String :=
  storage.letter ++ action ++ if slot ≤ 3 then "_" ++ toString slot.toNat else ""

namespace Instr

/-- The mnemonic of an instruction. -/
def mnemonic : Instr → String
  | .nop => "nop"
  | .aconstNull => "aconst_null"
  | .iconst value => "iconst_" ++ if value = -1 then "m1" else toString value.toInt
  | .lconst value => "lconst_" ++ toString value.toNat
  | .fconst value => "fconst_" ++ toString value.toNat
  | .dconst value => "dconst_" ++ toString value.toNat
  | .bipush _ => "bipush"
  | .sipush _ => "sipush"
  | .ldc index => if index ≤ 0xFF then "ldc" else "ldc_w"
  | .ldc2 _ => "ldc2_w"
  | .load storage slot => localMnemonic storage "load" slot
  | .store storage slot => localMnemonic storage "store" slot
  | .iinc _ _ => "iinc"
  | .arrayLoad element => element.letter ++ "aload"
  | .arrayStore element => element.letter ++ "astore"
  | .arrayLength => "arraylength"
  | .newArray _ => "newarray"
  | .anewArray _ => "anewarray"
  | .stack op => op.mnemonic
  | .arithmetic op numeric => numeric.letter ++ op.ending
  | .neg numeric => numeric.letter ++ "neg"
  | .shift op integral => integral.letter ++ op.ending
  | .bitwise op integral => integral.letter ++ op.ending
  | .convert source target => source.letter ++ "2" ++ target.letter
  | .narrow target => target.mnemonic
  | .compare ordering => ordering.mnemonic
  | .branch test _ => test.mnemonic
  | .ret storage => ((storage.map Storage.letter).getD "") ++ "return"
  | .athrow => "athrow"
  | .field access _ _ => access.mnemonic
  | .invoke dispatch _ _ _ => dispatch.mnemonic
  | .new _ => "new"
  | .checkCast _ => "checkcast"
  | .instanceOf _ => "instanceof"

/-- The operands that the mnemonic leaves out. -/
def operands : Instr → String
  | .bipush value => " " ++ toString value.toInt
  | .sipush value => " " ++ toString value.toInt
  | .load _ slot | .store _ slot => if slot ≤ 3 then "" else " " ++ toString slot.toNat
  | .iinc slot delta => " " ++ toString slot.toNat ++ " " ++ toString delta.toInt
  | .newArray element => " " ++ element.name
  | .branch _ target => " @" ++ toString target
  | instr =>
    match instr.poolIndex? with
    | some index => " #" ++ toString index.toNat
    | none => ""

/-- An instruction as text. -/
def text (instr : Instr) : String := instr.mnemonic ++ instr.operands

end Instr

/-! ### Listings of bodies

One line for each instruction: its byte offset, the instruction, and what the constant stands for
that it uses. A branch shows the byte offset of its target; a target that is missing shows as the
largest offset there could be. -/

/-- The text with blanks in front up to a width. -/
def padLeft (width : Nat) (text : String) : String :=
  String.ofList (List.replicate (width - text.length) ' ') ++ text

/-- The offset that stands for a missing target. -/
def noOffset : Nat := UInt64.size - 1

namespace Body

/-- The line of one instruction. -/
def listingLine (pool : Pool) (offsets : Array Nat) (offset : Nat) (instr : Instr) : String :=
  padLeft 4 (toString offset) ++ ": " ++
    (match instr.target? with
      | some target => instr.mnemonic ++ " " ++ toString (offsets[target]?.getD noOffset)
      | none => instr.text) ++
    match instr.poolIndex? with
    | some index => "  // " ++ pool.describe index
    | none => ""

/-- The lines of a body. -/
def listing (body : Body) : List String :=
  let offsets := body.offsets.toArray
  (body.offsets.zip body.code.toList).map fun (offset, step) =>
    listingLine body.pool offsets offset step.instr

/-- The listing as a text, which the name of a constant can break into more lines. -/
def listingText (body : Body) : String := Text.unlines body.listing

end Body

end MethodPatch
