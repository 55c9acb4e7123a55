/-
**Instructions of the Java virtual machine.**

The operations that source text and instructions have in common, and the instructions that method
bodies are patched with.

* `Comparison.negate_negate`: negation comes back to the relation it started from;
* `Instr.pops`, `Instr.pushes`: the slots taken from the operand stack and put back;
* `Instr.effect_eq`: the net effect is their difference;
* `Instr.target?_retarget`: moving a branch changes its target and nothing else has one.
-/

import MethodPatch.Class.Pool
import MethodPatch.Types.FieldType

namespace MethodPatch

/-! ### Operations on values

The operations that source text and instructions have in common: arithmetic on two numbers of one
type, shifts, operations on bits, and the six order relations. -/

/-- Operations on two numbers of one type. -/
inductive Arithmetic where
  | add | sub | mul | div | rem
  deriving DecidableEq

/-- Shifts by an `int` distance. -/
inductive Shift where
  | left | right | unsignedRight
  deriving DecidableEq

/-- Operations on corresponding bits. -/
inductive Bitwise where
  | and | or | xor
  deriving DecidableEq

/-- The order relations. -/
inductive Comparison where
  | eq | ne | lt | ge | gt | le
  deriving DecidableEq

/-- The relation that holds exactly when this one does not. -/
def Comparison.negate : Comparison → Comparison
  | .eq => .ne
  | .ne => .eq
  | .lt => .ge
  | .ge => .lt
  | .gt => .le
  | .le => .gt

@[simp] theorem Comparison.negate_negate (comparison : Comparison) :
    comparison.negate.negate = comparison := by
  cases comparison <;> rfl

/-! ### Instructions of the Java virtual machine

The instructions that method bodies are patched with. Instructions that differ by the type of their
operands alone are one constructor with that type; short and wide encodings are told apart where
bytes are written. A branch names its target by the index of an instruction. -/

/-- The index of a local variable. -/
abbrev Slot := UInt16

/-- The types of arithmetic. -/
inductive Numeric where
  | int | long | float | double
  deriving DecidableEq

/-- The types of shifts and bitwise operations. -/
inductive Integral where
  | int | long
  deriving DecidableEq

/-- The types of array elements that array instructions tell apart. `boolean` elements are kept as
`byte`. -/
inductive Element where
  | int | long | float | double | ref | byte | char | short
  deriving DecidableEq

/-- The element types of arrays of primitives. -/
inductive PrimitiveElement where
  | boolean | char | float | double | byte | short | int | long
  deriving DecidableEq

/-- The ways a method is called. -/
inductive Dispatch where
  | virtual | special | static | interface
  deriving DecidableEq

/-- Operations on the operand stack alone. -/
inductive StackOp where
  | pop | pop2 | dup | dupX1 | dupX2 | dup2 | dup2X1 | dup2X2 | swap
  deriving DecidableEq

/-- The types that an `int` is cut down to. -/
inductive Narrow where
  | byte | char | short
  deriving DecidableEq

/-- Comparisons that leave -1, 0 or 1. With a not-a-number among the operands, `less` leaves -1 and
`greater` leaves 1. -/
inductive Ordering3 where
  | long | floatLess | floatGreater | doubleLess | doubleGreater
  deriving DecidableEq

/-- What a branch asks of the operand stack. -/
inductive Test where
  | zero (comparison : Comparison)
  | ints (comparison : Comparison)
  | same
  | different
  | null
  | nonNull
  | always
  deriving DecidableEq

/-- Reading and writing of static and instance fields. -/
inductive FieldAccess where
  | getStatic | putStatic | getField | putField
  deriving DecidableEq

/-- An instruction. -/
inductive Instr where
  | nop
  | aconstNull
  | iconst (value : Int8)
  | lconst (value : UInt8)
  | fconst (value : UInt8)
  | dconst (value : UInt8)
  | bipush (value : Int8)
  | sipush (value : Int16)
  | ldc (index : PoolIndex)
  | ldc2 (index : PoolIndex)
  | load (storage : Storage) (slot : Slot)
  | store (storage : Storage) (slot : Slot)
  | iinc (slot : Slot) (delta : Int16)
  | arrayLoad (element : Element)
  | arrayStore (element : Element)
  | arrayLength
  | newArray (element : PrimitiveElement)
  | anewArray (index : PoolIndex)
  | stack (op : StackOp)
  | arithmetic (op : Arithmetic) (numeric : Numeric)
  | neg (numeric : Numeric)
  | shift (op : Shift) (integral : Integral)
  | bitwise (op : Bitwise) (integral : Integral)
  | convert (source target : Numeric)
  | narrow (target : Narrow)
  | compare (ordering : Ordering3)
  | branch (test : Test) (target : Nat)
  | ret (storage : Option Storage)
  | athrow
  | field (access : FieldAccess) (index : PoolIndex) (width : UInt8)
  | invoke (dispatch : Dispatch) (index : PoolIndex) (argumentSlots resultSlots : UInt8)
  | new (index : PoolIndex)
  | checkCast (index : PoolIndex)
  | instanceOf (index : PoolIndex)
  deriving DecidableEq

/-- The number of slots of a number. -/
def Numeric.width : Numeric → Nat
  | .long | .double => 2
  | _ => 1

/-- The number of slots of a whole number. -/
def Integral.width : Integral → Nat
  | .int => 1
  | .long => 2

/-- The number of slots of an array element. -/
def Element.width : Element → Nat
  | .long | .double => 2
  | _ => 1

/-- The slots taken and put back by a stack operation. -/
def StackOp.slots : StackOp → Nat × Nat
  | .pop => (1, 0)
  | .pop2 => (2, 0)
  | .dup => (1, 2)
  | .dupX1 => (2, 3)
  | .dupX2 => (3, 4)
  | .dup2 => (2, 4)
  | .dup2X1 => (3, 5)
  | .dup2X2 => (4, 6)
  | .swap => (2, 2)

/-- The slots of the two operands of a comparison. -/
def Ordering3.operands : Ordering3 → Nat
  | .long | .doubleLess | .doubleGreater => 4
  | .floatLess | .floatGreater => 2

/-- The slots that a branch takes. -/
def Test.operands : Test → Nat
  | .zero _ | .null | .nonNull => 1
  | .ints _ | .same | .different => 2
  | .always => 0

/-- The slots of the object that a call is made on. -/
def Dispatch.receiver : Dispatch → Nat
  | .static => 0
  | _ => 1

namespace Instr

/-- The slots that an instruction takes from the operand stack. -/
def pops : Instr → Nat
  | .nop | .aconstNull | .iconst _ | .lconst _ | .fconst _ | .dconst _ | .bipush _ | .sipush _
  | .ldc _ | .ldc2 _ | .load _ _ | .iinc _ _ | .field .getStatic _ _ | .new _ => 0
  | .store storage _ => storage.width
  | .arrayLoad _ => 2
  | .arrayStore element => element.width + 2
  | .arrayLength | .newArray _ | .anewArray _ => 1
  | .stack op => op.slots.1
  | .arithmetic _ numeric => 2 * numeric.width
  | .neg numeric => numeric.width
  | .shift _ integral => integral.width + 1
  | .bitwise _ integral => 2 * integral.width
  | .convert source _ => source.width
  | .narrow _ => 1
  | .compare ordering => ordering.operands
  | .branch test _ => test.operands
  | .ret storage => (storage.map Storage.width).getD 0
  | .athrow => 1
  | .field .putStatic _ width => width.toNat
  | .field .getField _ _ => 1
  | .field .putField _ width => width.toNat + 1
  | .invoke dispatch _ argumentSlots _ => argumentSlots.toNat + dispatch.receiver
  | .checkCast _ | .instanceOf _ => 1

/-- The slots that an instruction puts on the operand stack. -/
def pushes : Instr → Nat
  | .aconstNull | .iconst _ | .fconst _ | .bipush _ | .sipush _ | .ldc _ => 1
  | .lconst _ | .dconst _ | .ldc2 _ => 2
  | .load storage _ => storage.width
  | .arrayLoad element => element.width
  | .arrayLength | .newArray _ | .anewArray _ => 1
  | .stack op => op.slots.2
  | .arithmetic _ numeric | .neg numeric => numeric.width
  | .shift _ integral | .bitwise _ integral => integral.width
  | .convert _ target => target.width
  | .narrow _ | .compare _ => 1
  | .field .getStatic _ width | .field .getField _ width => width.toNat
  | .invoke _ _ _ resultSlots => resultSlots.toNat
  | .new _ | .checkCast _ | .instanceOf _ => 1
  | .nop | .store _ _ | .iinc _ _ | .arrayStore _ | .branch _ _ | .ret _ | .athrow
  | .field .putStatic _ _ | .field .putField _ _ => 0

/-- The change of the depth of the operand stack. -/
def effect (instr : Instr) : Int := instr.pushes - instr.pops

theorem effect_eq (instr : Instr) (depth : Nat) (enough : instr.pops ≤ depth) :
    (depth + instr.effect).toNat = depth - instr.pops + instr.pushes := by
  unfold effect
  omega

/-- The target of a branch. -/
def target? : Instr → Option Nat
  | .branch _ target => some target
  | _ => none

/-- The same branch to another target; other instructions stay as they are. -/
def retarget (target : Nat) : Instr → Instr
  | .branch test _ => .branch test target
  | instr => instr

theorem target?_retarget (instr : Instr) (target : Nat) :
    (instr.retarget target).target? = instr.target?.map fun _ => target := by
  cases instr <;> rfl

/-- Instructions after which control may go elsewhere. -/
def isTerminator : Instr → Bool
  | .branch _ _ | .ret _ | .athrow => true
  | _ => false

/-- Instructions after which control does not go on. -/
def isUnconditional : Instr → Bool
  | .branch .always _ | .ret _ | .athrow => true
  | _ => false

/-- The index of the constant that an instruction uses. -/
def poolIndex? : Instr → Option PoolIndex
  | .ldc index | .ldc2 index | .anewArray index | .new index | .checkCast index
  | .instanceOf index | .field _ index _ | .invoke _ index _ _ => some index
  | _ => none

end Instr

end MethodPatch
