/-
**The encoding of one instruction.**

The instructions of a code array as the virtual machine finds them, from its own table of opcodes:
each opcode has a form, which says how many operand bytes follow and what instruction they make. It
knows the long encodings of everything, needed or not, and of the instructions that have no
counterpart here it knows none.

The decoder finds an instruction in the bytes that were made for it, whatever follows, and takes as
many bytes as its size says.

* `opcodes`: the forms of the opcodes;
* `decodeFrom`: the instructions, each with the offset it begins at, and branches to byte offsets;
* `decode`: the instructions with branches to the indices of instructions;
* `Instr.Valid`: operands that the instruction set has an encoding for;
* `Instr.bare`: an instruction without what its bytes do not hold;
* `Encodes`: bytes from which an instruction is read;
* `Encodes.branch`, `Instr.encodes_plain`: the bytes of an instruction encode it.
-/

import MethodPatch.Code.Body
import MethodPatch.Code.Opcode

namespace MethodPatch

/-- The big-endian number that two bytes make. -/
def join16 (high low : UInt8) : UInt16 := UInt16.ofNat (high.toNat * 0x100 + low.toNat)

/-- The operands behind an opcode and the instruction that they make. -/
inductive Form where
  | alone (instr : Instr)
  | byte (make : UInt8 → Option Instr)
  | short (make : UInt16 → Instr)
  | pair (make : UInt8 → UInt8 → Instr)
  | distance (test : Test)
  | interface
  | wide

/-! ### The table -/

/-- Entries for consecutive opcodes. -/
def consecutive {α : Type} (first : Nat) (entries : List α) : List (Nat × α) :=
  (entries.zipIdx first).map fun (entry, code) => (code, entry)

/-- Consecutive opcodes without operands. -/
def alone (first : Nat) (instrs : List Instr) : List (Nat × Form) :=
  consecutive first (instrs.map .alone)

/-- The families of values, in the order of their opcodes. -/
def storages : List Storage := [.int, .long, .float, .double, .ref]

/-- The arithmetic types, in the order of their opcodes. -/
def numerics : List Numeric := [.int, .long, .float, .double]

/-- The whole numbers that have operations of their own, in the order of their opcodes. -/
def integrals : List Integral := [.int, .long]

/-- The types of array elements, in the order of their opcodes. -/
def elements : List Element := [.int, .long, .float, .double, .ref, .byte, .char, .short]

/-- The relations of branches, in the order of their opcodes. -/
def comparisons : List Comparison := [.eq, .ne, .lt, .ge, .gt, .le]

/-- The element types of arrays of primitives. -/
def primitiveElements : List PrimitiveElement :=
  [.boolean, .char, .float, .double, .byte, .short, .int, .long]

/-- The opcodes that load and store local variables with their slots as operands. -/
def slotOpcodes : List (Nat × (Slot → Instr)) :=
  consecutive 0x15 (storages.map Instr.load) ++ consecutive 0x36 (storages.map Instr.store)

/-- The opcodes of constants. -/
def constantOpcodes : List (Nat × Form) := List.flatten
  [alone 0x00 [.nop, .aconstNull, .iconst (-1), .iconst 0, .iconst 1, .iconst 2, .iconst 3,
      .iconst 4, .iconst 5, .lconst 0, .lconst 1, .fconst 0, .fconst 1, .fconst 2, .dconst 0,
      .dconst 1],
    consecutive 0x10 [.byte fun value => some (.bipush value.toInt8),
      .short fun value => .sipush value.toInt16, .byte fun index => some (.ldc index.toUInt16),
      .short .ldc, .short .ldc2]]

/-- The opcodes of local variables, array elements and the operand stack. -/
def variableOpcodes : List (Nat × Form) := List.flatten
  [slotOpcodes.map fun (code, make) => (code, .byte fun slot => some (make slot.toUInt16)),
    alone 0x1A (storages.flatMap fun storage => [0, 1, 2, 3].map (.load storage)),
    alone 0x2E (elements.map .arrayLoad),
    alone 0x3B (storages.flatMap fun storage => [0, 1, 2, 3].map (.store storage)),
    alone 0x4F (elements.map .arrayStore),
    alone 0x57 ([.pop, .pop2, .dup, .dupX1, .dupX2, .dup2, .dup2X1, .dup2X2, .swap].map .stack),
    [(0x84, .pair fun slot delta => .iinc slot.toUInt16 delta.toInt8.toInt16), (0xC4, .wide)]]

/-- The opcodes of operations on numbers. -/
def operationOpcodes : List (Nat × Form) := List.flatten
  [alone 0x60 ([.add, .sub, .mul, .div, .rem].flatMap fun op => numerics.map (.arithmetic op)),
    alone 0x74 (numerics.map .neg),
    alone 0x78 ([.left, .right, .unsignedRight].flatMap fun op => integrals.map (.shift op)),
    alone 0x7E ([.and, .or, .xor].flatMap fun op => integrals.map (.bitwise op)),
    alone 0x85 (numerics.flatMap fun source =>
      (numerics.filter (· ≠ source)).map (.convert source)),
    alone 0x91 ([.byte, .char, .short].map .narrow),
    alone 0x94 ([.long, .floatLess, .floatGreater, .doubleLess, .doubleGreater].map .compare)]

/-- The opcodes that pass control on. -/
def controlOpcodes : List (Nat × Form) := List.flatten
  [consecutive 0x99 (comparisons.map fun comparison => .distance (.zero comparison)),
    consecutive 0x9F (comparisons.map fun comparison => .distance (.ints comparison)),
    consecutive 0xA5 [.distance .same, .distance .different, .distance .always],
    alone 0xAC (storages.map fun storage => .ret (some storage)),
    alone 0xB1 [.ret none],
    consecutive 0xC6 [.distance .null, .distance .nonNull]]

/-- The opcodes of objects and their members. -/
def objectOpcodes : List (Nat × Form) := List.flatten
  [consecutive 0xB2 ([.getStatic, .putStatic, .getField, .putField].map fun access =>
      .short fun index => .field access index 0),
    consecutive 0xB6 ([.virtual, .special, .static].map fun dispatch =>
      .short fun index => .invoke dispatch index 0 0),
    [(0xB9, .interface)],
    consecutive 0xBB [.short .new,
      .byte fun code => (primitiveElements.find? (·.code = code.toNat)).map .newArray,
      .short .anewArray, .alone .arrayLength, .alone .athrow, .short .checkCast,
      .short .instanceOf]]

/-- The forms of the opcodes. -/
def opcodes : List (Nat × Form) := List.flatten
  [constantOpcodes, variableOpcodes, operationOpcodes, controlOpcodes, objectOpcodes]

/-! ### Instructions -/

/-- The instruction that a form makes of the bytes behind the opcode, and the number of them that it
takes. A branch is made to the byte offset of its target. -/
def Form.read (offset : Nat) : Form → List UInt8 → Option (Instr × Nat)
  | .alone instr, _ => some (instr, 0)
  | .byte make, value :: _ => (make value).map fun instr => (instr, 1)
  | .short make, high :: low :: _ => some (make (join16 high low), 2)
  | .pair make, first :: second :: _ => some (make first second, 2)
  | .distance test, high :: low :: _ =>
    let target := offset + (join16 high low).toInt16.toInt
    if 0 ≤ target then some (.branch test target.toNat, 2) else none
  | .interface, high :: low :: count :: zero :: _ =>
    if count ≠ 0 ∧ zero = 0 then some (.invoke .interface (join16 high low) (count - 1) 0, 4)
    else none
  | .wide, code :: high :: low :: more =>
    if code = 0x84 then
      match more with
      | first :: second :: _ =>
        some (.iinc (join16 high low) (join16 first second).toInt16, 5)
      | _ => none
    else (slotOpcodes.lookup code.toNat).map fun make => (make (join16 high low), 3)
  | _, _ => none

/-- The instructions of bytes that begin at an offset, each with its own offset. -/
def decodeFrom (offset : Nat) : List UInt8 → Option (List (Nat × Instr))
  | [] => some []
  | code :: operands => do
    let form ← opcodes.lookup code.toNat
    let (instr, taken) ← form.read offset operands
    let others ← decodeFrom (offset + (1 + taken)) (operands.drop taken)
    some ((offset, instr) :: others)
  termination_by bytes => bytes.length
  decreasing_by
    rw [List.length_cons, List.length_drop]
    omega

/-- The instruction with its branch, if it is one, to the index of what begins at an offset. -/
def Instr.resolve (starts : List Nat) (instr : Instr) : Option Instr :=
  match instr.target? with
  | none => some instr
  | some target => (starts.idxOf? target).map instr.retarget

/-- The instructions of a code array. -/
def decode (bytes : List UInt8) : Option (List Instr) := do
  let placed ← decodeFrom 0 bytes
  placed.mapM fun found => found.2.resolve (placed.map Prod.fst ++ [bytes.length])

/-! ### Bytes of an instruction -/

/-- Operands that the instruction set has an encoding for. -/
def Instr.Valid : Instr → Prop
  | .iconst value => -1 ≤ value ∧ value ≤ 5
  | .lconst value | .dconst value => value ≤ 1
  | .fconst value => value ≤ 2
  | .convert source target => source ≠ target
  | .invoke .interface _ argumentSlots _ => argumentSlots ≤ 254
  | _ => True

/-- The instruction without the number of slots of fields and results, and of the arguments of calls
that are not made through an interface, which its bytes do not hold. -/
def Instr.bare : Instr → Instr
  | .field access index _ => .field access index 0
  | .invoke .interface index argumentSlots _ => .invoke .interface index argumentSlots 0
  | .invoke dispatch index _ _ => .invoke dispatch index 0 0
  | instr => instr

/-- An instruction is read from bytes that begin at an offset, whatever stands behind them. -/
def Encodes (offset : Nat) (bytes : List UInt8) (instr : Instr) : Prop :=
  ∃ code operands form, bytes = code :: operands ∧ opcodes.lookup code.toNat = some form ∧
    ∀ rest, form.read offset (operands ++ rest) = some (instr, operands.length)

theorem decodeFrom_append {offset : Nat} {bytes : List UInt8} {instr : Instr}
    (encodes : Encodes offset bytes instr) (rest : List UInt8) :
    decodeFrom offset (bytes ++ rest) =
      (decodeFrom (offset + bytes.length) rest).map ((offset, instr) :: ·) := by
  obtain ⟨code, operands, form, rfl, found, reads⟩ := encodes
  have length : offset + (code :: operands).length = offset + (1 + operands.length) := by
    rw [List.length_cons, Nat.add_comm 1]
  rw [List.cons_append, decodeFrom, found, length]
  simp only [Option.bind_eq_bind, Option.bind_some, reads, List.drop_left]
  cases decodeFrom (offset + (1 + operands.length)) rest <;> rfl

/-! ### Numbers from their bytes -/

theorem join16_bytes16 (value : UInt16) :
    join16 (UInt8.ofNat (value.toNat / 0x100)) (UInt8.ofNat value.toNat) = value := by
  apply UInt16.toNat_inj.mp
  have := value.toNat_lt
  simp only [join16, UInt16.toNat_ofNat', UInt8.toNat_ofNat']
  omega

theorem toUInt16_toUInt8 {value : UInt16} (small : value ≤ 0xFF) :
    value.toUInt8.toUInt16 = value := by
  apply UInt16.toNat_inj.mp
  have : value.toNat ≤ 0xFF := small
  rw [UInt8.toNat_toUInt16, UInt16.toNat_toUInt8]
  omega

theorem toInt16_toUInt8 {value : Int16} (low : ¬value < -128) (high : ¬127 < value) :
    value.toUInt16.toUInt8.toInt8.toInt16 = value := by
  have cut : value.toUInt16.toUInt8.toInt8 = value.toInt8 := by
    apply Int8.toBitVec_inj.mp
    show BitVec.setWidth 8 value.toBitVec = BitVec.signExtend 8 value.toBitVec
    rw [BitVec.signExtend_eq_setWidth_of_le _ (by decide)]
  have above : -128 ≤ value.toInt :=
    Int.not_lt.mp fun less => low (Int16.lt_iff_toInt_lt.mpr less)
  have below : value.toInt ≤ 127 :=
    Int.not_lt.mp fun less => high (Int16.lt_iff_toInt_lt.mpr less)
  apply Int16.toInt_inj.mp
  rw [cut, Int8.toInt_toInt16, Int16.toInt_toInt8, Int.bmod_eq_of_le (by omega) (by omega)]

/-! ### The forms -/

namespace Encodes

variable {offset : Nat} {code : UInt8}

theorem alone {instr : Instr} (found : opcodes.lookup code.toNat = some (.alone instr)) :
    Encodes offset [code] instr :=
  ⟨code, [], _, rfl, found, fun _ => rfl⟩

theorem byte {make : UInt8 → Option Instr} {value : UInt8} {instr : Instr}
    (found : opcodes.lookup code.toNat = some (.byte make)) (made : make value = some instr) :
    Encodes offset [code, value] instr :=
  ⟨code, [value], _, rfl, found, fun _ => congrArg (Option.map fun instr => (instr, 1)) made⟩

theorem short {make : UInt16 → Instr} {value : UInt16} {instr : Instr}
    (found : opcodes.lookup code.toNat = some (.short make)) (made : make value = instr) :
    Encodes offset (code :: bytes16 value) instr := by
  refine ⟨code, bytes16 value, _, rfl, found, fun rest => ?_⟩
  show some (make (join16 _ _), 2) = some (instr, 2)
  rw [join16_bytes16, made]

theorem pair {make : UInt8 → UInt8 → Instr} {first second : UInt8} {instr : Instr}
    (found : opcodes.lookup code.toNat = some (.pair make)) (made : make first second = instr) :
    Encodes offset [code, first, second] instr :=
  ⟨code, [first, second], _, rfl, found, fun _ => congrArg (fun instr => some (instr, 2)) made⟩

theorem wide {make : Slot → Instr} (slot : Slot) (other : code ≠ 0x84)
    (found : slotOpcodes.lookup code.toNat = some make) :
    Encodes offset (wideByte :: code :: bytes16 slot) (make slot) := by
  refine ⟨wideByte, code :: bytes16 slot, .wide, rfl, rfl, fun rest => ?_⟩
  show (if code = 0x84 then _ else
    (slotOpcodes.lookup code.toNat).map fun make : Slot → Instr => (make (join16 _ _), 3)) = some _
  rw [if_neg other, found, join16_bytes16]
  rfl

/-- An access to a local variable: the first four slots have opcodes of their own, and slots beyond
a byte need the wide form. -/
theorem slot {make : Slot → Instr} {slot : Slot}
    (own : slot ≤ 3 → opcodes.lookup code.toNat = some (.alone (make slot)))
    (short : ¬slot ≤ 3 →
      opcodes.lookup code.toNat = some (.byte fun slot => some (make slot.toUInt16)))
    (long : ¬slot ≤ 3 → code ≠ 0x84 ∧ slotOpcodes.lookup code.toNat = some make) :
    Encodes offset
      (if slot ≤ 3 then [code]
        else if decide (0xFF < slot) then wideByte :: code :: bytes16 slot
        else [code, slot.toUInt8])
      (make slot) := by
  by_cases first : slot ≤ 3
  · rw [if_pos first]
    exact .alone (own first)
  · rw [if_neg first]
    by_cases beyond : 0xFF < slot
    · rw [if_pos (decide_eq_true beyond)]
      obtain ⟨other, found⟩ := long first
      exact .wide slot other found
    · rw [if_neg (by simpa using beyond)]
      refine .byte (short first) ?_
      rw [toUInt16_toUInt8 (UInt16.not_lt.mp beyond)]

theorem increment (slot : Slot) (delta : Int16) :
    Encodes offset (wideByte :: 0x84 :: (bytes16 slot ++ bytes16 delta.toUInt16))
      (.iinc slot delta) := by
  refine ⟨wideByte, _, .wide, rfl, rfl, fun rest => ?_⟩
  show some (Instr.iinc (join16 _ _) (join16 _ _).toInt16, 5) = some (.iinc slot delta, 5)
  rw [join16_bytes16, join16_bytes16, Int16.toInt16_toUInt16]

theorem interface (index : PoolIndex) {argumentSlots : UInt8} (few : argumentSlots ≤ 254) :
    Encodes offset (0xB9 :: (bytes16 index ++ [argumentSlots + 1, 0]))
      (.invoke .interface index argumentSlots 0) := by
  refine ⟨0xB9, _, .interface, rfl, rfl, fun rest => ?_⟩
  have counted : argumentSlots + 1 ≠ 0 := by
    have : argumentSlots.toNat ≤ 254 := few
    intro isZero
    have := congrArg UInt8.toNat isZero
    simp at this
    omega
  show (if argumentSlots + 1 ≠ 0 ∧ (0 : UInt8) = 0 then
    some (Instr.invoke .interface (join16 _ _) (argumentSlots + 1 - 1) 0, 4) else none) = some (_, 4)
  rw [if_pos ⟨counted, rfl⟩, join16_bytes16, UInt8.add_sub_cancel]

/-- A branch to a target that is near enough. -/
theorem branch {test : Test} {target : Nat} {distance : Int}
    (found : opcodes.lookup code.toNat = some (.distance test))
    (lands : offset + distance = target) (above : -32768 ≤ distance) (below : distance ≤ 32767) :
    Encodes offset (code :: bytes16 (Int16.ofInt distance).toUInt16) (.branch test target) := by
  refine ⟨code, bytes16 _, _, rfl, found, fun rest => ?_⟩
  have kept : (Int16.ofInt distance).toInt = distance :=
    Int16.toInt_ofInt_of_le above (Int.lt_add_one_of_le below)
  show (if 0 ≤ offset + (join16 _ _).toInt16.toInt then
    some (Instr.branch test (offset + (join16 _ _).toInt16.toInt).toNat, 2) else none) = some (_, 2)
  rw [join16_bytes16, Int16.toInt16_toUInt16, kept, lands, if_pos (Int.natCast_nonneg target),
    Int.toNat_natCast]

end Encodes

/-! ### The instructions -/

namespace Instr

variable {offset : Nat}

/-- The slots that have opcodes of their own. -/
theorem slot_cases {slot : Slot} (first : slot ≤ 3) :
    slot = 0 ∨ slot = 1 ∨ slot = 2 ∨ slot = 3 := by
  have : slot.toNat ≤ 3 := first
  simp only [← UInt16.toNat_inj]
  simp
  omega

theorem iconst_cases {value : Int8} (above : -1 ≤ value) (below : value ≤ 5) :
    value = -1 ∨ value = 0 ∨ value = 1 ∨ value = 2 ∨ value = 3 ∨ value = 4 ∨ value = 5 := by
  simp only [Int8.le_iff_toInt_le, ← Int8.toInt_inj] at *
  simp at *
  omega

theorem constant_cases {value : UInt8} (below : value ≤ 2) : value = 0 ∨ value = 1 ∨ value = 2 := by
  have : value.toNat ≤ 2 := below
  simp only [← UInt8.toNat_inj]
  simp
  omega

theorem encodes_plain (instr : Instr) (valid : instr.Valid) (plain : instr.target? = none) :
    Encodes offset instr.plainBytes instr.bare := by
  cases instr with
  | nop | aconstNull | arrayLength | athrow => exact .alone rfl
  | iconst value =>
    obtain ⟨above, below⟩ : -1 ≤ value ∧ value ≤ 5 := valid
    rcases iconst_cases above below with rfl | rfl | rfl | rfl | rfl | rfl | rfl <;>
      exact .alone rfl
  | lconst value | dconst value =>
    have below : value ≤ 1 := valid
    rcases constant_cases (UInt8.le_trans below (by decide)) with rfl | rfl | rfl
    · exact .alone rfl
    · exact .alone rfl
    · exact absurd below (by decide)
  | fconst value =>
    rcases constant_cases valid with rfl | rfl | rfl <;> exact .alone rfl
  | bipush value => exact .byte rfl (by rw [Int8.toInt8_toUInt8]; rfl)
  | sipush value => exact .short rfl (by rw [Int16.toInt16_toUInt16]; rfl)
  | ldc index =>
    show Encodes offset (if index ≤ 0xFF then [opcode _, _] else opcode _ :: _) _
    rw [opcode]
    split
    · next small => exact .byte rfl (by rw [toUInt16_toUInt8 small]; rfl)
    · exact .short rfl rfl
  | ldc2 index | anewArray index | new index | checkCast index | instanceOf index =>
    exact .short rfl rfl
  | load storage slot | store storage slot =>
    refine .slot ?_ ?_ ?_
    · intro first
      rcases slot_cases first with rfl | rfl | rfl | rfl <;> cases storage <;> rfl
    · intro beyond
      rw [opcode, localOpcode, if_neg beyond]
      cases storage <;> rfl
    · intro beyond
      rw [opcode, localOpcode, if_neg beyond]
      cases storage <;> exact ⟨by decide, rfl⟩
  | iinc slot delta =>
    show Encodes offset (if isWide _ then _ else _) _
    split
    · exact .increment slot delta
    · next narrow =>
      obtain ⟨⟨few, above⟩, below⟩ : (¬0xFF < slot ∧ ¬delta < -128) ∧ ¬127 < delta := by
        simpa [isWide] using narrow
      refine .pair rfl ?_
      rw [toUInt16_toUInt8 (UInt16.not_lt.mp few), toInt16_toUInt8 above below]
      rfl
  | arrayLoad element | arrayStore element => cases element <;> exact .alone rfl
  | newArray element => cases element <;> exact .byte rfl rfl
  | stack op => cases op <;> exact .alone rfl
  | arithmetic op numeric => cases op <;> cases numeric <;> exact .alone rfl
  | neg numeric => cases numeric <;> exact .alone rfl
  | shift op integral => cases op <;> cases integral <;> exact .alone rfl
  | bitwise op integral => cases op <;> cases integral <;> exact .alone rfl
  | convert source target =>
    have other : source ≠ target := valid
    cases source <;> cases target <;> first | exact .alone rfl | exact absurd rfl other
  | narrow target => cases target <;> exact .alone rfl
  | compare ordering => cases ordering <;> exact .alone rfl
  | branch test target => simp [target?] at plain
  | ret storage =>
    cases storage with
    | none => exact .alone rfl
    | some storage => cases storage <;> exact .alone rfl
  | field access index width => cases access <;> exact .short rfl rfl
  | invoke dispatch index argumentSlots resultSlots =>
    cases dispatch with
    | interface => exact .interface index valid
    | virtual | special | static => exact .short rfl rfl

end Instr

end MethodPatch
