/-
**Words of the virtual machine.**

The whole numbers that the machine computes with have 32 or 64 bits, and results that do not fit
wrap around. Operations are given by the numbers that words stand for, bits by the bits.

* `Word.ofInt`: a number, wrapped around to the width of a type;
* `Word.shift`: only the low bits of a distance count;
* `Word.ofInt_toInt`: a word is the word of its number;
* `Word.narrow_ofInt`, `Word.shift_ofInt`: bits that do not count may be cut off before.
-/

import MethodPatch.Code.Instr

namespace MethodPatch

/-- A whole number on the operand stack or in a local variable. -/
inductive Word where
  | int (value : Int32)
  | long (value : Int64)
  deriving DecidableEq

/-- The result of arithmetic on whole numbers, before it is wrapped around. Division is left out. -/
def Arithmetic.result? (op : Arithmetic) (left right : Int) : Option Int :=
  match op with
  | .add => some (left + right)
  | .sub => some (left - right)
  | .mul => some (left * right)
  | .div | .rem => none

/-- The result of an operation on bits. -/
def Bitwise.apply {width : Nat} (op : Bitwise) (left right : BitVec width) : BitVec width :=
  match op with
  | .and => left &&& right
  | .or => left ||| right
  | .xor => left ^^^ right

/-- The bits moved by a number of places. -/
def Shift.apply {width : Nat} (op : Shift) (bits : BitVec width) (places : Nat) : BitVec width :=
  match op with
  | .left => bits <<< places
  | .right => bits.sshiftRight places
  | .unsignedRight => bits >>> places

/-- Whether a relation holds between two numbers. -/
def Comparison.holds (comparison : Comparison) (left right : Int) : Bool :=
  match comparison with
  | .eq => left = right
  | .ne => left ≠ right
  | .lt => left < right
  | .ge => right ≤ left
  | .gt => right < left
  | .le => left ≤ right

/-- The number that a three-way comparison leaves. -/
def order (left right : Int) : Int := if left < right then -1 else if left = right then 0 else 1

namespace Word

/-- The type of a word. -/
def type : Word → Integral
  | .int _ => .int
  | .long _ => .long

/-- The number that a word stands for. -/
def toInt : Word → Int
  | .int value => value.toInt
  | .long value => value.toInt

/-- A number, wrapped around to the width of a type. -/
def ofInt (type : Integral) (number : Int) : Word :=
  match type with
  | .int => .int (.ofInt number)
  | .long => .long (.ofInt number)

/-- Arithmetic on two words of one type. -/
def arithmetic (op : Arithmetic) (left right : Word) : Option Word :=
  if left.type = right.type then (op.result? left.toInt right.toInt).map (ofInt left.type) else none

/-- The negative of a word. -/
def negate (word : Word) : Word := ofInt word.type (-word.toInt)

/-- An operation on the bits of two words of one type. -/
def bitwise (op : Bitwise) (left right : Word) : Option Word :=
  match left, right with
  | .int left, .int right => some (.int (.ofBitVec (op.apply left.toBitVec right.toBitVec)))
  | .long left, .long right => some (.long (.ofBitVec (op.apply left.toBitVec right.toBitVec)))
  | _, _ => none

/-- A word shifted by a distance, of which the low five or six bits count. -/
def shift (op : Shift) (word : Word) (distance : Int) : Word :=
  match word with
  | .int value => .int (.ofBitVec (op.apply value.toBitVec (distance % 32).toNat))
  | .long value => .long (.ofBitVec (op.apply value.toBitVec (distance % 64).toNat))

/-- The number cut down to a type, and widened again. -/
def narrow (target : Narrow) (number : Int) : Int :=
  match target with
  | .byte => (Int8.ofInt number).toInt
  | .char => (UInt16.ofInt number).toNat
  | .short => (Int16.ofInt number).toInt

@[simp] theorem type_ofInt (type : Integral) (number : Int) : (ofInt type number).type = type := by
  cases type <;> rfl

@[simp] theorem ofInt_toInt (word : Word) : ofInt word.type word.toInt = word := by
  cases word <;> simp [type, toInt, ofInt]

/-! ### Numbers that are wrapped around -/

theorem toNat_ofInt (number : Int) : (UInt16.ofInt number).toNat = (number % 65536).toNat := by
  have := Int.emod_lt_of_pos number (show (0 : Int) < 65536 by decide)
  rw [UInt16.ofInt, UInt16.toNat_ofNat']
  omega

/-- A number differs from its word by turns of 32 bits. -/
theorem toInt_ofInt_int (number : Int) :
    (ofInt .int number).toInt = number - 4294967296 * number.bdiv 4294967296 := by
  have turns := Int.bmod_add_bdiv number 4294967296
  rw [ofInt, toInt, Int32.toInt_ofInt]
  simp only [Int32.size] at *
  omega

theorem narrow_ofInt (target : Narrow) (number : Int) :
    narrow target (ofInt .int number).toInt = narrow target number := by
  cases target with
  | byte =>
    show (Int8.ofInt (Int32.ofInt number).toInt).toInt = _
    rw [Int8.ofInt_int32ToInt, Int32.toInt8_ofInt]
    rfl
  | short =>
    show (Int16.ofInt (Int32.ofInt number).toInt).toInt = _
    rw [Int16.ofInt_int32ToInt, Int32.toInt16_ofInt]
    rfl
  | char =>
    rw [toInt_ofInt_int, narrow, narrow, toNat_ofInt, toNat_ofInt]
    omega

theorem shift_ofInt (op : Shift) (word : Word) (distance : Int) :
    word.shift op (ofInt .int distance).toInt = word.shift op distance := by
  have wrapped := toInt_ofInt_int distance
  have five : (ofInt .int distance).toInt % 32 = distance % 32 := by omega
  have six : (ofInt .int distance).toInt % 64 = distance % 64 := by omega
  cases word with
  | int value => rw [shift, shift, five]
  | long value => rw [shift, shift, six]

/-- The complement is computed with a word of ones. -/
theorem bitwise_minus_one (word : Word) :
    word.bitwise .xor (ofInt word.type (-1)) = some (ofInt word.type (-word.toInt - 1)) := by
  cases word with
  | int value =>
    show some (int (value ^^^ -1)) = _
    rw [Int32.xor_neg_one, Int32.not_eq_neg_sub]
    simp [ofInt, toInt, type]
  | long value =>
    show some (long (value ^^^ -1)) = _
    rw [Int64.xor_neg_one, Int64.not_eq_neg_sub]
    simp [ofInt, toInt, type]

end Word

/-! ### Relations -/

theorem Comparison.holds_negate (comparison : Comparison) (left right : Int) :
    comparison.negate.holds left right = !comparison.holds left right := by
  cases comparison <;> simp only [negate, holds] <;> grind

/-- The opposite of a relation is asked for if it is wanted that the relation does not hold. -/
theorem Comparison.holds_wanted (comparison : Comparison) (outcome : Bool) (left right : Int) :
    (if outcome then comparison else comparison.negate).holds left right =
      (comparison.holds left right == outcome) := by
  cases outcome
  · simp [holds_negate]
  · simp

/-- A three-way comparison is related to zero as the numbers are to each other. -/
theorem Comparison.holds_order (comparison : Comparison) (left right : Int) :
    comparison.holds (order left right) 0 = comparison.holds left right := by
  unfold order
  cases comparison <;> simp only [holds] <;> grind

end MethodPatch
