/-
**Truth values and whole numbers.**

The values that expressions over local variables have in Java: truth values and whole numbers of five
types. The operands of an operator are promoted to `int` or to `long`, where it computes with numbers
that wrap around; what is stored in a smaller type is cut down to it.

* `Scalar.convert`: conversion to a type, widening or narrowing;
* `Scalar.compute`, `Scalar.compare`: operators on two values;
* `ComputeOp.type?`, `comparable`: the types on which they are defined, as `compute_eq_some` says.
-/

import MethodPatch.Proofs.Machine.Word
import MethodPatch.Typing.Operands

namespace MethodPatch

/-- A truth value or a whole number. -/
inductive Scalar where
  | boolean (value : Bool)
  | byte (value : Int8)
  | short (value : Int16)
  | char (value : UInt16)
  | int (value : Int32)
  | long (value : Int64)
  deriving DecidableEq

/-! ### Types -/

/-- The types of truth values and whole numbers. -/
def FieldType.isScalar (type : FieldType) : Bool := type = .boolean || type.isIntegral

/-- The type that a whole number is promoted to. -/
def FieldType.promoted? : FieldType → Option Integral
  | .byte | .short | .char | .int => some .int
  | .long => some .long
  | .boolean | .float | .double | .object _ | .array _ => none

/-- The type that two whole numbers are promoted to. -/
def joined? (left right : FieldType) : Option Integral :=
  match left.promoted?, right.promoted? with
  | some .int, some .int => some .int
  | some _, some _ => some .long
  | _, _ => none

/-- The type of the result of an operator. -/
def ComputeOp.type? (op : ComputeOp) (left right : FieldType) : Option FieldType :=
  match op with
  | .arithmetic .div | .arithmetic .rem => none
  | .arithmetic _ => (joined? left right).map Integral.type
  | .shift _ => if right.promoted?.isSome then left.promoted?.map Integral.type else none
  | .bitwise _ =>
    if left = .boolean ∧ right = .boolean then some .boolean
    else (joined? left right).map Integral.type

/-- Types of operands that a relation takes. -/
def comparable (comparison : Comparison) (left right : FieldType) : Bool :=
  (joined? left right).isSome ||
    (comparison.isEquality && left = .boolean && right = .boolean)

/-- The family in which values of a type are kept. -/
def FieldType.kept (type : FieldType) : Integral := if type = .long then .long else .int

/-- The result of an operation on truth values. -/
def Bitwise.ofBools (op : Bitwise) (left right : Bool) : Bool :=
  match op with
  | .and => left && right
  | .or => left || right
  | .xor => left != right

namespace Scalar

/-- The type of a value. -/
def type : Scalar → FieldType
  | .boolean _ => .boolean
  | .byte _ => .byte
  | .short _ => .short
  | .char _ => .char
  | .int _ => .int
  | .long _ => .long

/-- The number that a value stands for. -/
def toInt : Scalar → Int
  | .boolean value => value.toInt
  | .byte value => value.toInt
  | .short value => value.toInt
  | .char value => value.toNat
  | .int value => value.toInt
  | .long value => value.toInt

/-- The truth that a value of truth is. -/
def truth? : Scalar → Option Bool
  | .boolean value => some value
  | .byte _ | .short _ | .char _ | .int _ | .long _ => none

/-- The value of a type that a number is wrapped around to. -/
def ofInt (type : FieldType) (number : Int) : Scalar :=
  match type with
  | .boolean => .boolean (number ≠ 0)
  | .byte => .byte (.ofInt number)
  | .short => .short (.ofInt number)
  | .char => .char (.ofInt number)
  | .long => .long (.ofInt number)
  | .int | .float | .double | .object _ | .array _ => .int (.ofInt number)

/-- The value converted to a type. -/
def convert (target : FieldType) (value : Scalar) : Scalar := ofInt target value.toInt

/-- The result of an operation in a promoted type. -/
def ofWord : Word → Scalar
  | .int value => .int value
  | .long value => .long value

/-- The word that a value is kept as. -/
def word (value : Scalar) : Word := .ofInt value.type.kept value.toInt

/-! ### Operators -/

/-- The result of an operator on two values. -/
def compute (op : ComputeOp) (left right : Scalar) : Option Scalar :=
  match op with
  | .arithmetic op => do
    let type ← joined? left.type right.type
    let word ← Word.arithmetic op (.ofInt type left.toInt) (.ofInt type right.toInt)
    some (ofWord word)
  | .shift op => do
    let type ← left.type.promoted?
    let _ ← right.type.promoted?
    some (ofWord ((Word.ofInt type left.toInt).shift op right.toInt))
  | .bitwise op =>
    match left, right with
    | .boolean left, .boolean right =>
      some (.boolean (op.ofBools left right))
    | left, right => do
      let type ← joined? left.type right.type
      let word ← Word.bitwise op (.ofInt type left.toInt) (.ofInt type right.toInt)
      some (ofWord word)

/-- Whether a relation holds between two values. -/
def compare (comparison : Comparison) (left right : Scalar) : Option Bool :=
  if comparable comparison left.type right.type then
    some (comparison.holds left.toInt right.toInt)
  else none

/-- The result of `+`, `-` or `~` on a value. -/
def unary (op : UnaryOp) (operand : Scalar) : Option Scalar := do
  let type ← operand.type.promoted?
  let word := Word.ofInt type operand.toInt
  match op with
  | .plus => some (ofWord word)
  | .minus => some (ofWord word.negate)
  | .complement => some (ofWord (.ofInt type (-word.toInt - 1)))
  | .not => none

/-- The value that a variable has after one is added or taken away. -/
def updated (op : UpdateOp) (value : Scalar) : Option Scalar := do
  let one : ComputeOp := .arithmetic (if op = .increment then .add else .sub)
  return (← compute one value (.int 1)).convert value.type

/-! ### Types of values -/

theorem ofInt_toNat (value : UInt16) : UInt16.ofInt value.toNat = value := by
  have := value.toNat_lt
  apply UInt16.toNat_inj.mp
  rw [Word.toNat_ofInt]
  omega

theorem type_ofInt {type : FieldType} (isScalar : type.isScalar = true) (number : Int) :
    (ofInt type number).type = type := by
  cases type <;> first | rfl | simp [FieldType.isScalar, FieldType.isIntegral] at isScalar

theorem isScalar_type (value : Scalar) : value.type.isScalar = true := by
  cases value <;> rfl

@[simp] theorem convert_type (value : Scalar) : value.convert value.type = value := by
  cases value with
  | boolean value => cases value <;> rfl
  | char value => rw [convert, toInt, type, ofInt, ofInt_toNat]
  | _ => simp [convert, ofInt, type, toInt]

@[simp] theorem type_ofWord (word : Word) : (ofWord word).type = word.type.type := by
  cases word <;> rfl

end Scalar

theorem FieldType.isScalar_of_promoted {type : FieldType} {integral : Integral}
    (promoted : type.promoted? = some integral) : type.isScalar = true := by
  cases type <;> first | rfl | cases promoted

theorem FieldType.kept_of_promoted {type : FieldType} {integral : Integral}
    (promoted : type.promoted? = some integral) : type.kept = integral := by
  cases type <;> cases promoted <;> rfl

@[simp] theorem Integral.promoted?_type (integral : Integral) :
    integral.type.promoted? = some integral := by
  cases integral <;> rfl

/-! ### Words of values -/

namespace Scalar

@[simp] theorem type_word (value : Scalar) : value.word.type = value.type.kept := by
  simp [word]

/-- Numbers of less than 32 bits are kept as they are. -/
theorem toInt_word (value : Scalar) : value.word.toInt = value.toInt := by
  have kept : ∀ number : Int, -2 ^ 31 ≤ number → number < 2 ^ 31 →
      (Word.ofInt .int number).toInt = number := fun number above below =>
    Int32.toInt_ofInt_of_le above below
  cases value with
  | boolean value => cases value <;> rfl
  | byte value =>
    have := value.le_toInt
    have := value.toInt_lt
    exact kept _ (by simp only [toInt]; omega) (by simp only [toInt]; omega)
  | short value =>
    have := value.le_toInt
    have := value.toInt_lt
    exact kept _ (by simp only [toInt]; omega) (by simp only [toInt]; omega)
  | char value =>
    have := value.toNat_lt
    exact kept _ (by simp only [toInt]; omega) (by simp only [toInt]; omega)
  | int value => exact kept _ value.le_toInt value.toInt_lt
  | long value => exact Int64.toInt_ofInt_of_le value.le_toInt value.toInt_lt

@[simp] theorem word_ofWord (word : Word) : (ofWord word).word = word := by
  cases word <;> simp [ofWord, Scalar.word, type, FieldType.kept, toInt, Word.ofInt]

theorem word_convert (value : Scalar) (integral : Integral) :
    (value.convert integral.type).word = Word.ofInt integral value.toInt := by
  cases integral with
  | int =>
    show Word.int (.ofInt (Int32.ofInt value.toInt).toInt) = _
    rw [Int32.ofInt_toInt]
    rfl
  | long =>
    show Word.long (.ofInt (Int64.ofInt value.toInt).toInt) = _
    rw [Int64.ofInt_toInt]
    rfl

/-- Promotion does not change a number. -/
theorem toInt_promoted {value : Scalar} {integral : Integral}
    (promotes : integral = .long ∨ value.type.promoted? = some integral) :
    (Word.ofInt integral value.toInt).toInt = value.toInt := by
  rcases promotes with rfl | promotes
  · refine Int64.toInt_ofInt_of_le ?_ ?_
    all_goals
      rw [← toInt_word]
      cases value.word with
      | int number =>
        have := number.le_toInt
        have := number.toInt_lt
        simp only [Word.toInt]
        omega
      | long number =>
        have := number.le_toInt
        have := number.toInt_lt
        simp only [Word.toInt]
        omega
  · have same : Word.ofInt integral value.toInt = value.word := by
      rw [word, FieldType.kept_of_promoted promotes]
    rw [same, toInt_word]

/-! ### Operators that are defined -/

theorem truth?_eq_some {value : Scalar} (isBoolean : value.type = .boolean) :
    ∃ truth, value.truth? = some truth := by
  cases value <;> first | exact ⟨_, rfl⟩ | cases isBoolean

theorem joined?_eq_some {left right : FieldType} {integral : Integral}
    (joined : joined? left right = some integral) :
    ∃ first second, left.promoted? = some first ∧ right.promoted? = some second := by
  unfold joined? at joined
  cases isLeft : left.promoted? <;> cases isRight : right.promoted? <;>
    simp only [isLeft, isRight] at joined
  · cases joined
  · cases joined
  · cases joined
  · exact ⟨_, _, rfl, rfl⟩

theorem arithmetic_type_eq_some {op : Arithmetic} {left right type : FieldType}
    (typed : ComputeOp.type? (.arithmetic op) left right = some type) :
    ∃ integral, joined? left right = some integral ∧ integral.type = type ∧
      ∀ first second : Int, ∃ result, op.result? first second = some result := by
  cases op with
  | div | rem => cases typed
  | add | sub | mul =>
    simp only [ComputeOp.type?, Option.map_eq_some_iff] at typed
    obtain ⟨integral, joined, rfl⟩ := typed
    exact ⟨integral, joined, rfl, fun _ _ => ⟨_, rfl⟩⟩

theorem compute_bitwise {op : Bitwise} {left right : Scalar} {integral : Integral}
    (joined : joined? left.type right.type = some integral) :
    compute (.bitwise op) left right = (do
      let word ← Word.bitwise op (.ofInt integral left.toInt) (.ofInt integral right.toInt)
      some (ofWord word)) := by
  obtain ⟨_, _, isLeft, _⟩ := joined?_eq_some joined
  cases left with
  | boolean value => cases isLeft
  | _ =>
    simp only [compute, joined]
    rfl

/-- Operators are defined on the operands that their types allow. -/
theorem compute_eq_some {op : ComputeOp} {left right : Scalar} {type : FieldType}
    (typed : op.type? left.type right.type = some type) :
    ∃ value, compute op left right = some value ∧ value.type = type := by
  cases op with
  | arithmetic op =>
    obtain ⟨integral, joined, rfl, total⟩ := arithmetic_type_eq_some typed
    obtain ⟨result, applied⟩ := total (Word.ofInt integral left.toInt).toInt
      (Word.ofInt integral right.toInt).toInt
    refine ⟨ofWord (.ofInt integral result), ?_, by simp⟩
    simp [compute, joined, Word.arithmetic, applied]
  | shift op =>
    simp only [ComputeOp.type?] at typed
    split at typed
    · next isNumber =>
      obtain ⟨integral, promoted, rfl⟩ := Option.map_eq_some_iff.mp typed
      obtain ⟨_, promotedRight⟩ := Option.isSome_iff_exists.mp isNumber
      refine ⟨_, by simp [compute, promoted, promotedRight]; rfl, ?_⟩
      cases integral <;> rfl
    · cases typed
  | bitwise op =>
    simp only [ComputeOp.type?] at typed
    split at typed
    · next booleans =>
      cases typed
      cases left <;> cases booleans.1
      cases right <;> cases booleans.2
      exact ⟨_, rfl, rfl⟩
    · obtain ⟨integral, joined, rfl⟩ := Option.map_eq_some_iff.mp typed
      rw [compute_bitwise joined]
      cases integral <;> exact ⟨_, rfl, rfl⟩

theorem unary_eq_some {op : UnaryOp} {operand : Scalar} {integral : Integral}
    (promoted : operand.type.promoted? = some integral) (isNot : op ≠ .not) :
    ∃ value, unary op operand = some value ∧ value.type = integral.type := by
  cases op with
  | not => exact absurd rfl isNot
  | _ =>
    unfold unary
    rw [promoted]
    exact ⟨_, rfl, by simp [Word.negate]⟩

theorem type_unary {op : UnaryOp} {operand value : Scalar} {integral : Integral}
    (isValue : unary op operand = some value) (promoted : operand.type.promoted? = some integral) :
    value.type = integral.type := by
  have isNot : op ≠ .not := by
    rintro rfl
    rw [unary, promoted] at isValue
    cases isValue
  obtain ⟨_, isValue', typed⟩ := unary_eq_some promoted isNot
  rw [isValue] at isValue'
  cases isValue'
  exact typed

theorem type_updated {op : UpdateOp} {value changed : Scalar}
    (isChanged : updated op value = some changed) : changed.type = value.type := by
  simp only [updated, Option.bind_eq_bind, Option.bind_eq_some_iff, Option.pure_def,
    Option.some.injEq] at isChanged
  obtain ⟨_, _, rfl⟩ := isChanged
  exact type_ofInt value.isScalar_type _

theorem updated_eq_some (op : UpdateOp) {value : Scalar} {integral : Integral}
    (promoted : value.type.promoted? = some integral) :
    ∃ changed, updated op value = some changed ∧ changed.type = value.type := by
  have typed : ∃ type, (ComputeOp.arithmetic (if op = .increment then .add else .sub)).type?
      value.type (Scalar.int 1).type = some type := by
    cases op <;> cases value <;> first | exact ⟨_, rfl⟩ | cases promoted
  obtain ⟨type, typed⟩ := typed
  obtain ⟨result, computed, _⟩ := compute_eq_some typed
  refine ⟨result.convert value.type, ?_, type_ofInt value.isScalar_type _⟩
  unfold updated
  simp only [computed]
  rfl

end Scalar

end MethodPatch
