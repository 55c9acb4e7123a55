/-
**What instructions do to values.**

The stack holds the words of values. For each kind of code that expressions are lowered to without
looking at operands: which value it leaves there for the values that it finds.

* `changes_conversion`: a value becomes the one that it is converted to;
* `performs_literal`: constants, by their own instructions or from the pool;
* `performs_load`, `performs_store`, `performs_increment`: variables.
-/

import MethodPatch.Generator.Member
import MethodPatch.Proofs.Lowering.Performs

namespace MethodPatch

/-! ### Types of numbers -/

/-- A type of whole numbers among the types of arithmetic. -/
def Integral.numeric : Integral → Numeric
  | .int => .int
  | .long => .long

@[simp] theorem Integral.integral?_numeric (integral : Integral) :
    integral.numeric.integral? = some integral := by
  cases integral <;> rfl

@[simp] theorem Integral.type_numeric (integral : Integral) :
    integral.numeric.type = integral.type := by
  cases integral <;> rfl

theorem FieldType.numeric?_of_promoted {type : FieldType} {integral : Integral}
    (promoted : type.promoted? = some integral) : type.numeric? = some integral.numeric := by
  cases type <;> cases promoted <;> rfl

theorem FieldType.promoted?_of_numeric {type : FieldType} {numeric : Numeric}
    (isScalar : type.isScalar = true) (isNumber : type.numeric? = some numeric) :
    ∃ integral, type.promoted? = some integral ∧ numeric = integral.numeric := by
  cases type <;> cases isNumber <;>
    first | exact ⟨_, rfl, rfl⟩ | simp [FieldType.isScalar, isIntegral] at isScalar

theorem FieldType.integral?_storage {type : FieldType} (isScalar : type.isScalar = true) :
    type.storage.integral? = some type.kept := by
  cases type <;> first | rfl | simp [FieldType.isScalar, isIntegral] at isScalar

/-- Two numbers that are promoted together. -/
theorem joined?_of_promotion {left right : FieldType} {numeric : Numeric}
    (isLeft : left.isScalar = true) (isRight : right.isScalar = true)
    (promotes : promotion? left right = some numeric) :
    ∃ integral, joined? left right = some integral ∧ numeric = integral.numeric := by
  simp only [promotion?, Option.bind_eq_bind, Option.bind_eq_some_iff, Option.pure_def,
    Option.some.injEq] at promotes
  obtain ⟨first, isFirst, second, isSecond, rfl⟩ := promotes
  obtain ⟨first, leftPromoted, rfl⟩ := FieldType.promoted?_of_numeric isLeft isFirst
  obtain ⟨second, rightPromoted, rfl⟩ := FieldType.promoted?_of_numeric isRight isSecond
  rw [joined?, leftPromoted, rightPromoted]
  cases first <;> cases second <;> exact ⟨_, rfl, rfl⟩

/-- Numbers are compared in a type that holds both. -/
theorem promoted_of_joined {left right : FieldType} {integral : Integral}
    (joined : joined? left right = some integral) :
    (integral = .long ∨ left.promoted? = some integral) ∧
      (integral = .long ∨ right.promoted? = some integral) := by
  unfold joined? at joined
  cases isLeft : left.promoted? with
  | none => simp [isLeft] at joined
  | some first =>
    cases isRight : right.promoted? with
    | none => simp [isLeft, isRight] at joined
    | some second =>
      cases first <;> cases second <;> simp_all

/-! ### Conversions -/

/-- Types of truth values and whole numbers of which one is converted to the other. -/
def Convertible (source target : FieldType) : Prop :=
  source = target ∨
    ∃ first second, source.promoted? = some first ∧ target.promoted? = some second

theorem Convertible.symm {source target : FieldType} (converts : Convertible source target) :
    Convertible target source := by
  rcases converts with same | ⟨first, second, isFirst, isSecond⟩
  · exact .inl same.symm
  · exact .inr ⟨second, first, isSecond, isFirst⟩

theorem Convertible.ofPromoted {source : FieldType} {integral promoted : Integral}
    (isPromoted : source.promoted? = some promoted) : Convertible source integral.type :=
  .inr ⟨promoted, integral, isPromoted, integral.promoted?_type⟩

namespace Instr

variable {situation middle final : Situation} {stack : List Word} {store : Store} {word : Word}

theorem ChangesAll.append {first second : List Instr} (changes : ChangesAll first situation middle)
    (behind : ChangesAll second middle final) : ChangesAll (first ++ second) situation final := by
  induction first generalizing situation with
  | nil =>
    cases changes
    exact behind
  | cons instr rest ih =>
    obtain ⟨between, change, changes⟩ := changes
    exact ⟨between, change, ih changes⟩

theorem ChangesAll.single {instr : Instr} (changes : instr.Changes situation final) :
    ChangesAll [instr] situation final :=
  ⟨final, changes, rfl⟩

theorem changes_convert {source target : Numeric} {targetType : Integral}
    (isSource : source.integral? = some word.type) (isTarget : target.integral? = some targetType) :
    (Instr.convert source target).Changes ⟨word :: stack, store⟩
      ⟨.ofInt targetType word.toInt :: stack, store⟩ := by
  refine ⟨rfl, fun pool locals => ?_⟩
  simp [apply, isSource, isTarget, Data.convert, Data.popOf, Data.pop, Data.push]

theorem changes_narrow {target : Narrow} (isInt : word.type = .int) :
    (Instr.narrow target).Changes ⟨word :: stack, store⟩
      ⟨.ofInt .int (Word.narrow target word.toInt) :: stack, store⟩ := by
  refine ⟨rfl, fun pool locals => ?_⟩
  simp [apply, isInt, Data.convert, Data.popOf, Data.pop, Data.push]

/-- Cutting a promoted number down to a type. -/
theorem changes_narrowing (value : Scalar) {target : FieldType} {integral : Integral}
    (promoted : target.promoted? = some integral) :
    ChangesAll (narrowing value.type target) ⟨.ofInt integral value.toInt :: stack, store⟩
      ⟨(value.convert target).word :: stack, store⟩ := by
  have cut : ∀ (narrow : Narrow), (value.convert target).word =
      .ofInt .int (Word.narrow narrow value.toInt) →
      ChangesAll [.narrow narrow] ⟨.ofInt .int value.toInt :: stack, store⟩
        ⟨(value.convert target).word :: stack, store⟩ := by
    intro narrow same
    rw [same, ← Word.narrow_ofInt]
    exact .single (changes_narrow rfl)
  cases target with
  | byte =>
    cases promoted
    exact cut .byte rfl
  | char =>
    cases promoted
    exact cut .char rfl
  | short =>
    cases promoted
    simp only [narrowing]
    split
    · next isByte =>
      cases value with
      | byte number =>
        have := number.le_toInt
        have := number.toInt_lt
        have same : (Int16.ofInt number.toInt).toInt = number.toInt :=
          Int16.toInt_ofInt_of_le (by omega) (by omega)
        show _ = _
        simp only [Scalar.convert, Scalar.ofInt, Scalar.word, Scalar.type, Scalar.toInt, same]
        rfl
      | _ => cases isByte
    · exact cut .short rfl
  | int =>
    cases promoted
    rw [show FieldType.int = Integral.int.type from rfl, Scalar.word_convert]
    rfl
  | long =>
    cases promoted
    rw [show FieldType.long = Integral.long.type from rfl, Scalar.word_convert]
    rfl
  | boolean | float | double | object | array => cases promoted

/-- **A value becomes the one that it is converted to.** -/
theorem changes_conversion (value : Scalar) {target : FieldType}
    (converts : Convertible value.type target) :
    ChangesAll (conversion value.type target) ⟨value.word :: stack, store⟩
      ⟨(value.convert target).word :: stack, store⟩ := by
  unfold conversion
  split
  · next same =>
    rw [← same, Scalar.convert_type]
    rfl
  · next different =>
    rcases converts with same | ⟨first, second, isFirst, isSecond⟩
    · exact absurd same different
    · have kept : value.word = .ofInt first value.toInt := by
        rw [Scalar.word, FieldType.kept_of_promoted isFirst]
      rw [FieldType.numeric?_of_promoted isFirst, FieldType.numeric?_of_promoted isSecond]
      have promotes : ChangesAll
          (if first.numeric = second.numeric then [] else [.convert first.numeric second.numeric])
          ⟨value.word :: stack, store⟩ ⟨.ofInt second value.toInt :: stack, store⟩ := by
        split
        · next same =>
          have same : first = second := by
            cases first <;> cases second <;> first | rfl | cases same
          rw [kept, same]
          rfl
        · have isSource : first.numeric.integral? = some value.word.type := by
            rw [Scalar.type_word, FieldType.kept_of_promoted isFirst, Integral.integral?_numeric]
          rw [← Scalar.toInt_word]
          exact .single (changes_convert isSource (Integral.integral?_numeric second))
      exact promotes.append (changes_narrowing value isSecond)

/-- Constants that fit are stored as they are. -/
theorem word_convert_of_fits {value : Scalar} {constant : Int32} {target : FieldType}
    (isInt : value.type.promoted? = some .int) (isConstant : value.toInt = constant.toInt)
    (fits : constantFits constant target = true) : (value.convert target).word = value.word := by
  have kept : value.word = .ofInt .int value.toInt := by
    rw [Scalar.word, FieldType.kept_of_promoted isInt]
  rw [kept, Scalar.convert, isConstant]
  cases target with
  | byte =>
    simp only [constantFits, decide_eq_true_eq] at fits
    have same : (Int8.ofInt constant.toInt).toInt = constant.toInt :=
      Int8.toInt_ofInt_of_le (by omega) (by omega)
    simp only [Scalar.ofInt, Scalar.word, Scalar.type, Scalar.toInt, same]
    rfl
  | short =>
    simp only [constantFits, decide_eq_true_eq] at fits
    have same : (Int16.ofInt constant.toInt).toInt = constant.toInt :=
      Int16.toInt_ofInt_of_le (by omega) (by omega)
    simp only [Scalar.ofInt, Scalar.word, Scalar.type, Scalar.toInt, same]
    rfl
  | char =>
    simp only [constantFits, decide_eq_true_eq] at fits
    have same : ((UInt16.ofInt constant.toInt).toNat : Int) = constant.toInt := by
      rw [Word.toNat_ofInt]
      omega
    simp only [Scalar.ofInt, Scalar.word, Scalar.type, Scalar.toInt, same]
    rfl
  | boolean | int | long | float | double | object | array => cases fits

/-- A value is dropped. -/
theorem changes_drop (value : Scalar) :
    ChangesAll (StaticType.value value.type).drop ⟨value.word :: stack, store⟩ ⟨stack, store⟩ := by
  have kept := value.type_word
  cases value
  case long =>
    refine .single ⟨rfl, fun pool locals => ?_⟩
    simp [apply, Data.stackOp, Data.popOf, Data.pop, kept, Scalar.type, FieldType.kept]
  all_goals
    refine .single ⟨rfl, fun pool locals => ?_⟩
    simp [apply, Data.stackOp, Data.popOf, Data.pop, kept, Scalar.type, FieldType.kept]

/-- The value of a variable is copied. -/
theorem changes_copyValue (value : Scalar) (slot : Slot) :
    (Place.variable slot value.type).copyValue.Changes ⟨value.word :: stack, store⟩
      ⟨value.word :: value.word :: stack, store⟩ := by
  have kept := value.type_word
  refine ⟨rfl, fun pool locals => ?_⟩
  cases value
  case long =>
    show Data.stackOp _ .dup2 = _
    simp [Data.stackOp, Data.popOf, Data.pop, Data.push, kept, Scalar.type, FieldType.kept]
  all_goals
    show Data.stackOp _ .dup = _
    simp [Data.stackOp, Data.popOf, Data.pop, Data.push, kept, Scalar.type, FieldType.kept]

end Instr

/-! ### Constants -/

/-- One word more on the stack. -/
def Situation.push (situation : Situation) (word : Word) : Situation :=
  { situation with stack := word :: situation.stack }

section Constants

variable {frame : Frame} {before after : Generator} {done : Unit} {word : Word}

theorem performs_number {small : Option Instr} {load : PoolIndex → Instr} {value : Constant}
    (isSmall : ∀ instr, small = some instr → ∀ pool data,
      instr.apply pool data = some (data.push word))
    (loads : ∀ index pool data, pool.get? index.toNat = some value →
      (load index).apply pool data = some (data.push word))
    (yields : Yields (Emit.number small load value) before done after) :
    before.Performs frame (fun situation final => final = situation.push word) after := by
  unfold Emit.number at yields
  cases small with
  | some instr =>
    simp only [Emit.yields_instr] at yields
    subst yields
    refine (Generator.Performs.push before instr).mono ?_
    rintro situation _ _ rfl
    exact ⟨rfl, fun pool locals => isSmall instr rfl pool _⟩
  | none =>
    simp only [yields_bind, Emit.yields_constant, Emit.yields_instr] at yields
    obtain ⟨index, _, ⟨pool, added, rfl⟩, rfl⟩ := yields
    have grows := Pool.growing_insert value before.body.pool
    rw [added] at grows
    refine ⟨_, (Generator.Lays.withPool grows).trans (.push _ (load index)), ?_⟩
    rintro fits final isFinal situation _ _ rfl locals holds
    refine ⟨locals, ?_, holds, .refl locals⟩
    exact loads index final _ (Pool.get?_of_insert added fits isFinal)

theorem performs_int {value : Int32} (yields : Yields (Emit.int value) before done after) :
    before.Performs frame (fun situation final => final = situation.push (.int value)) after := by
  have above := value.le_toInt
  have below := value.toInt_lt
  have push : ∀ number : Int, number = value.toInt → ∀ data : Data,
      some (data.push (.ofInt .int number)) = some (data.push (.int value)) := by
    rintro _ rfl data
    rw [Word.ofInt, Int32.ofInt_toInt]
  refine performs_number (fun instr isSmall pool data => ?_) (fun index pool data found => ?_) yields
  · simp only [smallInt?] at isSmall
    split at isSmall
    · cases isSmall
      exact push _ (Int8.toInt_ofInt_of_le (by omega) (by omega)) data
    · split at isSmall
      · cases isSmall
        exact push _ (Int8.toInt_ofInt_of_le (by omega) (by omega)) data
      · split at isSmall <;> cases isSmall
        exact push _ (Int16.toInt_ofInt_of_le (by omega) (by omega)) data
  · unfold Instr.apply
    simp only [found]

theorem performs_long {value : Int64} (yields : Yields (Emit.long value) before done after) :
    before.Performs frame (fun situation final => final = situation.push (.long value)) after := by
  refine performs_number (fun instr isSmall pool data => ?_) (fun index pool data found => ?_) yields
  · unfold smallLong? at isSmall
    split at isSmall
    · next isZero =>
      cases isSmall
      cases isZero
      rfl
    · split at isSmall <;> cases isSmall
      next isOne =>
        cases isOne
        rfl
  · unfold Instr.apply
    simp only [found]

/-- **Constants.** -/
theorem performs_literal {value : Literal} {constant : Scalar}
    (isConstant : value.scalar? = some constant)
    (yields : Yields (Emit.literal value) before done after) :
    before.Performs frame (fun situation final => final = situation.push constant.word) after := by
  cases value with
  | int value =>
    cases isConstant
    have word : (Scalar.int value).word = .int value := Scalar.word_ofWord (.int value)
    rw [word]
    exact performs_int yields
  | long value =>
    cases isConstant
    have word : (Scalar.long value).word = .long value := Scalar.word_ofWord (.long value)
    rw [word]
    exact performs_long yields
  | char unit =>
    cases isConstant
    exact performs_int yields
  | boolean value =>
    cases isConstant
    simp only [Emit.literal, Emit.yields_instr] at yields
    subst yields
    refine (Generator.Performs.push before _).mono ?_
    rintro situation _ _ rfl
    cases value <;> exact ⟨rfl, fun _ _ => rfl⟩
  | float | double | string | null => cases isConstant

end Constants

/-! ### Variables -/

section Variables

variable {frame : Frame} {name : String} {slot : Slot} {type : FieldType}

theorem performs_load (separate : frame.Separate) (isVariable : frame name = some (slot, type))
    (generator : Generator) :
    generator.Performs frame (fun situation final =>
      ∃ value, situation.store name = some value ∧ final = situation.push value.word)
        (generator.push (.load type.storage slot)) := by
  refine ⟨_, .push generator _, ?_⟩
  rintro _ pool _ situation _ _ ⟨value, isValue, rfl⟩ locals holds
  have loaded := holds.loads name slot type value isVariable isValue
  have family := FieldType.integral?_storage (separate.scalars _ _ _ isVariable)
  refine ⟨locals, ?_, holds, .refl locals⟩
  simp [Block.run, Instr.apply, family, loaded, Data.push, Situation.push]

theorem performs_store (separate : frame.Separate) (isVariable : frame name = some (slot, type))
    (generator : Generator) :
    generator.Performs frame (fun situation final => ∃ value rest, value.type = type ∧
      situation.stack = value.word :: rest ∧ final = ⟨rest, situation.store.set name value⟩)
        (generator.push (.store type.storage slot)) := by
  refine ⟨_, .push generator _, ?_⟩
  rintro _ pool _ situation _ _ ⟨value, rest, typed, isTop, rfl⟩ locals holds
  have family := FieldType.integral?_storage (separate.scalars _ _ _ isVariable)
  refine ⟨_, ?_, holds.set separate isVariable typed, Frame.keeps_store separate isVariable typed⟩
  simp [Block.run, Instr.apply, family, isTop, Data.popOf, Data.pop, typed]

/-- A constant is added to an `int` variable in place. -/
theorem performs_increment (separate : frame.Separate) (isVariable : frame name = some (slot, .int))
    (delta : Int16) (generator : Generator) :
    generator.Performs frame (fun situation final => ∃ old, situation.store name = some old ∧
      final = ⟨situation.stack,
        situation.store.set name (.int (.ofInt (old.toInt + delta.toInt)))⟩)
        (generator.push (.iinc slot delta)) := by
  refine ⟨_, .push generator _, ?_⟩
  rintro _ pool _ situation _ _ ⟨old, isOld, rfl⟩ locals holds
  have loaded : locals.load slot.toNat .int = some old.word :=
    holds.loads name slot .int old isVariable isOld
  refine ⟨_, ?_, holds.set separate isVariable rfl, Frame.keeps_store separate isVariable rfl⟩
  have word : (Scalar.int (.ofInt (old.toInt + delta.toInt))).word =
      .ofInt .int (old.toInt + delta.toInt) := Scalar.word_ofWord (.int _)
  rw [word]
  simp [Block.run, Instr.apply, loaded, Scalar.toInt_word]

end Variables

end MethodPatch
