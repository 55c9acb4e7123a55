/-
**What lowered operators are meant to do.**

The operands of an operator are converted to what its plan says. The instruction that the plan ends
with computes the value that the operator has in Java, for the numbers that wrap around in the same
type. A relation is decided by a branch, with or without a second operand of zero.

* `ComputePlan.type?_eq`: plans are made for the types on which operators are defined;
* `changes_plan`, `settles_comparison`: what plans do to two values;
* `leaves_compute`, `settles_comparison`, `leaves_unary`, `leaves_conditional`, `leaves_cast`.
-/

import MethodPatch.Proofs.Lowering.Lowered

namespace MethodPatch

variable {frame : Frame} {known : String → Prop} {position : Position} {stack : List Word}
  {store : Store} {left right word : Word}

/-! ### Plans -/

theorem FieldType.isString_of_isScalar {type : FieldType} (isScalar : type.isScalar = true) :
    type.isString = false := by
  cases type <;> first | rfl | simp [FieldType.isScalar, FieldType.isIntegral] at isScalar

theorem joinsStrings_scalar {op : ComputeOp} {first second : FieldType}
    (isFirst : first.isScalar = true) (isSecond : second.isScalar = true) :
    joinsStrings op (.value first) (.value second) = false := by
  have noString : ∀ {type : FieldType}, type.isScalar = true →
      (StaticType.value type).isString = false := FieldType.isString_of_isScalar
  rw [joinsStrings, noString isFirst, noString isSecond, Bool.or_self, Bool.and_false]

/-- Plans are made for the types on which operators are defined. -/
theorem ComputePlan.type?_eq {op : ComputeOp} {plan : ComputePlan} {first second : FieldType}
    (total : op.isTotal = true) (isFirst : first.isScalar = true) (isSecond : second.isScalar = true)
    (planned : ComputePlan.ofTypes? op first second = some plan) :
    op.type? first second = some plan.result ∧ Convertible first plan.result ∧
      Convertible second plan.right := by
  have both : ∀ integral, joined? first second = some integral →
      Convertible first integral.type ∧ Convertible second integral.type := by
    intro integral joined
    obtain ⟨_, _, promotedFirst, promotedSecond⟩ := Scalar.joined?_eq_some joined
    exact ⟨.ofPromoted promotedFirst, .ofPromoted promotedSecond⟩
  cases op with
  | arithmetic op =>
    simp only [ofTypes?, Option.map_eq_some_iff] at planned
    obtain ⟨_, promotes, rfl⟩ := planned
    obtain ⟨integral, joined, rfl⟩ := joined?_of_promotion isFirst isSecond promotes
    obtain ⟨convertsFirst, convertsSecond⟩ := both integral joined
    simp only [result, ComputePlan.right, Integral.type_numeric]
    refine ⟨?_, convertsFirst, convertsSecond⟩
    cases op with
    | div | rem => cases total
    | add | sub | mul => simp only [ComputeOp.type?, joined, Option.map_some]
  | shift op =>
    simp only [ofTypes?, Option.bind_eq_bind, Option.bind_eq_some_iff, Option.pure_def,
      Option.some.injEq] at planned
    obtain ⟨_, firstNumber, integral, isIntegral, _, secondNumber, _, _, rfl⟩ := planned
    obtain ⟨_, promotedFirst, rfl⟩ := FieldType.promoted?_of_numeric isFirst firstNumber
    obtain ⟨_, promotedSecond, rfl⟩ := FieldType.promoted?_of_numeric isSecond secondNumber
    rw [Integral.integral?_numeric] at isIntegral
    cases isIntegral
    refine ⟨?_, .ofPromoted promotedFirst, .inr ⟨_, _, promotedSecond, rfl⟩⟩
    simp [ComputeOp.type?, promotedFirst, promotedSecond, result]
  | bitwise op =>
    simp only [ofTypes?] at planned
    split at planned
    · next booleans =>
      cases planned
      obtain ⟨rfl, rfl⟩ := booleans
      exact ⟨rfl, .inl rfl, .inl rfl⟩
    · next notBooleans =>
      simp only [Option.bind_eq_bind, Option.bind_eq_some_iff, Option.pure_def,
        Option.some.injEq] at planned
      obtain ⟨_, promotes, integral, isIntegral, rfl⟩ := planned
      obtain ⟨_, joined, rfl⟩ := joined?_of_promotion isFirst isSecond promotes
      rw [Integral.integral?_numeric] at isIntegral
      cases isIntegral
      obtain ⟨convertsFirst, convertsSecond⟩ := both integral joined
      refine ⟨?_, convertsFirst, convertsSecond⟩
      simp only [ComputeOp.type?, if_neg notBooleans, joined, Option.map_some, result]

namespace Instr

theorem changes_combine {instr : Instr} {type : Integral} {compute : Word → Word → Option Word}
    (combines : ∀ pool data, instr.apply pool data = data.combine type compute)
    (isLeft : left.type = type) (isRight : right.type = type)
    (computed : compute left right = some word) :
    instr.Changes ⟨right :: left :: stack, store⟩ ⟨word :: stack, store⟩ := by
  refine ⟨rfl, fun pool locals => ?_⟩
  rw [combines]
  simp [Data.combine, Data.popOf, Data.pop, Data.push, isLeft, isRight, computed]

theorem changes_shift {op : Shift} {type : Integral} (isLeft : left.type = type)
    (isRight : right.type = .int) :
    (Instr.shift op type).Changes ⟨right :: left :: stack, store⟩
      ⟨left.shift op right.toInt :: stack, store⟩ := by
  refine ⟨rfl, fun pool locals => ?_⟩
  simp [apply, Data.popOf, Data.pop, Data.push, isLeft, isRight]

theorem changes_neg {numeric : Numeric} (isOperand : numeric.integral? = some word.type) :
    (Instr.neg numeric).Changes ⟨word :: stack, store⟩ ⟨word.negate :: stack, store⟩ := by
  refine ⟨rfl, fun pool locals => ?_⟩
  simp [apply, isOperand, Data.convert, Data.popOf, Data.pop, Data.push, Word.negate]

/-- **The instruction of a plan computes the value of the operator.** -/
theorem changes_plan {op : ComputeOp} {plan : ComputePlan} {first second value : Scalar}
    (planned : ComputePlan.ofTypes? op first.type second.type = some plan)
    (computed : Scalar.compute op first second = some value) :
    plan.instr.Changes
      ⟨(second.convert plan.right).word :: (first.convert plan.result).word :: stack, store⟩
      ⟨value.word :: stack, store⟩ := by
  have isFirst := first.isScalar_type
  have isSecond := second.isScalar_type
  cases op with
  | arithmetic op =>
    simp only [ComputePlan.ofTypes?, Option.map_eq_some_iff] at planned
    obtain ⟨_, promotes, rfl⟩ := planned
    obtain ⟨integral, joined, rfl⟩ := joined?_of_promotion isFirst isSecond promotes
    simp only [Scalar.compute, joined, Option.bind_eq_bind, Option.bind_some,
      Option.bind_eq_some_iff, Option.some.injEq] at computed
    obtain ⟨word, computed, rfl⟩ := computed
    simp only [ComputePlan.right, ComputePlan.result, ComputePlan.instr, Integral.type_numeric,
      Scalar.word_convert, Scalar.word_ofWord]
    refine changes_combine (fun pool data => ?_) (Word.type_ofInt _ _) (Word.type_ofInt _ _) computed
    simp [apply]
  | shift op =>
    simp only [ComputePlan.ofTypes?, Option.bind_eq_bind, Option.bind_eq_some_iff, Option.pure_def,
      Option.some.injEq] at planned
    obtain ⟨_, firstNumber, integral, isIntegral, _, secondNumber, _, _, rfl⟩ := planned
    obtain ⟨_, promotedFirst, rfl⟩ := FieldType.promoted?_of_numeric isFirst firstNumber
    obtain ⟨_, promotedSecond, rfl⟩ := FieldType.promoted?_of_numeric isSecond secondNumber
    rw [Integral.integral?_numeric] at isIntegral
    cases isIntegral
    simp only [Scalar.compute, promotedFirst, promotedSecond, Option.bind_eq_bind, Option.bind_some,
      Option.some.injEq] at computed
    subst computed
    have distance : (second.convert .int).word = .ofInt .int second.toInt :=
      second.word_convert .int
    simp only [ComputePlan.right, ComputePlan.result, ComputePlan.instr, Scalar.word_convert,
      Scalar.word_ofWord, distance]
    rw [← Word.shift_ofInt]
    exact changes_shift (Word.type_ofInt _ _) rfl
  | bitwise op =>
    simp only [ComputePlan.ofTypes?] at planned
    split at planned
    · next booleans =>
      cases planned
      obtain ⟨first, rfl⟩ := Scalar.eq_boolean booleans.1
      obtain ⟨second, rfl⟩ := Scalar.eq_boolean booleans.2
      cases computed
      refine changes_combine (fun pool data => rfl) rfl rfl ?_
      cases op <;> cases first <;> cases second <;> rfl
    · simp only [Option.bind_eq_bind, Option.bind_eq_some_iff, Option.pure_def,
        Option.some.injEq] at planned
      obtain ⟨_, promotes, integral, isIntegral, rfl⟩ := planned
      obtain ⟨_, joined, rfl⟩ := joined?_of_promotion isFirst isSecond promotes
      rw [Integral.integral?_numeric] at isIntegral
      cases isIntegral
      rw [Scalar.compute_bitwise joined] at computed
      simp only [Option.bind_eq_bind, Option.bind_eq_some_iff, Option.some.injEq] at computed
      obtain ⟨word, computed, rfl⟩ := computed
      simp only [ComputePlan.right, ComputePlan.result, ComputePlan.instr, Scalar.word_convert,
        Scalar.word_ofWord]
      exact changes_combine (fun pool data => rfl) (Word.type_ofInt _ _) (Word.type_ofInt _ _)
        computed

end Instr

theorem ComparisonPlan.of?_cases {wanted : Comparison} {plan : ComparisonPlan}
    {first second : FieldType} (isFirst : first.isScalar = true) (isSecond : second.isScalar = true)
    (planned : ComparisonPlan.of? wanted (.value first) (.value second) = some plan) :
    comparable wanted first second = true ∧
      ((plan = .booleans ∧ first = .boolean ∧ second = .boolean) ∨
        ∃ integral, plan = .numbers integral.numeric ∧ joined? first second = some integral) := by
  have noReference : ∀ {type : FieldType}, type.isScalar = true →
      (StaticType.value type).isReference = false := by
    intro type isScalar
    cases type <;> first | rfl | simp [FieldType.isScalar, FieldType.isIntegral] at isScalar
  simp only [ComparisonPlan.of?, noReference isFirst, noReference isSecond, Bool.or_self,
    Bool.and_false, Bool.false_eq_true, if_false] at planned
  split at planned
  · next booleans =>
    cases planned
    obtain ⟨isEquality, isBoolean, isBoolean'⟩ := booleans
    cases isBoolean
    cases isBoolean'
    exact ⟨by simp [comparable, isEquality], .inl ⟨rfl, rfl, rfl⟩⟩
  · obtain ⟨_, promotes, rfl⟩ := Option.map_eq_some_iff.mp planned
    obtain ⟨integral, joined, rfl⟩ := joined?_of_promotion isFirst isSecond promotes
    exact ⟨by simp [comparable, joined], .inr ⟨integral, rfl, joined⟩⟩

/-- A constant is evaluated without any effect. -/
theorem Expr.eval_intConstant {types : Types} {expression : Expr} {constant : Int32}
    {value : Scalar} {after : Store} (isConstant : expression.intConstant? = some constant)
    (evaluated : expression.eval types store = some (value, after)) :
    after = store ∧ value.toInt = constant.toInt ∧ value.type.promoted? = some .int := by
  unfold intConstant? at isConstant
  split at isConstant
  · cases isConstant
    cases evaluated
    exact ⟨rfl, rfl, rfl⟩
  · next unit _ =>
    cases isConstant
    cases evaluated
    refine ⟨rfl, ?_, rfl⟩
    have := unit.toNat_lt
    rw [Int32.toInt_ofNat_of_lt (by omega)]
    rfl
  · cases isConstant

/-! ### Lowered operators -/

namespace Lowered

variable {first second operand : Lowered} {leftExpr rightExpr : Expr}
  {firstType secondType : FieldType}

theorem leaves_compute {op : ComputeOp} {plan : ComputePlan} (separate : frame.Separate)
    (isLeft : leftExpr.IsScalar known) (isRight : rightExpr.IsScalar known)
    (total : op.isTotal = true) (meansLeft : first.Means frame leftExpr)
    (meansRight : second.Means frame rightExpr)
    (leftTyped : leftExpr.scalarType? frame.types = some firstType)
    (rightTyped : rightExpr.scalarType? frame.types = some secondType)
    (planned : ComputePlan.ofTypes? op firstType secondType = some plan) :
    Leaves frame (.binary (.compute op) leftExpr rightExpr position) true
      (Lowered.compute plan first second) := by
  intro before type after yields
  obtain ⟨computes, convertsLeft, convertsRight⟩ := ComputePlan.type?_eq total
    (separate.isScalar_type isLeft leftTyped) (separate.isScalar_type isRight rightTyped) planned
  simp only [Lowered.compute, yields_bind, Emit.yields_instr, yields_pure] at yields
  obtain ⟨_, _, value, _, _, other, _, _, rfl, rfl, rfl⟩ := yields
  refine ⟨_, rfl, ?_, ?_⟩
  · exact Expr.scalarType?_compute.mpr ⟨_, _, leftTyped, rightTyped, computes⟩
  have performs := ((meansLeft.convertedTo separate isLeft leftTyped convertsLeft value).trans
    (meansRight.convertedTo separate isRight rightTyped convertsRight other)).trans
      (.push _ plan.instr)
  refine performs.mono ?_
  rintro situation ⟨stack, store⟩ agrees ⟨result, evaluated, same⟩
  rw [show stack = _ from same]
  obtain ⟨left, middle, right, leftEvaluated, rightEvaluated, computed⟩ :=
    Expr.eval_compute.mp evaluated
  obtain ⟨rfl, agrees⟩ := separate.eval_type isLeft leftEvaluated leftTyped agrees
  obtain ⟨rfl, _⟩ := separate.eval_type isRight rightEvaluated rightTyped agrees
  exact ⟨⟨(right.convert plan.right).word :: (left.convert plan.result).word :: situation.stack, _⟩,
    ⟨⟨_, middle⟩, ⟨left, leftEvaluated, rfl⟩, ⟨right, rightEvaluated, rfl⟩⟩,
    Instr.changes_plan planned computed⟩

/-- Two numbers of one type are compared. -/
theorem asks_compareNumbers {before start after : Generator} {branch : Nat} {integral : Integral}
    {wanted : Comparison} {outcome : Bool} {change : Situation → Situation → Prop}
    (performs : before.Performs frame change start)
    (yields : Yields (Emit.compareNumbers integral.numeric wanted
      (if outcome then wanted else wanted.negate)) start branch after) :
    before.Asks frame (fun situation leaves final => ∃ left right : Word,
      left.type = integral ∧ right.type = integral ∧
        leaves = (wanted.holds left.toInt right.toInt == outcome) ∧
          change situation ⟨right :: left :: final.stack, final.store⟩) [branch] after := by
  cases integral <;>
    simp only [Emit.compareNumbers, Integral.numeric, yields_bind, Emit.yields_instr,
      Emit.yields_branch] at yields
  case int =>
    obtain ⟨rfl, rfl⟩ := yields
    refine (Generator.Asks.branch performs _).mono ?_
    rintro situation _ ⟨stack, store⟩ _ ⟨left, right, isLeft, isRight, rfl, related⟩
    refine ⟨_, related, ?_⟩
    rw [← Comparison.holds_wanted]
    exact Test.takes_ints isLeft isRight
  case long =>
    obtain ⟨_, _, rfl, rfl, rfl⟩ := yields
    refine (Generator.Asks.branch (performs.trans (.push start (.compare .long))) _).mono ?_
    rintro situation _ ⟨stack, store⟩ _ ⟨left, right, isLeft, isRight, rfl, related⟩
    have combines : ∀ pool data, (Instr.compare .long).apply pool data =
        data.combine .long fun left right => some (.ofInt .int (order left.toInt right.toInt)) :=
      fun _ _ => rfl
    have compares : (Instr.compare .long).Changes ⟨right :: left :: stack, store⟩
        ⟨.ofInt .int (order left.toInt right.toInt) :: stack, store⟩ :=
      Instr.changes_combine combines isLeft isRight rfl
    refine ⟨_, ⟨_, related, compares⟩, ?_⟩
    have small : (Word.ofInt .int (order left.toInt right.toInt)).toInt =
        order left.toInt right.toInt := by
      unfold order
      split
      · rfl
      · split <;> rfl
    rw [← Comparison.holds_wanted, ← Comparison.holds_order]
    exact Test.takes_zero (Word.type_ofInt _ _) small

/-- What a relation between operands that have types asks. -/
theorem answers_compare {wanted : Comparison} {outcome leaves : Bool} {situation final : Situation}
    (separate : frame.Separate) (isLeft : leftExpr.IsScalar known)
    (isRight : rightExpr.IsScalar known)
    (leftTyped : leftExpr.scalarType? frame.types = some firstType)
    (rightTyped : rightExpr.scalarType? frame.types = some secondType)
    (compares : comparable wanted firstType secondType = true)
    (agrees : situation.store.Agrees frame.types)
    (answers : Expr.Answers frame.types (.binary (.compare wanted) leftExpr rightExpr position)
      outcome situation leaves final) :
    ∃ left right middle, leftExpr.eval frame.types situation.store = some (left, middle) ∧
      rightExpr.eval frame.types middle = some (right, final.store) ∧
        left.type = firstType ∧ right.type = secondType ∧ final.stack = situation.stack ∧
          leaves = (wanted.holds left.toInt right.toInt == outcome) := by
  obtain ⟨truth, evaluated, same, rfl⟩ := answers
  obtain ⟨left, middle, right, holds, leftEvaluated, rightEvaluated, isHolds, isTruth⟩ :=
    Expr.eval_compare.mp evaluated
  cases isTruth
  obtain ⟨leftIs, agrees⟩ := separate.eval_type isLeft leftEvaluated leftTyped agrees
  obtain ⟨rightIs, _⟩ := separate.eval_type isRight rightEvaluated rightTyped agrees
  simp only [Scalar.compare, leftIs, rightIs, compares, if_true, Option.some.injEq] at isHolds
  exact ⟨left, right, middle, leftEvaluated, rightEvaluated, leftIs, rightIs, same, isHolds ▸ rfl⟩

theorem settles_comparison {wanted : Comparison} {plan : ComparisonPlan} {outcome : Bool}
    {before after : Generator} {branch : Nat} (separate : frame.Separate)
    (isLeft : leftExpr.IsScalar known) (isRight : rightExpr.IsScalar known)
    (meansLeft : first.Means frame leftExpr) (meansRight : second.Means frame rightExpr)
    (leftTyped : leftExpr.scalarType? frame.types = some firstType)
    (rightTyped : rightExpr.scalarType? frame.types = some secondType)
    (planned : ComparisonPlan.of? wanted (.value firstType) (.value secondType) = some plan)
    (yields : Yields (Lowered.comparison wanted plan rightExpr first second outcome) before branch
      after) :
    comparable wanted firstType secondType = true ∧
      before.Asks frame (Expr.Answers frame.types
        (.binary (.compare wanted) leftExpr rightExpr position) outcome) [branch] after := by
  obtain ⟨compares, plans⟩ := ComparisonPlan.of?_cases (separate.isScalar_type isLeft leftTyped)
    (separate.isScalar_type isRight rightTyped) planned
  refine ⟨compares, ?_⟩
  rcases plans with ⟨rfl, rfl, rfl⟩ | ⟨integral, rfl, joined⟩
  · simp only [Lowered.comparison, yields_bind, Emit.yields_branch] at yields
    obtain ⟨_, _, value, _, _, other, rfl, rfl⟩ := yields
    obtain ⟨_, _, _, performs⟩ := meansLeft.value value
    obtain ⟨_, _, _, behind⟩ := meansRight.value other
    refine (Generator.Asks.branch (performs.trans behind) _).mono ?_
    rintro situation leaves ⟨stack, store⟩ agrees answers
    obtain ⟨left, right, middle, leftEvaluated, rightEvaluated, leftIs, rightIs, same, rfl⟩ :=
      answers_compare separate isLeft isRight leftTyped rightTyped compares agrees answers
    rw [show stack = _ from same, ← Comparison.holds_wanted, ← left.toInt_word, ← right.toInt_word]
    refine ⟨⟨right.word :: left.word :: situation.stack, store⟩,
      ⟨⟨_, middle⟩, ⟨left, leftEvaluated, rfl⟩, ⟨right, rightEvaluated, rfl⟩⟩, ?_⟩
    exact Test.takes_ints (by rw [left.type_word, leftIs]; rfl) (by rw [right.type_word, rightIs]; rfl)
  · obtain ⟨_, _, leftPromoted, rightPromoted⟩ := Scalar.joined?_eq_some joined
    obtain ⟨leftFits, rightFits⟩ := promoted_of_joined joined
    simp only [Lowered.comparison, Integral.type_numeric, yields_bind, yields_ite,
      Emit.yields_branch] at yields
    obtain ⟨_, middle, value, yields⟩ := yields
    have performs := meansLeft.convertedTo separate isLeft leftTyped (.ofPromoted leftPromoted) value
    obtain ⟨⟨isInt, isZero⟩, rfl, rfl⟩ | ⟨_, _, _, other, compared⟩ := yields
    · have isInt : integral = .int := by cases integral <;> first | rfl | cases isInt
      subst isInt
      refine (Generator.Asks.branch performs _).mono ?_
      rintro situation leaves ⟨stack, store⟩ agrees answers
      obtain ⟨left, right, middle, leftEvaluated, rightEvaluated, rfl, rfl, same, rfl⟩ :=
        answers_compare separate isLeft isRight leftTyped rightTyped compares agrees answers
      obtain ⟨rfl, rightIsZero, _⟩ := Expr.eval_intConstant isZero rightEvaluated
      have isNumber : right.toInt = 0 := rightIsZero
      have leftIs : (left.convert FieldType.int).word.toInt = left.toInt := by
        rw [show FieldType.int = Integral.int.type from rfl, left.word_convert,
          Scalar.toInt_promoted leftFits]
      rw [show stack = _ from same, ← Comparison.holds_wanted, isNumber]
      exact ⟨⟨(left.convert .int).word :: situation.stack, store⟩, ⟨left, leftEvaluated, rfl⟩,
        Test.takes_zero rfl leftIs⟩
    · have behind :=
        meansRight.convertedTo separate isRight rightTyped (.ofPromoted rightPromoted) other
      refine (asks_compareNumbers (performs.trans behind) compared).mono ?_
      rintro situation leaves ⟨stack, store⟩ agrees answers
      obtain ⟨left, right, middle, leftEvaluated, rightEvaluated, rfl, rfl, same, rfl⟩ :=
        answers_compare separate isLeft isRight leftTyped rightTyped compares agrees answers
      rw [show stack = _ from same]
      refine ⟨.ofInt integral left.toInt, .ofInt integral right.toInt, Word.type_ofInt _ _,
        Word.type_ofInt _ _, ?_, ⟨_, middle⟩, ⟨left, leftEvaluated, rfl⟩, right, rightEvaluated, ?_⟩
      · rw [Scalar.toInt_promoted leftFits, Scalar.toInt_promoted rightFits]
      · rw [left.word_convert, right.word_convert]

theorem unaryType_eq {op : UnaryOp} {source : FieldType} {numeric : Numeric}
    (isScalar : source.isScalar = true)
    (typed : unaryType op (.value source) position = .ok numeric) :
    ∃ integral, source.promoted? = some integral ∧ numeric = integral.numeric := by
  unfold unaryType unaryType? at typed
  split at typed
  · next found =>
    cases typed
    exact FieldType.promoted?_of_numeric isScalar (Option.filter_eq_some_iff.mp found).1
  · cases typed

theorem leaves_unary {op : UnaryOp} {operandExpr : Expr} (separate : frame.Separate)
    (isOperand : operandExpr.IsScalar known) (isNumeric : op ≠ .not)
    (means : operand.Means frame operandExpr) :
    Leaves frame (.unary op operandExpr position) true (Lowered.unary op operand position) := by
  intro before type after yields
  simp only [Lowered.unary, yields_bind, yields_liftExcept, Emit.yields_instrs] at yields
  obtain ⟨_, _, yielded, numeric, middle, ⟨isTyped, rfl⟩, _, _, rfl, yields⟩ := yields
  obtain ⟨source, rfl, typed, performs⟩ := means.value yielded
  obtain ⟨integral, promoted, rfl⟩ :=
    unaryType_eq (separate.isScalar_type isOperand typed) isTyped
  rw [Integral.type_numeric] at yields
  have resultTyped : (Expr.unary op operandExpr position).scalarType? frame.types =
      some integral.type :=
    (Expr.scalarType?_unary isNumeric).mpr ⟨source, integral, typed, promoted, rfl⟩
  have promotes : before.Performs frame (operandExpr.PushesAs frame.types integral.type)
      (middle.pushAll ((StaticType.value source).conversion integral.type)) :=
    performs.converted separate isOperand typed (.ofPromoted promoted)
  have evaluates : ∀ {situation final : Situation}, situation.store.Agrees frame.types →
      (Expr.unary op operandExpr position).Pushes frame.types situation final →
      ∃ value result, operandExpr.eval frame.types situation.store = some (value, final.store) ∧
        value.unary op = some result ∧ value.type.promoted? = some integral ∧
          final.stack = result.word :: situation.stack := by
    rintro situation final agrees ⟨result, evaluated, same⟩
    obtain ⟨value, evaluated, computed⟩ := (Expr.eval_unary isNumeric).mp evaluated
    obtain ⟨rfl, _⟩ := separate.eval_type isOperand evaluated typed agrees
    exact ⟨value, result, evaluated, computed, promoted, same⟩
  cases op with
  | not => exact absurd rfl isNumeric
  | plus =>
    simp only [yields_pure] at yields
    obtain ⟨rfl, rfl⟩ := yields
    refine ⟨_, rfl, resultTyped, promotes.mono ?_⟩
    intro situation final agrees pushes
    obtain ⟨value, result, evaluated, computed, promoted, same⟩ := evaluates agrees pushes
    rw [Scalar.unary, promoted] at computed
    cases computed
    exact ⟨value, evaluated, by rw [same, Scalar.word_convert, Scalar.word_ofWord]⟩
  | minus =>
    simp only [yields_bind, Emit.yields_instr, yields_pure] at yields
    obtain ⟨_, _, rfl, rfl, rfl⟩ := yields
    refine ⟨_, rfl, resultTyped, (promotes.trans (.push _ _)).mono ?_⟩
    rintro situation ⟨stack, store⟩ agrees pushes
    obtain ⟨value, result, evaluated, computed, promoted, same⟩ := evaluates agrees pushes
    rw [Scalar.unary, promoted] at computed
    cases computed
    rw [show stack = _ from same, Scalar.word_ofWord]
    refine ⟨⟨.ofInt integral value.toInt :: situation.stack, store⟩,
      ⟨value, evaluated, by rw [Scalar.word_convert]⟩, Instr.changes_neg ?_⟩
    rw [Word.type_ofInt, Integral.integral?_numeric]
  | complement =>
    have complements : ∀ {start}, Generator.Performs frame
        (middle.pushAll ((StaticType.value source).conversion integral.type))
        (fun situation final => final = situation.push (.ofInt integral (-1))) start →
        before.Performs frame ((Expr.unary .complement operandExpr position).Pushes frame.types)
          (start.push (.bitwise .xor integral)) := by
      intro start constant
      refine ((promotes.trans constant).trans (.push _ _)).mono ?_
      rintro situation ⟨stack, store⟩ agrees pushes
      obtain ⟨value, result, evaluated, computed, promoted, same⟩ := evaluates agrees pushes
      rw [Scalar.unary, promoted] at computed
      cases computed
      rw [show stack = _ from same, Scalar.word_ofWord]
      refine ⟨_, ⟨⟨.ofInt integral value.toInt :: situation.stack, store⟩,
        ⟨value, evaluated, by rw [Scalar.word_convert]⟩, rfl⟩, ?_⟩
      refine Instr.changes_combine (fun _ _ => rfl) (Word.type_ofInt _ _) (Word.type_ofInt _ _) ?_
      have ones := Word.bitwise_minus_one (.ofInt integral value.toInt)
      rwa [Word.type_ofInt] at ones
    cases integral with
    | int =>
      simp only [Integral.numeric, yields_bind, Emit.yields_instr, yields_pure] at yields
      obtain ⟨_, _, constant, _, _, rfl, rfl, rfl⟩ := yields
      exact ⟨_, rfl, resultTyped, complements (performs_int constant)⟩
    | long =>
      simp only [Integral.numeric, yields_bind, Emit.yields_instr, yields_pure] at yields
      obtain ⟨_, _, constant, _, _, rfl, rfl, rfl⟩ := yields
      exact ⟨_, rfl, resultTyped, complements (performs_long constant)⟩

theorem leaves_conditional {test : Lowered} {testExpr : Expr} {result : FieldType}
    (separate : frame.Separate) (isTest : testExpr.IsScalar known)
    (isFirst : leftExpr.IsScalar known) (isSecond : rightExpr.IsScalar known)
    (meansTest : test.Means frame testExpr) (meansFirst : first.Means frame leftExpr)
    (meansSecond : second.Means frame rightExpr)
    (firstTyped : leftExpr.scalarType? frame.types = some firstType)
    (secondTyped : rightExpr.scalarType? frame.types = some secondType)
    (isOutcome : Expr.outcomeType? firstType secondType = some result) :
    Leaves frame (.conditional testExpr leftExpr rightExpr position) true
      (Lowered.conditional test first second (.value result)) := by
  intro before type after yields
  have converts : Convertible firstType result ∧ Convertible secondType result := by
    unfold Expr.outcomeType? at isOutcome
    split at isOutcome
    · next same =>
      cases isOutcome
      exact ⟨.inl rfl, .inl same.symm⟩
    · obtain ⟨integral, joined, rfl⟩ := Option.map_eq_some_iff.mp isOutcome
      obtain ⟨_, _, isLeft, isRight⟩ := Scalar.joined?_eq_some joined
      exact ⟨.ofPromoted isLeft, .ofPromoted isRight⟩
  simp only [Lowered.conditional, yields_bind, Emit.yields_depth, Emit.yields_branch,
    Emit.yields_landHere, Emit.yields_setDepth, yields_pure] at yields
  obtain ⟨skips, _, tested, _, _, ⟨rfl, rfl⟩, _, _, whenTrue, _, _, ⟨rfl, rfl⟩, _, _, rfl,
    _, _, rfl, _, _, whenFalse, _, _, rfl, rfl, rfl⟩ := yields
  obtain ⟨testTyped, asks⟩ := meansTest.branches tested
  have typed : (Expr.conditional testExpr leftExpr rightExpr position).scalarType? frame.types =
      some result :=
    Expr.scalarType?_conditional.mpr ⟨_, _, testTyped, firstTyped, secondTyped, isOutcome⟩
  refine ⟨_, rfl, typed, (Generator.Performs.choice asks
    (meansFirst.convertedTo separate isFirst firstTyped converts.1 whenTrue)
    (meansSecond.convertedTo separate isSecond secondTyped converts.2 whenFalse)).mono ?_⟩
  rintro situation final agrees ⟨value, evaluated, same⟩
  obtain ⟨_, _, middle, truth, chosen, isTyped, decided, isTruth, isChosen, rfl⟩ :=
    Expr.eval_conditional.mp evaluated
  cases typed.symm.trans isTyped
  obtain ⟨isBoolean, _⟩ := separate.eval_type isTest decided testTyped agrees
  obtain ⟨decision, rfl⟩ := Scalar.eq_boolean isBoolean
  cases isTruth
  refine ⟨!truth, ⟨situation.stack, middle⟩, ⟨truth, decided, rfl, by cases truth <;> rfl⟩, ?_⟩
  cases truth
  · exact ⟨chosen, isChosen, same⟩
  · exact ⟨chosen, isChosen, same⟩

theorem castPlan?_eq {host : Host} {source target : FieldType} {plan : CastPlan}
    (isScalar : source.isScalar = true) (isIntegral : target.isIntegral = true)
    (planned : host.castPlan? (.value source) target = some plan) :
    plan = .convert (conversion source target) ∧ source.isIntegral = true ∧
      Convertible source target := by
  have promotes : ∀ {type : FieldType}, type.isIntegral = true →
      ∃ integral, type.promoted? = some integral := by
    intro type isIntegral
    cases type <;> first | exact ⟨_, rfl⟩ | cases isIntegral
  have noReference : (target.isReference) = false := by
    cases target <;> first | rfl | cases isIntegral
  simp only [Host.castPlan?, noReference, Bool.and_false, Bool.false_eq_true, if_false] at planned
  split at planned
  · next convertible =>
    cases planned
    have numbers : source.isIntegral = true := by
      simp only [Bool.or_eq_true, decide_eq_true_eq, Bool.and_eq_true] at convertible
      rcases convertible with same | ⟨isNumeric, _⟩
      · exact same ▸ isIntegral
      · simp only [FieldType.isScalar, Bool.or_eq_true, decide_eq_true_eq] at isScalar
        rcases isScalar with rfl | isIntegral
        · cases isNumeric
        · exact isIntegral
    obtain ⟨_, isFirst⟩ := promotes numbers
    obtain ⟨_, isSecond⟩ := promotes isIntegral
    exact ⟨rfl, numbers, .inr ⟨_, _, isFirst, isSecond⟩⟩
  · cases planned

theorem leaves_cast {site : Site} {written : TypeRef} {target : FieldType} {operandExpr : Expr}
    (separate : frame.Separate) (isOperand : operandExpr.IsScalar known)
    (isIntegral : written.integral? = some target) (means : operand.Means frame operandExpr) :
    Leaves frame (.cast written operandExpr position) true
      (Lowered.cast site target operand position) := by
  intro before type after yields
  simp only [Lowered.cast, yields_bind] at yields
  obtain ⟨_, middle, yielded, yields⟩ := yields
  obtain ⟨source, rfl, typed, performs⟩ := means.value yielded
  have isScalar := separate.isScalar_type isOperand typed
  split at yields
  · next instrs planned =>
    obtain ⟨isPlan, numbers, converts⟩ :=
      castPlan?_eq isScalar (TypeRef.isIntegral_of_integral isIntegral) planned
    cases isPlan
    simp only [yields_bind, Emit.yields_instrs, yields_pure] at yields
    obtain ⟨_, _, rfl, rfl, rfl⟩ := yields
    refine ⟨target, rfl, (Expr.scalarType?_cast isIntegral).mpr ⟨_, typed, numbers, rfl⟩,
      (performs.converted separate isOperand typed converts).mono ?_⟩
    rintro situation final _ ⟨_, evaluated, same⟩
    obtain ⟨value, isValue, rfl⟩ := (Expr.eval_cast isIntegral).mp evaluated
    exact ⟨value, isValue, same⟩
  · next className planned =>
    obtain ⟨isPlan, _⟩ := castPlan?_eq isScalar (TypeRef.isIntegral_of_integral isIntegral) planned
    cases isPlan
  · simp only [yields_bind] at yields
    obtain ⟨_, _, thrown, _⟩ := yields
    exact absurd thrown yields_throw

end Lowered

end MethodPatch
