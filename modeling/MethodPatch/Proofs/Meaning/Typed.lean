/-
**Expressions that have a type.**

The type of an expression is the one of its value, and evaluation keeps the types of the variables.
An expression that has a type is never stuck.

* `Expr.eval_type`: the type of a value;
* `Expr.eval_eq_some`: an expression that has a type has a value, if the variables have one.
-/

import MethodPatch.Proofs.Meaning.Expr

namespace MethodPatch

namespace Expr

variable {types : Types}

theorem isScalar_of_joined {first second type : FieldType}
    (joined : (joined? first second).map Integral.type = some type) : type.isScalar = true := by
  obtain ⟨integral, _, rfl⟩ := Option.map_eq_some_iff.mp joined
  exact FieldType.isScalar_of_promoted integral.promoted?_type

theorem isScalar_of_compute {op : ComputeOp} {first second type : FieldType}
    (typed : op.type? first second = some type) : type.isScalar = true := by
  cases op with
  | arithmetic op =>
    cases op with
    | div | rem => cases typed
    | add | sub | mul => exact isScalar_of_joined typed
  | shift op =>
    simp only [ComputeOp.type?, Option.ite_none_right_eq_some, Option.map_eq_some_iff] at typed
    obtain ⟨_, integral, _, rfl⟩ := typed
    exact FieldType.isScalar_of_promoted integral.promoted?_type
  | bitwise op =>
    simp only [ComputeOp.type?] at typed
    split at typed
    · cases typed
      rfl
    · exact isScalar_of_joined typed

/-- Expressions have types of truth values and whole numbers. -/
theorem isScalar_scalarType?
    (scalars : ∀ name type, types name = some type → type.isScalar = true)
    {isVariable : String → Prop} {expression : Expr} (isScalar : expression.IsScalar isVariable)
    {type : FieldType} (typed : expression.scalarType? types = some type) :
    type.isScalar = true := by
  induction isScalar generalizing type with
  | literal position isConstant =>
    rw [scalarType?_literal isConstant] at typed
    cases typed
    exact Scalar.isScalar_type _
  | name position known => exact scalars _ _ typed
  | assign place position known isSource ih =>
    obtain ⟨_, isTarget, _⟩ := scalarType?_assign.mp typed
    exact scalars _ _ isTarget
  | compound place position known total isSource ih =>
    obtain ⟨_, _, isTarget, _⟩ := scalarType?_compound.mp typed
    exact scalars _ _ isTarget
  | update op before place position known =>
    obtain ⟨_, isTarget, _⟩ := scalarType?_update.mp typed
    exact scalars _ _ isTarget
  | not position isOperand ih =>
    obtain ⟨_, rfl⟩ := scalarType?_not.mp typed
    rfl
  | unary position isNumeric isOperand ih =>
    obtain ⟨_, integral, _, _, rfl⟩ := (scalarType?_unary isNumeric).mp typed
    exact FieldType.isScalar_of_promoted integral.promoted?_type
  | compute position total isLeft isRight ihLeft ihRight =>
    obtain ⟨_, _, _, _, computes⟩ := scalarType?_compute.mp typed
    exact isScalar_of_compute computes
  | compare comparison position isLeft isRight ihLeft ihRight =>
    obtain ⟨_, _, _, _, _, rfl⟩ := scalarType?_compare.mp typed
    rfl
  | logical op position isLeft isRight ihLeft ihRight =>
    obtain ⟨_, _, rfl⟩ := scalarType?_logical.mp typed
    rfl
  | conditional position isTest isFirst isSecond ihTest ihFirst ihSecond =>
    obtain ⟨_, _, _, firstTyped, _, isOutcome⟩ := scalarType?_conditional.mp typed
    unfold outcomeType? at isOutcome
    split at isOutcome
    · cases isOutcome
      exact ihFirst firstTyped
    · exact isScalar_of_joined isOutcome
  | cast position isIntegral isOperand ih =>
    obtain ⟨_, _, _, rfl⟩ := (scalarType?_cast isIntegral).mp typed
    exact TypeRef.isScalar_of_integral isIntegral

theorem isScalar_of_outcome {first second type : FieldType} {value : Scalar}
    (isValue : value.type = first ∨ value.type = second)
    (isOutcome : outcomeType? first second = some type) : type.isScalar = true := by
  unfold outcomeType? at isOutcome
  split at isOutcome
  · next same =>
    cases isOutcome
    rw [← same, or_self] at isValue
    exact isValue ▸ value.isScalar_type
  · exact isScalar_of_joined isOutcome

/-- Evaluation gives values of the types that are known. -/
theorem eval_type (scalars : ∀ name type, types name = some type → type.isScalar = true)
    {isVariable : String → Prop} {expression : Expr} (isScalar : expression.IsScalar isVariable)
    {store after : Store} {value : Scalar} {type : FieldType}
    (evaluated : expression.eval types store = some (value, after))
    (typed : expression.scalarType? types = some type) (agrees : store.Agrees types) :
    value.type = type ∧ after.Agrees types := by
  induction isScalar generalizing store after value type with
  | literal position isConstant =>
    rw [eval_literal isConstant] at evaluated
    rw [scalarType?_literal isConstant] at typed
    cases evaluated
    cases typed
    exact ⟨rfl, agrees⟩
  | name position known =>
    obtain ⟨isValue, rfl⟩ := eval_name.mp evaluated
    exact ⟨agrees.type_eq typed isValue, agrees⟩
  | assign place position known isSource ih =>
    obtain ⟨result, middle, target, isResult, isTarget, rfl, rfl⟩ := eval_assign.mp evaluated
    obtain ⟨sourceType, isType, sourceTyped, _⟩ := scalarType?_assign.mp typed
    cases isTarget.symm.trans isType
    have stored : (result.convert type).type = type := Scalar.type_ofInt (scalars _ _ isType) _
    exact ⟨stored, (ih isResult sourceTyped agrees).2.set (by rw [stored, isType])⟩
  | compound place position known total isSource ih =>
    obtain ⟨_, result, middle, computed, target, _, isResult, _, isTarget, rfl, rfl⟩ :=
      eval_compound.mp evaluated
    obtain ⟨sourceType, _, isType, sourceTyped, _⟩ := scalarType?_compound.mp typed
    cases isTarget.symm.trans isType
    have stored : (computed.convert type).type = type := Scalar.type_ofInt (scalars _ _ isType) _
    exact ⟨stored, (ih isResult sourceTyped agrees).2.set (by rw [stored, isType])⟩
  | update op before place position known =>
    obtain ⟨old, new, isOld, isNew, rfl, rfl⟩ := eval_update.mp evaluated
    obtain ⟨_, isTarget, _⟩ := scalarType?_update.mp typed
    obtain rfl := agrees.type_eq isTarget isOld
    have same := Scalar.type_updated isNew
    refine ⟨?_, agrees.set (by rw [same, isTarget])⟩
    split
    · exact same
    · rfl
  | not position isOperand ih =>
    obtain ⟨_, _, isResult, _, rfl⟩ := eval_not.mp evaluated
    obtain ⟨operandTyped, rfl⟩ := scalarType?_not.mp typed
    exact ⟨rfl, (ih isResult operandTyped agrees).2⟩
  | unary position isNumeric isOperand ih =>
    obtain ⟨_, isResult, computed⟩ := (eval_unary isNumeric).mp evaluated
    obtain ⟨_, _, operandTyped, promoted, rfl⟩ := (scalarType?_unary isNumeric).mp typed
    obtain ⟨rfl, agrees⟩ := ih isResult operandTyped agrees
    exact ⟨Scalar.type_unary computed promoted, agrees⟩
  | compute position total isLeft isRight ihLeft ihRight =>
    obtain ⟨first, middle, second, isFirst, isSecond, computed⟩ := eval_compute.mp evaluated
    obtain ⟨_, _, leftTyped, rightTyped, computes⟩ := scalarType?_compute.mp typed
    obtain ⟨rfl, agrees⟩ := ihLeft isFirst leftTyped agrees
    obtain ⟨rfl, agrees⟩ := ihRight isSecond rightTyped agrees
    obtain ⟨_, isComputed, rfl⟩ := Scalar.compute_eq_some computes
    cases computed.symm.trans isComputed
    exact ⟨rfl, agrees⟩
  | compare comparison position isLeft isRight ihLeft ihRight =>
    obtain ⟨first, middle, second, _, isFirst, isSecond, _, rfl⟩ := eval_compare.mp evaluated
    obtain ⟨_, _, leftTyped, rightTyped, _, rfl⟩ := scalarType?_compare.mp typed
    exact ⟨rfl, (ihRight isSecond rightTyped (ihLeft isFirst leftTyped agrees).2).2⟩
  | logical op position isLeft isRight ihLeft ihRight =>
    obtain ⟨first, middle, decision, isFirst, _, outcome⟩ := eval_logical.mp evaluated
    obtain ⟨leftTyped, rightTyped, rfl⟩ := scalarType?_logical.mp typed
    obtain ⟨firstTyped, agrees⟩ := ihLeft isFirst leftTyped agrees
    rcases outcome with ⟨_, rfl, rfl⟩ | ⟨_, isSecond⟩
    · exact ⟨firstTyped, agrees⟩
    · exact ihRight isSecond rightTyped agrees
  | conditional position isTest isFirst isSecond ihTest ihFirst ihSecond =>
    obtain ⟨target, _, middle, decision, result, isTyped, isDecision, _, isResult, rfl⟩ :=
      eval_conditional.mp evaluated
    cases typed.symm.trans isTyped
    obtain ⟨firstType, secondType, testTyped, firstTyped, secondTyped, isOutcome⟩ :=
      scalarType?_conditional.mp typed
    obtain ⟨_, agrees⟩ := ihTest isDecision testTyped agrees
    have outcome : after.Agrees types ∧ (result.type = firstType ∨ result.type = secondType) := by
      cases decision with
      | true =>
        obtain ⟨typed, agrees⟩ := ihFirst isResult firstTyped agrees
        exact ⟨agrees, .inl typed⟩
      | false =>
        obtain ⟨typed, agrees⟩ := ihSecond isResult secondTyped agrees
        exact ⟨agrees, .inr typed⟩
    exact ⟨Scalar.type_ofInt (isScalar_of_outcome outcome.2 isOutcome) _, outcome.1⟩
  | cast position isIntegral isOperand ih =>
    obtain ⟨_, isResult, rfl⟩ := (eval_cast isIntegral).mp evaluated
    obtain ⟨_, operandTyped, _, rfl⟩ := (scalarType?_cast isIntegral).mp typed
    exact ⟨Scalar.type_ofInt (TypeRef.isScalar_of_integral isIntegral) _,
      (ih isResult operandTyped agrees).2⟩

/-- **Expressions that have a type have a value**, if the variables have one. -/
theorem eval_eq_some (scalars : ∀ name type, types name = some type → type.isScalar = true)
    {isVariable : String → Prop} {expression : Expr} (isScalar : expression.IsScalar isVariable)
    {store : Store} {type : FieldType} (typed : expression.scalarType? types = some type)
    (agrees : store.Agrees types) (total : store.IsTotal types) :
    ∃ value after, expression.eval types store = some (value, after) ∧ after.IsTotal types := by
  induction isScalar generalizing store type with
  | literal position isConstant => exact ⟨_, store, eval_literal isConstant, total⟩
  | name position known =>
    obtain ⟨value, isValue⟩ := total.eq_some typed
    exact ⟨value, store, eval_name.mpr ⟨isValue, rfl⟩, total⟩
  | assign place position known isSource ih =>
    obtain ⟨_, isTarget, sourceTyped, _⟩ := scalarType?_assign.mp typed
    obtain ⟨result, middle, isResult, total⟩ := ih sourceTyped agrees total
    exact ⟨_, _, eval_assign.mpr ⟨result, middle, type, isResult, isTarget, rfl, rfl⟩, total.set⟩
  | compound place position known _ isSource ih =>
    obtain ⟨_, _, isTarget, sourceTyped, computes⟩ := scalarType?_compound.mp typed
    obtain ⟨old, isOld⟩ := total.eq_some isTarget
    obtain ⟨result, middle, isResult, total⟩ := ih sourceTyped agrees total
    obtain ⟨rfl, _⟩ := eval_type scalars isSource isResult sourceTyped agrees
    obtain rfl := agrees.type_eq isTarget isOld
    obtain ⟨computed, isComputed, _⟩ := Scalar.compute_eq_some computes
    exact ⟨_, _, eval_compound.mpr ⟨old, result, middle, computed, old.type, isOld, isResult,
      isComputed, isTarget, rfl, rfl⟩, total.set⟩
  | update op before place position known =>
    obtain ⟨_, isTarget, promoted⟩ := scalarType?_update.mp typed
    obtain ⟨old, isOld⟩ := total.eq_some isTarget
    obtain rfl := agrees.type_eq isTarget isOld
    obtain ⟨new, isNew, _⟩ := Scalar.updated_eq_some op promoted
    exact ⟨_, _, eval_update.mpr ⟨old, new, isOld, isNew, rfl, rfl⟩, total.set⟩
  | not position isOperand ih =>
    obtain ⟨operandTyped, _⟩ := scalarType?_not.mp typed
    obtain ⟨result, after, isResult, total⟩ := ih operandTyped agrees total
    obtain ⟨isBoolean, _⟩ := eval_type scalars isOperand isResult operandTyped agrees
    obtain ⟨truth, isTruth⟩ := Scalar.truth?_eq_some isBoolean
    exact ⟨_, after, eval_not.mpr ⟨result, truth, isResult, isTruth, rfl⟩, total⟩
  | unary position isNumeric isOperand ih =>
    obtain ⟨_, _, operandTyped, promoted, _⟩ := (scalarType?_unary isNumeric).mp typed
    obtain ⟨result, after, isResult, total⟩ := ih operandTyped agrees total
    obtain ⟨rfl, _⟩ := eval_type scalars isOperand isResult operandTyped agrees
    obtain ⟨computed, isComputed, _⟩ := Scalar.unary_eq_some promoted isNumeric
    exact ⟨computed, after, (eval_unary isNumeric).mpr ⟨result, isResult, isComputed⟩, total⟩
  | compute position _ isLeft isRight ihLeft ihRight =>
    obtain ⟨_, _, leftTyped, rightTyped, computes⟩ := scalarType?_compute.mp typed
    obtain ⟨first, middle, isFirst, total⟩ := ihLeft leftTyped agrees total
    obtain ⟨rfl, agrees⟩ := eval_type scalars isLeft isFirst leftTyped agrees
    obtain ⟨second, after, isSecond, total⟩ := ihRight rightTyped agrees total
    obtain ⟨rfl, _⟩ := eval_type scalars isRight isSecond rightTyped agrees
    obtain ⟨computed, isComputed, _⟩ := Scalar.compute_eq_some computes
    exact ⟨computed, after,
      eval_compute.mpr ⟨first, middle, second, isFirst, isSecond, isComputed⟩, total⟩
  | compare comparison position isLeft isRight ihLeft ihRight =>
    obtain ⟨_, _, leftTyped, rightTyped, compares, _⟩ := scalarType?_compare.mp typed
    obtain ⟨first, middle, isFirst, total⟩ := ihLeft leftTyped agrees total
    obtain ⟨rfl, agrees⟩ := eval_type scalars isLeft isFirst leftTyped agrees
    obtain ⟨second, after, isSecond, total⟩ := ihRight rightTyped agrees total
    obtain ⟨rfl, _⟩ := eval_type scalars isRight isSecond rightTyped agrees
    exact ⟨_, after,
      eval_compare.mpr ⟨first, middle, second, _, isFirst, isSecond, if_pos compares, rfl⟩, total⟩
  | logical op position isLeft isRight ihLeft ihRight =>
    obtain ⟨leftTyped, rightTyped, _⟩ := scalarType?_logical.mp typed
    obtain ⟨first, middle, isFirst, total⟩ := ihLeft leftTyped agrees total
    obtain ⟨isBoolean, agrees⟩ := eval_type scalars isLeft isFirst leftTyped agrees
    obtain ⟨decision, isDecision⟩ := Scalar.truth?_eq_some isBoolean
    by_cases decides : decision = op.decisive
    · exact ⟨first, middle, eval_logical.mpr ⟨first, middle, decision, isFirst, isDecision,
        .inl ⟨decides, rfl, rfl⟩⟩, total⟩
    · obtain ⟨second, after, isSecond, total⟩ := ihRight rightTyped agrees total
      exact ⟨second, after, eval_logical.mpr ⟨first, middle, decision, isFirst, isDecision,
        .inr ⟨decides, isSecond⟩⟩, total⟩
  | conditional position isTest isFirst isSecond ihTest ihFirst ihSecond =>
    obtain ⟨_, _, testTyped, firstTyped, secondTyped, _⟩ := scalarType?_conditional.mp typed
    obtain ⟨tested, middle, isTested, total⟩ := ihTest testTyped agrees total
    obtain ⟨isBoolean, agrees⟩ := eval_type scalars isTest isTested testTyped agrees
    obtain ⟨decision, isDecision⟩ := Scalar.truth?_eq_some isBoolean
    cases decision with
    | true =>
      obtain ⟨result, after, isResult, total⟩ := ihFirst firstTyped agrees total
      exact ⟨_, after, eval_conditional.mpr ⟨type, tested, middle, true, result, typed, isTested,
        isDecision, isResult, rfl⟩, total⟩
    | false =>
      obtain ⟨result, after, isResult, total⟩ := ihSecond secondTyped agrees total
      exact ⟨_, after, eval_conditional.mpr ⟨type, tested, middle, false, result, typed, isTested,
        isDecision, isResult, rfl⟩, total⟩
  | cast position isIntegral isOperand ih =>
    obtain ⟨_, operandTyped, _⟩ := (scalarType?_cast isIntegral).mp typed
    obtain ⟨result, after, isResult, total⟩ := ih operandTyped agrees total
    exact ⟨_, after, (eval_cast isIntegral).mpr ⟨result, isResult, rfl⟩, total⟩

end Expr

end MethodPatch
