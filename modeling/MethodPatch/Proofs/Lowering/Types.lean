/-
**Types that are found without generating code.**

A scope binds the names of variables as a frame has them. Then the type that is found for an
expression over these variables, before any code is generated for it, is the type of its meaning.

* `Frame.Binds`: a scope that binds a name as a frame has it;
* `Expr.scalarType?_of_staticType`: the type of an expression.
-/

import MethodPatch.Proofs.Lowering.Assign

namespace MethodPatch

/-- A scope binds a name as a frame has it. -/
def Frame.Binds (frame : Frame) (scope : Scope) (name : String) : Prop :=
  ∃ slot type, frame name = some (slot, type) ∧ scope.binding? name = some (slot, type)

variable {site : Site} {scope : Scope} {frame : Frame}

/-! ### Names -/

section Names

variable {name : String} {slot : Slot} {type : FieldType} {place : Position}

theorem Site.names_of_binding (bound : scope.binding? name = some (slot, type)) :
    site.Names scope name slot type := by
  rw [Names, nameUse?, bound]

theorem Site.intVariable?_of_binding (bound : scope.binding? name = some (slot, type)) :
    site.intVariable? scope (.name name place) = if type = .int then some slot else none := by
  have names : site.nameUse? scope name = some (.variable slot type) := names_of_binding bound
  rw [intVariable?, names]
  cases type <;> rfl

theorem Typed.place_of_binding (bound : scope.binding? name = some (slot, type)) :
    (Typed.name site scope name place).place = .ok (.variable slot type) := by
  have names : site.nameUse? scope name = some (.variable slot type) := Site.names_of_binding bound
  rw [Typed.name, Site.namePlace, names]

end Names

/-! ### Types -/

theorem Typed.condition_eq_ok {typed : Typed} {position : Position} {done : Unit}
    (isOk : typed.condition position = .ok done) : typed.value = .ok (.value .boolean) := by
  simp only [condition, bind_eq_ok] at isOk
  obtain ⟨type, isTyped, required⟩ := isOk
  unfold requireBoolean at required
  split at required
  · next same => rw [isTyped, same]
  · cases required

theorem outcomeType?_of_conditional {host : Host} {first second : FieldType} {result : StaticType}
    (isFirst : first.isScalar = true) (isSecond : second.isScalar = true)
    (typed : host.conditionalType? (.value first) (.value second) = some result) :
    ∃ type, result = .value type ∧ Expr.outcomeType? first second = some type := by
  have noReference : first.isReference = false := by
    cases first <;> first | rfl | simp [FieldType.isScalar, FieldType.isIntegral] at isFirst
  simp only [Host.conditionalType?, noReference, Bool.false_and, Bool.false_eq_true, if_false]
    at typed
  unfold Expr.outcomeType?
  split at typed
  · next same =>
    cases typed
    exact ⟨first, rfl, if_pos same⟩
  · next different =>
    split at typed
    · next promotes =>
      cases typed
      obtain ⟨integral, joined, rfl⟩ := joined?_of_promotion isFirst isSecond promotes
      exact ⟨integral.type, by rw [Integral.type_numeric], by rw [if_neg different, joined]; rfl⟩
    · cases typed

theorem Host.typeOf_integral {host : Host} {written : TypeRef} {target : FieldType}
    (isIntegral : written.integral? = some target) : host.typeOf written = .ok target := by
  unfold TypeRef.integral? at isIntegral
  split at isIntegral
  · next element isPrimitive noBrackets =>
    simp only [Option.ite_none_right_eq_some, Option.some.injEq] at isIntegral
    rw [typeOf, isPrimitive, noBrackets, ← isIntegral.2]
    rfl
  · cases isIntegral

/-- **Types that are found without generating code** are those of the meaning. -/
theorem Expr.scalarType?_of_staticType (separate : frame.Separate) {expression : Expr}
    (isScalar : expression.IsScalar (frame.Binds scope)) {type : StaticType}
    (typed : expression.staticType site scope = .ok type) :
    ∃ result, type = .value result ∧ expression.scalarType? frame.types = some result := by
  rw [staticType] at typed
  induction isScalar generalizing type with
  | @literal value constant position isConstant =>
    simp only [Expr.typed, Typed.ofValue] at typed
    cases typed
    refine ⟨constant.type, ?_, scalarType?_literal isConstant⟩
    cases value <;> cases isConstant <;> rfl
  | name position known =>
    obtain ⟨slot, found, isVariable, bound⟩ := known
    simp only [Expr.typed, Typed.name, Site.nameQualifier,
      show site.nameUse? scope _ = _ from Site.names_of_binding bound] at typed
    cases typed
    exact ⟨found, rfl, Frame.types_eq isVariable⟩
  | assign place position known isSource ih =>
    obtain ⟨slot, found, isVariable, bound⟩ := known
    have isTarget := Frame.types_eq isVariable
    simp only [Expr.typed, Typed.ofValue] at typed
    split at typed
    · next inPlace =>
      obtain ⟨_, _, _, absurd, _⟩ := incrementBy?_eq inPlace
      cases absurd
    · simp only [Typed.place_of_binding bound, bind_eq_ok, pure_eq_ok, Typed.assignment] at typed
      obtain ⟨_, same, _, isTyped, _, coerced, rfl⟩ := typed
      cases same
      obtain ⟨source, rfl, sourceTyped⟩ := ih isTyped
      obtain ⟨storable, _⟩ := Lowered.coercion_scalar (separate.isScalar_type isSource sourceTyped)
        (separate.isScalar isTarget) coerced
      exact ⟨found, rfl, scalarType?_assign.mpr ⟨source, isTarget, sourceTyped, storable⟩⟩
  | compound place position known total isSource ih =>
    obtain ⟨slot, found, isVariable, bound⟩ := known
    have isTarget := Frame.types_eq isVariable
    simp only [Expr.typed, Typed.ofValue] at typed
    split at typed
    · next inInt inPlace =>
      cases typed
      rw [Site.intVariable?_of_binding bound] at inInt
      obtain ⟨rfl, _⟩ := Option.ite_none_right_eq_some.mp inInt
      obtain ⟨amount, arithmetic, isAmount, same, adds⟩ := incrementBy?_eq inPlace
      cases same
      obtain ⟨source, sourceTyped, computes⟩ := scalarType?_constant frame.types isAmount adds
      exact ⟨.int, rfl, scalarType?_compound.mpr ⟨source, _, isTarget, sourceTyped, computes⟩⟩
    · simp only [Typed.place_of_binding bound, bind_eq_ok, Typed.assignment] at typed
      obtain ⟨_, same, _, isTyped, typed⟩ := typed
      cases same
      obtain ⟨source, rfl, sourceTyped⟩ := ih isTyped
      have targetScalar := separate.isScalar isTarget
      simp only [Place.type, FieldType.isString_of_isScalar targetScalar, Bool.false_eq_true,
        and_false, if_false, bind_eq_ok, pure_eq_ok] at typed
      obtain ⟨plan, planned, rfl⟩ := typed
      obtain ⟨computes, _⟩ := ComputePlan.type?_eq total targetScalar
        (separate.isScalar_type isSource sourceTyped) (computePlan_eq planned)
      exact ⟨found, rfl, scalarType?_compound.mpr ⟨source, _, isTarget, sourceTyped, computes⟩⟩
  | update op before place position known =>
    obtain ⟨slot, found, isVariable, bound⟩ := known
    have isTarget := Frame.types_eq isVariable
    simp only [Expr.typed, Typed.ofValue] at typed
    split at typed
    · next inInt =>
      cases typed
      rw [Site.intVariable?_of_binding bound] at inInt
      obtain ⟨rfl, _⟩ := Option.ite_none_right_eq_some.mp inInt
      exact ⟨.int, rfl, scalarType?_update.mpr ⟨_, isTarget, rfl⟩⟩
    · simp only [Typed.place_of_binding bound, bind_eq_ok, pure_eq_ok] at typed
      obtain ⟨_, same, numeric, isNumber, rfl⟩ := typed
      cases same
      obtain ⟨integral, promoted, _⟩ :=
        FieldType.promoted?_of_numeric (separate.isScalar isTarget) (updateType_numeric isNumber)
      exact ⟨found, rfl, scalarType?_update.mpr ⟨integral, isTarget, promoted⟩⟩
  | not position isOperand ih =>
    simp only [Expr.typed, Typed.ofValue, bind_eq_ok, pure_eq_ok] at typed
    obtain ⟨_, condition, rfl⟩ := typed
    obtain ⟨_, same, operandTyped⟩ := ih (Typed.condition_eq_ok condition)
    cases same
    exact ⟨.boolean, rfl, scalarType?_not.mpr ⟨operandTyped, rfl⟩⟩
  | @unary op operand position isNumeric isOperand ih =>
    have typed : (do
        let type ← unaryType op (← (operand.typed site scope).value) position
        return StaticType.value type.type) = Except.ok type := by
      cases op with
      | not => exact absurd rfl isNumeric
      | _ => exact typed
    simp only [bind_eq_ok, pure_eq_ok] at typed
    obtain ⟨_, isTyped, _, isUnary, rfl⟩ := typed
    obtain ⟨source, rfl, operandTyped⟩ := ih isTyped
    obtain ⟨integral, promoted, rfl⟩ :=
      Lowered.unaryType_eq (separate.isScalar_type isOperand operandTyped) isUnary
    exact ⟨integral.type, by rw [Integral.type_numeric],
      (scalarType?_unary isNumeric).mpr ⟨source, integral, operandTyped, promoted, rfl⟩⟩
  | compute position total isLeft isRight ihLeft ihRight =>
    simp only [Expr.typed, Typed.ofValue, bind_eq_ok] at typed
    obtain ⟨_, left, _, right, typed⟩ := typed
    obtain ⟨first, rfl, leftTyped⟩ := ihLeft left
    obtain ⟨second, rfl, rightTyped⟩ := ihRight right
    have firstScalar := separate.isScalar_type isLeft leftTyped
    have secondScalar := separate.isScalar_type isRight rightTyped
    simp only [joinsStrings_scalar firstScalar secondScalar, Bool.false_eq_true, if_false,
      bind_eq_ok, pure_eq_ok] at typed
    obtain ⟨plan, planned, rfl⟩ := typed
    obtain ⟨computes, _⟩ :=
      ComputePlan.type?_eq total firstScalar secondScalar (computePlan_eq planned)
    exact ⟨plan.result, rfl,
      scalarType?_compute.mpr ⟨first, second, leftTyped, rightTyped, computes⟩⟩
  | compare comparison position isLeft isRight ihLeft ihRight =>
    simp only [Expr.typed, Typed.ofValue, bind_eq_ok, pure_eq_ok] at typed
    obtain ⟨_, left, _, right, _, planned, rfl⟩ := typed
    obtain ⟨first, rfl, leftTyped⟩ := ihLeft left
    obtain ⟨second, rfl, rightTyped⟩ := ihRight right
    obtain ⟨compares, _⟩ := ComparisonPlan.of?_cases (separate.isScalar_type isLeft leftTyped)
      (separate.isScalar_type isRight rightTyped) (comparisonPlan_eq planned)
    exact ⟨.boolean, rfl,
      scalarType?_compare.mpr ⟨first, second, leftTyped, rightTyped, compares, rfl⟩⟩
  | logical op position isLeft isRight ihLeft ihRight =>
    simp only [Expr.typed, Typed.ofValue, bind_eq_ok, pure_eq_ok] at typed
    obtain ⟨_, left, _, right, rfl⟩ := typed
    obtain ⟨_, same, leftTyped⟩ := ihLeft (Typed.condition_eq_ok left)
    cases same
    obtain ⟨_, same, rightTyped⟩ := ihRight (Typed.condition_eq_ok right)
    cases same
    exact ⟨.boolean, rfl, scalarType?_logical.mpr ⟨leftTyped, rightTyped, rfl⟩⟩
  | conditional position isTest isFirst isSecond ihTest ihFirst ihSecond =>
    simp only [Expr.typed, Typed.ofValue, bind_eq_ok, pure_eq_ok] at typed
    obtain ⟨_, isFirstType, _, isSecondType, _, isCommon, _, condition, rfl⟩ := typed
    obtain ⟨first, rfl, firstTyped⟩ := ihFirst isFirstType
    obtain ⟨second, rfl, secondTyped⟩ := ihSecond isSecondType
    obtain ⟨_, same, testTyped⟩ := ihTest (Typed.condition_eq_ok condition)
    cases same
    obtain ⟨result, rfl, isOutcome⟩ := outcomeType?_of_conditional
      (separate.isScalar_type isFirst firstTyped) (separate.isScalar_type isSecond secondTyped)
      (conditionalType_eq isCommon)
    exact ⟨result, rfl, scalarType?_conditional.mpr
      ⟨first, second, testTyped, firstTyped, secondTyped, isOutcome⟩⟩
  | cast position isIntegral isOperand ih =>
    simp only [Expr.typed, Typed.ofValue, bind_eq_ok, Host.typeOf_integral isIntegral] at typed
    obtain ⟨_, same, _, isTyped, typed⟩ := typed
    cases same
    obtain ⟨source, rfl, operandTyped⟩ := ih isTyped
    split at typed
    · next planned =>
      cases typed
      obtain ⟨_, numbers, _⟩ := Lowered.castPlan?_eq (separate.isScalar_type isOperand operandTyped)
        (TypeRef.isIntegral_of_integral isIntegral) planned
      exact ⟨_, rfl, (scalarType?_cast isIntegral).mpr ⟨source, operandTyped, numbers, rfl⟩⟩
    · cases typed

end MethodPatch
