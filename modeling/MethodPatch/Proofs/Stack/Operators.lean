/-
**How operators move the stack.**

The operands of an operator are converted to what its plan says, and the plan is the one that was
found for their types; so the instruction behind them finds what it pops. The facts are about sound
operands and say of the result what `Lowered.Sound` asks for.

* `raises_convertedTo`: a value becomes one of the type that a plan converts it to;
* `splits_comparison`, `raises_compute`, `emits_unary`: relations and operators that compute;
* `raises_conditional`: both ways through a conditional leave the same.
-/

import MethodPatch.Proofs.Stack.Lowered

namespace MethodPatch

open Generator

variable {base before after : Generator} {slots : Nat} {done : Unit} {position : Position}
  {site : Site} {type : StaticType}

namespace Lowered

variable {first second operand : Lowered} {firstTyped secondTyped operandTyped : Typed}

theorem raises_convertedTo (type : StaticType) (sound : operand.Sound operandTyped)
    (becomes : ∀ source, operandTyped.value = .ok source → source.Becomes type)
    (raises : base.Raises slots before)
    (yields : Yields (operand.convertedTo type) before done after) :
    base.Raises (slots + type.width) after := by
  simp only [convertedTo, yields_bind] at yields
  obtain ⟨source, _, yields, converted⟩ := yields
  obtain ⟨known, raises⟩ := sound.value raises yields
  have becomes := becomes source known
  cases type with
  | value target =>
    simp only [Emit.yields_instrs] at converted
    rw [converted]
    exact raises_conversion becomes raises
  | void =>
    simp only [yields_pure] at converted
    obtain ⟨_, rfl⟩ := converted
    exact becomes ▸ raises
  | null =>
    simp only [yields_pure] at converted
    obtain ⟨_, rfl⟩ := converted
    exact becomes ▸ raises

theorem splits_compareNumbers {numeric : Numeric} {wanted taken : Comparison} {branch : Nat}
    (raises : base.Raises (2 * numeric.width) before)
    (yields : Yields (Emit.compareNumbers numeric wanted taken) before branch after) :
    base.Splits [branch] after := by
  cases numeric <;>
    simp only [Emit.compareNumbers, yields_bind, Emit.yields_instr, Emit.yields_branch] at yields
  case int =>
    obtain ⟨rfl, rfl⟩ := yields
    exact .branch raises
  case long =>
    obtain ⟨_, _, rfl, rfl, rfl⟩ := yields
    exact .branch (raises.push rfl (Nat.le_refl _) rfl)
  case float =>
    obtain ⟨_, _, rfl, rfl, rfl⟩ := yields
    refine .branch (raises.push rfl ?_ ?_)
    · split <;> exact Nat.le_refl _
    · split <;> rfl
  case double =>
    obtain ⟨_, _, rfl, rfl, rfl⟩ := yields
    refine .branch (raises.push rfl ?_ ?_)
    · split <;> exact Nat.le_refl _
    · split <;> rfl

theorem splits_comparison {wanted : Comparison} {plan : ComparisonPlan} {source : Expr}
    {leftType rightType : StaticType} {outcome : Bool} {branch : Nat}
    (left : first.Sound firstTyped) (right : second.Sound secondTyped)
    (isLeft : firstTyped.value = .ok leftType) (isRight : secondTyped.value = .ok rightType)
    (planned : ComparisonPlan.of? wanted leftType rightType = some plan)
    (yields : Yields (Lowered.comparison wanted plan source first second outcome) before branch
      after) : before.Splits [branch] after := by
  have single := ComparisonPlan.width_operands planned
  have leftRaises : ∀ {type middle}, Yields first.value before type middle →
      before.Raises leftType.width middle := by
    intro type middle yields
    obtain ⟨known, raises⟩ := left.value (.refl before) yields
    cases isLeft.symm.trans known
    simpa using raises
  have rightRaises : ∀ {slots type start middle}, before.Raises slots start →
      Yields second.value start type middle → before.Raises (slots + rightType.width) middle := by
    intro slots type start middle raises yields
    obtain ⟨known, raises⟩ := right.value raises yields
    cases isRight.symm.trans known
    exact raises
  cases plan <;>
    simp only [Lowered.comparison, yields_bind, Emit.yields_branch, yields_ite] at yields
  case leftWithNull =>
    obtain ⟨_, _, value, rfl, rfl⟩ := yields
    have raises := leftRaises value
    rw [(single (by simp)).1] at raises
    refine .branch ?_
    split <;> split <;> exact raises
  case rightWithNull =>
    obtain ⟨_, _, value, rfl, rfl⟩ := yields
    have raises := rightRaises (.refl before) value
    rw [(single (by simp)).2] at raises
    refine .branch ?_
    split <;> split <;> exact raises
  case identity =>
    obtain ⟨_, _, value, _, _, other, rfl, rfl⟩ := yields
    have raises := rightRaises (leftRaises value) other
    rw [(single (by simp)).1, (single (by simp)).2] at raises
    refine .branch ?_
    split <;> split <;> exact raises
  case booleans =>
    obtain ⟨_, _, value, _, _, other, rfl, rfl⟩ := yields
    have raises := rightRaises (leftRaises value) other
    rw [(single (by simp)).1, (single (by simp)).2] at raises
    exact .branch raises
  case numbers type =>
    obtain ⟨becomesLeft, becomesRight⟩ := ComparisonPlan.converts planned
    obtain ⟨_, _, value, yields⟩ := yields
    have raises := raises_convertedTo (.value type.type) left
      (fun _ known => Except.ok.inj (isLeft.symm.trans known) ▸ becomesLeft) (.refl before) value
    obtain ⟨⟨rfl, _⟩, rfl, rfl⟩ | ⟨_, _, _, other, compared⟩ := yields
    · exact .branch raises
    · have raises := raises_convertedTo (.value type.type) right
        (fun _ known => Except.ok.inj (isRight.symm.trans known) ▸ becomesRight) raises other
      refine splits_compareNumbers ?_ compared
      simpa [StaticType.width, FieldType.width_numeric, Nat.two_mul] using raises

theorem raises_plan {plan : ComputePlan}
    (raises : base.Raises (slots + plan.result.width + plan.right.width) before) :
    base.Raises (slots + plan.result.width) (before.push plan.instr) := by
  cases plan with
  | arithmetic op type =>
    simp only [ComputePlan.result, ComputePlan.right, FieldType.width_numeric] at raises ⊢
    exact raises.push rfl (by simp only [ComputePlan.instr, Instr.pops]; omega)
      (by simp only [ComputePlan.instr, Instr.pops, Instr.pushes]; omega)
  | shift op type =>
    simp only [ComputePlan.result, ComputePlan.right, Integral.width_type] at raises ⊢
    rw [show FieldType.int.width = 1 from rfl] at raises
    exact raises.push rfl (by simp only [ComputePlan.instr, Instr.pops]; omega)
      (by simp only [ComputePlan.instr, Instr.pops, Instr.pushes]; omega)
  | bitwise op type =>
    simp only [ComputePlan.result, ComputePlan.right, Integral.width_type] at raises ⊢
    exact raises.push rfl (by simp only [ComputePlan.instr, Instr.pops]; omega)
      (by simp only [ComputePlan.instr, Instr.pops, Instr.pushes]; omega)
  | booleans op => exact raises.push rfl (Nat.le_add_left _ _) rfl

theorem raises_compute {op : ComputeOp} {plan : ComputePlan} {leftType rightType : StaticType}
    (left : first.Sound firstTyped) (right : second.Sound secondTyped)
    (isLeft : firstTyped.value = .ok leftType) (isRight : secondTyped.value = .ok rightType)
    (planned : ComputePlan.of? op leftType rightType = some plan)
    (raises : base.Raises slots before)
    (yields : Yields (Lowered.compute plan first second) before type after) :
    type = .value plan.result ∧ base.Raises (slots + plan.result.width) after := by
  obtain ⟨becomesLeft, becomesRight⟩ := ComputePlan.converts planned
  simp only [Lowered.compute, yields_bind, Emit.yields_instr, yields_pure] at yields
  obtain ⟨_, _, value, _, _, other, _, _, rfl, rfl, rfl⟩ := yields
  have raises := raises_convertedTo (.value plan.result) left
    (fun _ known => Except.ok.inj (isLeft.symm.trans known) ▸ becomesLeft) raises value
  have raises := raises_convertedTo (.value plan.right) right
    (fun _ known => Except.ok.inj (isRight.symm.trans known) ▸ becomesRight) raises other
  exact ⟨rfl, raises_plan raises⟩

theorem raises_joined (left : first.Sound firstTyped) (right : second.Sound secondTyped)
    (raises : base.Raises slots before)
    (yields : Yields (Lowered.joined first second) before type after) :
    type = .value .string ∧ base.Raises (slots + 1) after := by
  simp only [Lowered.joined, yields_bind, yields_pure] at yields
  obtain ⟨_, _, made, _, _, value, _, _, other, _, _, built, rfl, rfl⟩ := yields
  exact ⟨rfl, raises_builtString (right.append (left.append (raises_emptyBuilder raises made) value)
    other) built⟩

/-- Operators that compute, with strings among their operands or without. -/
theorem Sound.compute {op : ComputeOp} (left : first.Sound firstTyped)
    (right : second.Sound secondTyped) :
    Lowered.Sound
      (let types : Except SourceError (StaticType × StaticType) := do
        return (← firstTyped.value, ← secondTyped.value)
      let value : Emit StaticType := do
        let (leftType, rightType) ← liftExcept types
        if joinsStrings op leftType rightType then Lowered.joined first second
        else
          let plan ← liftExcept (computePlan op leftType rightType position)
          Lowered.compute plan first second
      { Lowered.ofValue position value with
        append := do
          let (leftType, rightType) ← liftExcept types
          if joinsStrings op leftType rightType then
            first.append
            second.append
          else Emit.append (← value) position })
      (.ofValue position do
        let leftType ← firstTyped.value
        let rightType ← secondTyped.value
        if joinsStrings op leftType rightType then return .value .string
        let plan ← computePlan op leftType rightType position
        return .value plan.result) := by
  have both : ∀ {types : StaticType × StaticType},
      (do return (← firstTyped.value, ← secondTyped.value)) = Except.ok types →
      firstTyped.value = .ok types.1 ∧ secondTyped.value = .ok types.2 := by
    intro types known
    cases isLeft : firstTyped.value <;> cases isRight : secondTyped.value <;>
      rw [isLeft, isRight] at known <;> cases known
    exact ⟨rfl, rfl⟩
  have emits : Emits true
      (do
        let (leftType, rightType) ←
          liftExcept (do return (← firstTyped.value, ← secondTyped.value))
        if joinsStrings op leftType rightType then Lowered.joined first second
        else
          let plan ← liftExcept (computePlan op leftType rightType position)
          Lowered.compute plan first second)
      (do
        let leftType ← firstTyped.value
        let rightType ← secondTyped.value
        if joinsStrings op leftType rightType then return .value .string
        let plan ← computePlan op leftType rightType position
        return .value plan.result) := by
    intro base slots before type after raises yields
    simp only [yields_bind, yields_liftExcept, yields_ite] at yields
    obtain ⟨⟨leftType, rightType⟩, _, ⟨known, rfl⟩, yields⟩ := yields
    obtain ⟨isLeft, isRight⟩ := both known
    rw [isLeft, isRight]
    show (do
      if joinsStrings op leftType rightType then return StaticType.value .string
      let plan ← computePlan op leftType rightType position
      return StaticType.value plan.result) = _ ∧ _
    obtain ⟨joins, yields⟩ | ⟨computes, plan, _, ⟨planned, rfl⟩, yields⟩ := yields
    · obtain ⟨rfl, raises⟩ := raises_joined left right raises yields
      rw [if_pos joins]
      exact ⟨rfl, raises⟩
    · obtain ⟨rfl, raises⟩ :=
        raises_compute left right isLeft isRight (computePlan_eq planned) raises yields
      rw [if_neg computes, planned]
      exact ⟨rfl, raises⟩
  refine { Sound.ofValue position emits with append := ?_ }
  intro base slots before done after raises yields
  simp only [yields_bind, yields_liftExcept, yields_ite] at yields
  obtain ⟨⟨leftType, rightType⟩, _, ⟨known, rfl⟩, ⟨joins, _, _, value, other⟩ |
    ⟨computes, type, _, value, appended⟩⟩ := yields
  · exact right.append (left.append raises value) other
  · refine raises_append (emits raises ?_).2 appended
    simpa only [yields_bind, yields_liftExcept, yields_ite] using value

theorem emits_unary {op : UnaryOp} (sound : operand.Sound operandTyped) :
    Emits true (Lowered.unary op operand position) (do
      let type ← unaryType op (← operandTyped.value) position
      return .value type.type) := by
  intro base slots before type after raises yields
  simp only [Lowered.unary, yields_bind, yields_liftExcept, Emit.yields_instrs] at yields
  obtain ⟨source, _, value, numeric, _, ⟨isTyped, rfl⟩, _, _, rfl, yields⟩ := yields
  obtain ⟨known, raises⟩ := sound.value raises value
  have raises := raises_conversion (unaryType_converts isTyped) raises
  have typed : (do
      let type ← unaryType op (← operandTyped.value) position
      return StaticType.value type.type) = .ok (.value numeric.type) := by
    rw [known]
    show (do
      let type ← unaryType op source position
      return StaticType.value type.type) = _
    rw [isTyped]
    rfl
  rw [typed]
  rw [FieldType.width_numeric] at raises
  split at yields
  · simp only [yields_bind, Emit.yields_instr, yields_pure] at yields
    obtain ⟨_, _, rfl, rfl, rfl⟩ := yields
    refine ⟨rfl, raises.push rfl ?_ ?_⟩ <;>
      simp [Instr.pops, Instr.pushes, StaticType.width, FieldType.width_numeric]
  · simp only [yields_bind, Emit.yields_instr, yields_pure] at yields
    obtain ⟨_, _, constant, _, _, rfl, rfl, rfl⟩ := yields
    exact ⟨rfl, (raises_long raises constant).push rfl (Nat.le_add_left _ _) rfl⟩
  · simp only [yields_bind, Emit.yields_instr, yields_pure] at yields
    obtain ⟨_, _, constant, _, _, rfl, rfl, rfl⟩ := yields
    have isInt : numeric = .int := by
      rcases unaryType_complement isTyped with isInt | isLong
      · exact isInt
      · exact absurd isLong (by assumption)
    cases isInt
    exact ⟨rfl, (raises_int raises constant).push rfl (Nat.le_add_left _ _) rfl⟩
  · simp only [yields_pure] at yields
    obtain ⟨rfl, rfl⟩ := yields
    simpa [StaticType.width, FieldType.width_numeric] using raises

theorem raises_conditional {test : Lowered} {testTyped : Typed} {result : StaticType}
    (condition : test.Sound testTyped) (holds : first.Sound firstTyped)
    (fails : second.Sound secondTyped)
    (firstBecomes : ∀ source, firstTyped.value = .ok source → source.Becomes result)
    (secondBecomes : ∀ source, secondTyped.value = .ok source → source.Becomes result)
    (raises : base.Raises slots before)
    (yields : Yields (Lowered.conditional test first second result) before type after) :
    testTyped.value = .ok (.value .boolean) ∧ type = result ∧
      base.Raises (slots + result.width) after := by
  simp only [Lowered.conditional, yields_bind, Emit.yields_depth, Emit.yields_branch,
    Emit.yields_landHere, Emit.yields_setDepth, yields_pure] at yields
  obtain ⟨skips, _, tested, _, _, ⟨rfl, rfl⟩, _, _, whenTrue, _, _, ⟨rfl, rfl⟩, _, _, rfl,
    _, _, rfl, _, _, whenFalse, _, _, rfl, rfl, rfl⟩ := yields
  obtain ⟨typed, splits⟩ := condition.branches tested
  have chosen := raises_convertedTo type holds firstBecomes (.refl _) whenTrue
  have other := raises_convertedTo type fails secondBecomes (.refl _) whenFalse
  rw [Nat.zero_add] at chosen other
  exact ⟨typed, rfl, raises.choice splits chosen other⟩

theorem emits_cast {target : FieldType} (sound : operand.Sound operandTyped) :
    Emits true (Lowered.cast site target operand position) (do
      let source ← operandTyped.value
      match site.host.castPlan? source target with
      | some _ => return .value target
      | none => throw (mistyped (.inconvertible source (.value target)) (some position))) := by
  intro base slots before type after raises yields
  simp only [Lowered.cast, yields_bind] at yields
  obtain ⟨source, _, value, yields⟩ := yields
  obtain ⟨known, raises⟩ := sound.value raises value
  rw [known]
  show (match site.host.castPlan? source target with
    | some _ => Except.ok (StaticType.value target)
    | none => throw (mistyped (.inconvertible source (.value target)) (some position))) = _ ∧ _
  cases planned : site.host.castPlan? source target with
  | none =>
    rw [planned] at yields
    exact absurd yields yields_throw
  | some plan =>
    rcases Host.castPlan?_eq planned with ⟨converts, rfl⟩ | ⟨className, rfl, one, other⟩
    · simp only [planned, yields_bind, Emit.yields_instrs, yields_pure] at yields
      obtain ⟨_, _, rfl, rfl, rfl⟩ := yields
      exact ⟨rfl, raises_conversion converts raises⟩
    · simp only [planned, yields_bind, Emit.yields_instr, yields_pure] at yields
      obtain ⟨_, _, named, _, _, rfl, rfl, rfl⟩ := yields
      obtain ⟨pool, grows, rfl⟩ := yields_classConstant named
      rw [one] at raises
      refine ⟨rfl, (raises.withPool grows).push rfl (Nat.le_add_left _ _) ?_⟩
      simp only [if_true, StaticType.width, other]
      rfl

theorem emits_instanceOf {target : FieldType} (sound : operand.Sound operandTyped) :
    Emits true (Lowered.instanceOf target operand position) (do
      let source ← operandTyped.value
      if !(source.isReference && target.isReference) then
        throw (mistyped (.notTestable source target) (some position))
      return .value .boolean) := by
  intro base slots before type after raises yields
  simp only [Lowered.instanceOf, yields_bind] at yields
  obtain ⟨source, _, value, yields⟩ := yields
  obtain ⟨known, raises⟩ := sound.value raises value
  rw [known]
  split at yields
  · next className isClass isReference =>
    simp only [yields_bind, Emit.yields_instr, yields_pure] at yields
    obtain ⟨_, _, named, _, _, rfl, rfl, rfl⟩ := yields
    obtain ⟨pool, grows, rfl⟩ := yields_classConstant named
    have targetReference : target.isReference = true := by
      cases target <;> first | rfl | cases isClass
    rw [StaticType.width_of_reference isReference] at raises
    refine ⟨?_, (raises.withPool grows).push rfl (Nat.le_add_left _ _) rfl⟩
    show (do
      if !(source.isReference && target.isReference) then
        throw (mistyped (.notTestable source target) (some position))
      return StaticType.value .boolean) = _
    rw [isReference, targetReference]
    rfl
  · simp only [yields_bind, yields_throw, false_and, exists_false] at yields

theorem emits_newArray {element : FieldType} {lengthPosition : Position}
    (sound : operand.Sound operandTyped) :
    Emits true (Lowered.newArray element operand lengthPosition) (do
      requireInt (← operandTyped.value) lengthPosition
      return .value (.array element)) := by
  intro base slots before type after raises yields
  simp only [Lowered.newArray, yields_bind, yields_liftExcept] at yields
  obtain ⟨lengthType, _, value, _, _, ⟨isInt, rfl⟩, yields⟩ := yields
  obtain ⟨known, raises⟩ := sound.value raises value
  have typed : (do
      requireInt (← operandTyped.value) lengthPosition
      return StaticType.value (.array element)) = .ok (.value (.array element)) := by
    rw [known]
    show (do
      requireInt lengthType lengthPosition
      return StaticType.value (.array element)) = _
    rw [isInt]
    rfl
  rw [typed]
  rw [if_pos rfl, width_of_requireInt isInt] at raises
  split at yields
  · simp only [yields_bind, Emit.yields_instr, yields_pure] at yields
    obtain ⟨_, _, rfl, rfl, rfl⟩ := yields
    exact ⟨rfl, raises.push rfl (Nat.le_add_left _ _) rfl⟩
  · simp only [yields_bind, Emit.yields_instr, yields_pure] at yields
    obtain ⟨_, _, named, _, _, rfl, rfl, rfl⟩ := yields
    obtain ⟨pool, grows, rfl⟩ := yields_classConstant named
    exact ⟨rfl, (raises.withPool grows).push rfl (Nat.le_add_left _ _) rfl⟩
  · simp only [yields_pure] at yields
    obtain ⟨rfl, rfl⟩ := yields
    exact ⟨rfl, raises⟩

end Lowered

end MethodPatch
