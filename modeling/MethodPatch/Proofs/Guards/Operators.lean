/-
**Guards that hold.**

An operator of the tree either is a relation or computes, and operands that it takes are promoted to
numbers; so the plans of guarded visits are those of the visits without guards, and no guard refuses
anything. Each guarded way to visit an operator is the way without guards.

* `arithmeticPlan?_compute`, `arithmeticInstr?_result`: one plan and one instruction;
* `joined_eq`, `binary_eq`, `assign_eq`, `cast_eq`, …: guarded visits.
-/

import MethodPatch.Visit.Guarded
import MethodPatch.Proofs.Visiting.Operators

namespace MethodPatch

/-! ### Promotion -/

theorem FieldType.unaryPromoted?_eq (type : FieldType) : type.unaryPromoted? = type.numeric?.map Numeric.type := by
  cases type <;> rfl

theorem FieldType.binaryPromoted?_eq (left right : FieldType) :
    left.binaryPromoted? right = (promotion? left right).map Numeric.type := by
  cases left <;> cases right <;> rfl

/-- A promoted type is a number. -/
theorem promotedKind_type (type : Numeric) (position : Position) :
    promotedKind type.type position = .ok type := by
  cases type <;> rfl

theorem promotedUpdate_eq (op : UpdateOp) (operand : FieldType) (position : Position) :
    promotedUpdate op operand position = (updateType op operand position).map Numeric.type := by
  unfold promotedUpdate updateType
  rw [FieldType.unaryPromoted?_eq]
  cases operand.numeric? <;> rfl

/-! ### Class constants -/

theorem FieldType.exists_classConstant {type : FieldType} (isReference : type.isReference = true) :
    ∃ name, type.classConstant? = some name :=
  Option.isSome_iff_exists.mp (type.classConstant?_isSome.trans isReference)

theorem FieldType.isReference_of_classConstant {type : FieldType} {name : String}
    (isName : type.classConstant? = some name) : type.isReference = true := by
  rw [← type.classConstant?_isSome, isName]
  rfl

/-! ### Plans -/

/-- What a plan without guards says of the types. -/
def ComputePlan.types (plan : ComputePlan) : ArithmeticPlan := ⟨plan.result, plan.right, plan.result⟩

section Plans

variable {op : ComputeOp} {left right : StaticType} {plan : ComputePlan}

/-- A shift takes whole numbers. -/
theorem arithmeticPlan?_shift (op : Shift) (left right : FieldType) :
    arithmeticPlan? (.compute (.shift op)) (.value left) (.value right) =
      (ComputePlan.ofTypes? (.shift op) left right).map ComputePlan.types := by
  simp only [arithmeticPlan?, BinaryOp.isShift, if_true, FieldType.unaryPromoted?_eq, ComputePlan.ofTypes?]
  cases left.numeric? with
  | none => rfl
  | some value =>
    cases right.numeric? with
    | none => cases value <;> rfl
    | some distance => cases value <;> cases distance <;> rfl

/-- An operator on bits takes whole numbers or two truth values. -/
theorem arithmeticPlan?_bitwise (op : Bitwise) (left right : FieldType) :
    arithmeticPlan? (.compute (.bitwise op)) (.value left) (.value right) =
      (ComputePlan.ofTypes? (.bitwise op) left right).map ComputePlan.types := by
  simp only [arithmeticPlan?, BinaryOp.isShift, BinaryOp.isBitwise, Bool.false_eq_true, if_false,
    Bool.true_and, Bool.and_eq_true, decide_eq_true_eq, ComputePlan.ofTypes?, FieldType.binaryPromoted?_eq]
  split
  · rfl
  · cases promotion? left right with
    | none => rfl
    | some type => cases type <;> rfl

/-- **A guarded plan is the plan without guards.** -/
theorem arithmeticPlan?_compute (op : ComputeOp) (left right : StaticType) :
    arithmeticPlan? (.compute op) left right =
      (ComputePlan.of? op left right).map ComputePlan.types := by
  cases left with
  | value left =>
    cases right with
    | value right =>
      cases op with
      | arithmetic op =>
        simp only [arithmeticPlan?, BinaryOp.isShift, BinaryOp.isBitwise, Bool.false_eq_true,
          if_false, Bool.false_and, FieldType.binaryPromoted?_eq, ComputePlan.of?, ComputePlan.ofTypes?]
        cases promotion? left right <;> rfl
      | shift op => exact arithmeticPlan?_shift op left right
      | bitwise op => exact arithmeticPlan?_bitwise op left right
    | _ => rfl
  | _ => rfl

theorem arithmeticPlan_compute (op : ComputeOp) (left right : StaticType) (position : Position) :
    arithmeticPlan (.compute op) left right position =
      (computePlan op left right position).map ComputePlan.types := by
  unfold arithmeticPlan computePlan
  rw [arithmeticPlan?_compute]
  cases ComputePlan.of? op left right <;> rfl

/-- **What computes has an instruction.** It is the one of the plan without guards. -/
theorem arithmeticInstr?_result (isPlan : ComputePlan.of? op left right = some plan) :
    arithmeticInstr? (.compute op) plan.result = some plan.instr := by
  obtain ⟨left, right, rfl, rfl⟩ : ∃ one other, left = .value one ∧ right = .value other := by
    cases left <;> cases right <;> simp_all [ComputePlan.of?]
  change ComputePlan.ofTypes? op left right = some plan at isPlan
  cases op with
  | arithmetic op =>
    obtain ⟨type, -, rfl⟩ := Option.map_eq_some_iff.mp isPlan
    cases type <;> rfl
  | shift op =>
    simp only [ComputePlan.ofTypes?, Option.bind_eq_bind, Option.bind_eq_some_iff] at isPlan
    obtain ⟨_, _, type, _, _, _, _, _, isPlan⟩ := isPlan
    cases isPlan
    cases type <;> rfl
  | bitwise op =>
    change (if left = .boolean ∧ right = .boolean then some (ComputePlan.booleans op)
      else do return .bitwise op (← (← promotion? left right).integral?)) = some plan at isPlan
    split at isPlan
    · cases isPlan
      rfl
    · simp only [Option.bind_eq_bind, Option.bind_eq_some_iff] at isPlan
      obtain ⟨_, _, type, _, isPlan⟩ := isPlan
      cases isPlan
      cases type <;> rfl

theorem computePlan_eq_ok {position : Position} (isPlan : computePlan op left right position = .ok plan) :
    ComputePlan.of? op left right = some plan := by
  unfold computePlan at isPlan
  split at isPlan
  · next found => rw [found, Except.ok.inj isPlan]
  · cases isPlan

end Plans

theorem BinaryOp.joins_compute (op : ComputeOp) (left right : StaticType) :
    (BinaryOp.compute op).joins left right = joinsStrings op left right := by
  simp [BinaryOp.joins, joinsStrings]

/-! ### Guarded visits -/

namespace Visit

/-- A check comes out as another one whose answer is looked at in some way. -/
theorem lift_map_bind {α β γ : Type} (known : Except SourceError α) (look : α → β)
    (next : β → Visit γ) :
    (liftExcept (known.map look) >>= next : Visit γ) = liftExcept known >>= fun answer => next (look answer) := by
  cases known <;> rfl

/-- Behind a check its answer is known. -/
theorem lift_bind_congr {α γ : Type} {known : Except SourceError α} {next other : α → Visit γ}
    (same : ∀ answer, known = .ok answer → next answer = other answer) :
    (liftExcept known >>= next : Visit γ) = liftExcept known >>= other := by
  cases known with
  | error error => rfl
  | ok answer => exact same answer rfl

theorem classIndex_eq {type : FieldType} {name : String} (isName : type.classConstant? = some name) :
    Visit.classIndex type = Visit.classConstant name := by
  unfold Visit.classIndex
  rw [isName]

theorem arithmetic_eq {op : ComputeOp} {left right : StaticType} {plan : ComputePlan}
    {position : Position} (isPlan : computePlan op left right position = .ok plan) :
    Visit.arithmetic (.compute op) plan.result position = Visit.instr plan.instr := by
  unfold Visit.arithmetic
  rw [arithmeticInstr?_result (computePlan_eq_ok isPlan)]

end Visit

namespace Guarded

open Visit

variable {first second : Visited} {position : Position} {site : Site}

theorem joined_eq : Guarded.joined first second = Visited.joined first second := rfl

theorem compute_eq {op : ComputeOp} {left right : StaticType} {plan : ComputePlan}
    (isPlan : computePlan op left right position = .ok plan) :
    Guarded.compute (.compute op) plan.types first second position =
      Visited.compute plan first second := by
  unfold Guarded.compute Visited.compute
  rw [show plan.types.result = plan.result from rfl, arithmetic_eq isPlan]
  rfl

/-- **An operator that computes is visited as without guards.** -/
theorem binary_eq (op : ComputeOp) :
    Guarded.binary (.compute op) first second position = Visited.binary op first second position := by
  unfold Guarded.binary Visited.binary
  refine bind_congr fun leftType => bind_congr fun rightType => ?_
  rw [BinaryOp.joins_compute, arithmeticPlan_compute, lift_map_bind]
  split
  · exact joined_eq
  · exact lift_bind_congr fun plan isPlan => compute_eq isPlan

theorem appendBinary_eq (op : ComputeOp) :
    Guarded.appendBinary (.compute op) first second position =
      Visited.appendBinary op first second position := by
  unfold Guarded.appendBinary Visited.appendBinary
  refine bind_congr fun leftType => bind_congr fun rightType => ?_
  rw [BinaryOp.joins_compute, binary_eq]

theorem combine_eq (op : ComputeOp) (target : FieldType) :
    Guarded.combine (.compute op) target first position = Visited.combine op target first position := by
  unfold Guarded.combine Visited.combine
  refine bind_congr fun valueType => ?_
  rw [arithmeticPlan_compute, lift_map_bind]
  simp only [BinaryOp.compute.injEq]
  split
  · rfl
  · exact lift_bind_congr fun plan isPlan => by
      rw [show plan.types.result = plan.result from rfl, arithmetic_eq isPlan]
      rfl

theorem assign_eq (op : Option ComputeOp) (source : Expr) :
    Guarded.assign site first (op.map .compute) source second position true =
      Visited.assign site first op source second position := by
  unfold Guarded.assign Visited.assign
  refine bind_congr fun place => ?_
  cases op with
  | none => rfl
  | some op =>
    simp only [Option.map_some, combine_eq]
    rfl

/-- **A promoted type is a number**: `++` and `--` are visited as without guards. -/
theorem update_eq (op : UpdateOp) (before : Bool) :
    Guarded.update op before first position true = Visited.update op before first position := by
  unfold Guarded.update Visited.update
  refine bind_congr fun place => ?_
  rw [promotedUpdate_eq, lift_map_bind]
  refine bind_congr fun type => ?_
  rw [promotedKind_type]
  cases before <;> rfl

/-- **References have class constants**: a cast is visited as without guards. -/
theorem cast_eq (target : FieldType) :
    Guarded.cast site target first position = Visited.cast site target first position := by
  unfold Guarded.cast Visited.cast
  refine bind_congr fun source => ?_
  cases source with
  | void => rfl
  | null =>
    simp only [Host.castPlan?]
    split <;> rfl
  | value type =>
    simp only [Host.castPlan?]
    by_cases numeric : (type.isNumeric && target.isNumeric) = true
    · rw [if_pos numeric, if_pos (by rw [numeric, Bool.or_true])]
    · rw [if_neg numeric]
      by_cases same : type = target
      · subst same
        rw [if_pos rfl, if_pos (by rw [decide_eq_true rfl, Bool.true_or]), conversion, if_pos rfl]
        rfl
      · have different : ¬ (decide (type = target) || type.isNumeric && target.isNumeric) = true := by
          rwa [decide_eq_false same, Bool.false_or]
        rw [if_neg same, if_neg different]
        by_cases references : (type.isReference && target.isReference) = true
        · obtain ⟨name, isName⟩ := FieldType.exists_classConstant (Bool.and_eq_true_iff.mp references).2
          rw [if_pos references, if_pos references, isName, classIndex_eq isName]
          cases site.host.widensReference false type target <;> rfl
        · rw [if_neg references, if_neg references]

theorem instanceOf_eq (target : FieldType) :
    Guarded.instanceOf target first position = Visited.instanceOf target first position := by
  unfold Guarded.instanceOf Visited.instanceOf
  refine bind_congr fun source => ?_
  split
  · next references =>
    obtain ⟨isSource, isTarget⟩ := Bool.and_eq_true_iff.mp references
    obtain ⟨name, isName⟩ := FieldType.exists_classConstant isTarget
    rw [isName, isSource, classIndex_eq isName]
  · next refused =>
    split
    · next name isName isSource =>
      exact absurd (by rw [isSource, FieldType.isReference_of_classConstant isName]; rfl) refused
    · rfl

theorem newArray_eq (element : FieldType) (lengthPosition : Position) :
    Guarded.newArray element first lengthPosition = Visited.newArray element first lengthPosition := by
  unfold Guarded.newArray Visited.newArray
  cases element <;> rfl

end Guarded

end MethodPatch
