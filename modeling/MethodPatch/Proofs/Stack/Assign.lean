/-
**How assignments and calls move the stack.**

An assignment has the operands of its place beneath everything else. They are duplicated when the
place is read before it is written, and the value that is wanted is copied beneath them.

* `emits_assign`, `emits_update`: with and without the value;
* `raises_call`: a call takes its receiver and its arguments.
-/

import MethodPatch.Proofs.Stack.Operators

namespace MethodPatch

open Generator

variable {base before after : Generator} {slots : Nat} {done : Unit} {position : Position}
  {site : Site} {type : StaticType} {wanted : Bool}

/-- The slots of what stands in front of the name of a method. -/
def Receiver.width : Receiver → Nat
  | .object => 1
  | _ => 0

theorem Host.receiver_dispatch (host : Host) (method : MethodRef) :
    (host.dispatch method).receiver = if method.isStatic then 0 else 1 := by
  unfold dispatch
  split
  · rfl
  · split
    · rfl
    · split <;> rfl

theorem MethodRef.width_resultType (method : MethodRef) :
    method.resultType.width = method.signature.resultSlots := by
  unfold resultType Signature.resultSlots
  cases method.signature.result <;> rfl

namespace Lowered

variable {target value operand : Lowered} {targetTyped valueTyped operandTyped : Typed}

/-- The value of a place becomes the one that is stored, whatever the operator is. -/
theorem raises_combine {op : ComputeOp} {place : Place} {valueType : StaticType} {source : Expr}
    (sound : value.Sound valueTyped) (isValue : valueTyped.value = .ok valueType)
    (raises : base.Raises (slots + place.type.width) before)
    (yields : Yields (Lowered.combine op place.type valueType value position) before done after) :
    Typed.assignment site place (some op) source valueType position = .ok (.value place.type) ∧
      base.Raises (slots + place.type.width) after := by
  simp only [Lowered.combine, yields_ite] at yields
  simp only [Typed.assignment]
  obtain ⟨joins, yields⟩ | ⟨computes, yields⟩ := yields
  · rw [if_pos joins]
    have isString : place.type = .string := eq_of_beq joins.2
    simp only [yields_bind] at yields
    obtain ⟨_, _, begun, type, _, operand, _, _, appended, built⟩ := yields
    rw [isString] at raises ⊢
    have raises := raises_builderOfString raises begun
    obtain ⟨known, raises⟩ := sound.value raises operand
    cases isValue.symm.trans known
    have notVoid : valueType ≠ .void := by
      rintro rfl
      obtain ⟨_, none, _⟩ := yields_append appended
      cases none
    refine ⟨?_, raises_builtString (raises_append raises appended) built⟩
    rw [requireValue, if_neg notVoid]
    rfl
  · rw [if_neg computes]
    simp only [yields_bind, yields_liftExcept, Emit.yields_instrs, Emit.yields_instr] at yields
    obtain ⟨plan, _, ⟨planned, rfl⟩, _, _, rfl, _, _, operand, _, _, rfl, rfl⟩ := yields
    obtain ⟨becomesLeft, becomesRight⟩ := ComputePlan.converts (computePlan_eq planned)
    have raises := raises_conversion becomesLeft raises
    have raises := raises_convertedTo (.value plan.right) sound
      (fun _ known => Except.ok.inj (isValue.symm.trans known) ▸ becomesRight) raises operand
    have back : (StaticType.value plan.result).Converts place.type := by
      rcases becomesLeft with same | numbers | references
      · exact .inl same.symm
      · exact .inr (.inl numbers.symm)
      · exact .inr (.inr references.symm)
    refine ⟨?_, raises_conversion back (raises_plan raises)⟩
    rw [planned]
    rfl

/-- The value that is stored is left beneath the operands of its place if it is copied. -/
theorem raises_store {place : Place} {copies : Bool}
    (raises : base.Raises (slots + place.operands + place.type.width) before)
    (stored : (copies = true ∧ ∃ (_ : Unit) (middle : Generator), middle = before.push place.copyValue ∧
        ∃ (done : Unit) (written : Generator), Yields (Emit.write place) middle done written ∧
          type = .value place.type ∧ after = written) ∨
      (¬ copies = true ∧ ∃ (done : Unit) (written : Generator),
        Yields (Emit.write place) before done written ∧
          type = .value place.type ∧ after = written)) :
    type = .value place.type ∧ base.Raises (slots + if copies then type.width else 0) after := by
  obtain ⟨isCopied, _, _, rfl, _, _, written, rfl, rfl⟩ | ⟨notCopied, _, _, written, rfl, rfl⟩ :=
    stored
  · rw [if_pos isCopied]
    exact ⟨rfl, raises_write (raises_copyValue raises) written⟩
  · rw [if_neg notCopied]
    exact ⟨rfl, raises_write raises written⟩

theorem emits_assign {op : Option ComputeOp} {source : Expr} (place : target.Sound targetTyped)
    (sound : value.Sound valueTyped) :
    Emits wanted
      (Lowered.assign site target op source valueTyped.value value position wanted) (do
        let place ← targetTyped.place
        let valueType ← valueTyped.value
        Typed.assignment site place op source valueType position) := by
  intro base slots before type after raises yields
  have whole : ∃ found valueType, targetTyped.place = .ok found ∧
      valueTyped.value = .ok valueType ∧
      Typed.assignment site found op source valueType position = .ok (.value found.type) ∧
      type = .value found.type ∧
      base.Raises (slots + if wanted then type.width else 0) after := by
    cases op with
    | none =>
      simp only [Lowered.assign, yields_bind, yields_liftExcept, Emit.yields_instrs,
        Emit.yields_instr, yields_ite, yields_pure] at yields
      obtain ⟨found, _, isPlace, valueType, _, isValue, instrs, _, ⟨coerced, rfl⟩, _, _, rfl,
        stored⟩ := yields
      obtain ⟨placeTyped, raises⟩ := place.place raises isPlace
      obtain ⟨known, raises⟩ := sound.value raises isValue
      obtain ⟨same, raises⟩ := raises_store (raises_coercion coerced raises) stored
      refine ⟨found, valueType, placeTyped, known, ?_, same, raises⟩
      simp only [Typed.assignment]
      rw [coerced]
      rfl
    | some op =>
      simp only [Lowered.assign, yields_bind, yields_liftExcept, Emit.yields_instrs,
        Emit.yields_instr, yields_ite, yields_pure] at yields
      obtain ⟨found, _, isPlace, _, _, rfl, _, _, read, valueType, _, ⟨known, rfl⟩, _, _, combined,
        stored⟩ := yields
      obtain ⟨placeTyped, raises⟩ := place.place raises isPlace
      have raises := raises_read (raises_copyOperands raises) read
      obtain ⟨assigned, raises⟩ := raises_combine sound known raises combined
      obtain ⟨same, raises⟩ := raises_store raises stored
      exact ⟨found, valueType, placeTyped, known, assigned, same, raises⟩
  obtain ⟨found, valueType, placeTyped, known, assigned, same, raises⟩ := whole
  rw [placeTyped, known, same]
  exact ⟨assigned, same ▸ raises⟩

theorem emits_increment {slot : Slot} {delta : Int16} :
    Emits wanted (Lowered.increment slot delta wanted) (.ok (.value .int)) := by
  intro base slots before type after raises yields
  simp only [Lowered.increment, yields_bind, Emit.yields_instr, yields_ite, yields_pure] at yields
  have changed : base.Raises slots (before.push (.iinc slot delta)) :=
    raises.push rfl (Nat.zero_le _) rfl
  obtain ⟨_, _, rfl, ⟨isWanted, _, _, rfl, rfl, rfl⟩ | ⟨notWanted, rfl, rfl⟩⟩ := yields
  · rw [if_pos isWanted]
    exact ⟨rfl, raises_load slot changed⟩
  · rw [if_neg notWanted]
    exact ⟨rfl, changed⟩

theorem emits_updateVariable {op : UpdateOp} {before : Bool} {slot : Slot} :
    Emits wanted (Lowered.updateVariable op before slot wanted) (.ok (.value .int)) := by
  intro base slots start type after raises yields
  have changes : ∀ {count : Nat} {middle : Generator} (delta : Int16), base.Raises count middle →
      base.Raises count (middle.push (.iinc slot delta)) :=
    fun _ raises => raises.push rfl (Nat.zero_le _) rfl
  have loads : ∀ {count : Nat} {middle : Generator}, base.Raises count middle →
      base.Raises (count + 1) (middle.push (.load .int slot)) :=
    fun raises => raises.push rfl (Nat.zero_le _) rfl
  simp only [Lowered.updateVariable, yields_bind, Emit.yields_instr, yields_ite, yields_pure]
    at yields
  cases wanted <;> cases before <;>
    simp only [Bool.and_true, Bool.and_false, Bool.not_true, Bool.not_false, Bool.false_eq_true,
      not_true_eq_false, not_false_eq_true, true_and, false_and, or_false, false_or] at yields
  · obtain ⟨_, _, rfl, rfl, rfl⟩ := yields
    exact ⟨rfl, changes _ raises⟩
  · obtain ⟨_, _, rfl, rfl, rfl⟩ := yields
    exact ⟨rfl, changes _ raises⟩
  · obtain ⟨_, _, rfl, _, _, rfl, rfl, rfl⟩ := yields
    exact ⟨rfl, changes _ (loads raises)⟩
  · obtain ⟨_, _, rfl, _, _, rfl, rfl, rfl⟩ := yields
    exact ⟨rfl, loads (changes _ raises)⟩

/-- The value of a place becomes the one that is one more or less. -/
theorem raises_step {source : FieldType} {numeric : Numeric} {op : Arithmetic}
    (isNumber : source.numeric? = some numeric)
    (raises : base.Raises (slots + source.width) before) :
    base.Raises (slots + source.width)
      ((((before.pushAll (conversion source numeric.type)).push (oneOf numeric)).push
        (.arithmetic op numeric)).pushAll (conversion numeric.type source)) := by
  have there : (StaticType.value source).Converts numeric.type :=
    converts_numeric numeric (by rw [isNumber]; rfl)
  have back : (StaticType.value numeric.type).Converts source := by
    refine .inr (.inl ⟨?_, by rw [isNumber]; rfl⟩)
    rw [Numeric.numeric?_type]
    rfl
  have raises := raises_conversion there raises
  rw [FieldType.width_numeric] at raises
  have one : base.Raises (slots + numeric.width + numeric.width)
      ((before.pushAll (conversion source numeric.type)).push (oneOf numeric)) := by
    cases numeric <;> exact raises.push rfl (Nat.zero_le _) rfl
  refine raises_conversion back ((one.push rfl ?_ ?_) : base.Raises (slots + _) _)
  · simp only [Instr.pops]
    omega
  · simp only [Instr.pops, Instr.pushes, StaticType.width, FieldType.width_numeric]
    omega

theorem emits_update {op : UpdateOp} {before : Bool} (place : target.Sound targetTyped) :
    Emits wanted (Lowered.update op before target position wanted) (do
      let place ← targetTyped.place
      let _ ← updateType op place.type position
      return .value place.type) := by
  intro base slots start type after raises yields
  simp only [Lowered.update, yields_bind, yields_liftExcept, Emit.yields_instrs,
    Emit.yields_instr, yields_ite, yields_pure] at yields
  obtain ⟨found, _, isPlace, numeric, _, ⟨isNumber, rfl⟩, _, _, rfl, _, _, read, yields⟩ := yields
  obtain ⟨placeTyped, raises⟩ := place.place raises isPlace
  have raises := raises_read (raises_copyOperands raises) read
  have typed : (do
      let place ← targetTyped.place
      let _ ← updateType op place.type position
      return StaticType.value place.type) = .ok (.value found.type) := by
    rw [placeTyped]
    show (do
      let _ ← updateType op found.type position
      return StaticType.value found.type) = _
    rw [isNumber]
    rfl
  rw [typed]
  have isNumber := updateType_numeric isNumber
  obtain ⟨copiesBefore, _, _, rfl, _, _, rfl, _, _, rfl, _, _, rfl, _, _, rfl, stored⟩ |
    ⟨keeps, _, _, rfl, _, _, rfl, _, _, rfl, _, _, rfl, stored⟩ := yields
  · simp only [Bool.and_eq_true, Bool.not_eq_true'] at copiesBefore
    obtain ⟨rfl, rfl⟩ := copiesBefore
    obtain ⟨rfl, raises⟩ := raises_store (raises_step isNumber (raises_copyValue raises)) stored
    exact ⟨rfl, raises⟩
  · obtain ⟨rfl, raises⟩ := raises_store (raises_step isNumber raises) stored
    refine ⟨rfl, ?_⟩
    cases wanted <;> cases before <;> first | exact raises | exact absurd rfl keeps

/-! ### Calls -/

theorem raises_argument {host : Host} {source : Expr} {parameter : FieldType}
    (sound : operand.Sound operandTyped) (raises : base.Raises slots before)
    (yields : Yields (Lowered.argument host source operand parameter) before done after) :
    base.Raises (slots + parameter.width) after := by
  simp only [Lowered.argument, yields_bind, yields_liftExcept, Emit.yields_instrs] at yields
  obtain ⟨type, _, value, instrs, _, ⟨coerced, rfl⟩, rfl⟩ := yields
  exact raises_coercion coerced (sound.value raises value).2

theorem raises_call {method : MethodRef} {receiver : Receiver}
    {arguments : List FieldType → Emit Unit}
    (allowed : method.isStatic = false → receiver ≠ .classRef)
    (pass : ∀ {base : Generator} {slots before done after}, base.Raises slots before →
      Yields (arguments method.signature.parameters) before done after →
        base.Raises (slots + method.signature.slots) after)
    (raises : base.Raises (slots + receiver.width) before)
    (yields : Yields (Lowered.call site method receiver arguments) before type after) :
    type = method.resultType ∧ base.Raises (slots + method.resultType.width) after := by
  have finish : ∀ {start : Generator},
      base.Raises (slots + if method.isStatic then 0 else 1) start →
      (∃ (done : Unit) (middle : Generator),
        Yields (arguments method.signature.parameters) start done middle ∧
        ∃ (done : Unit) (called : Generator),
          Yields (Emit.invoke (site.host.dispatch method) method) middle done called ∧
            type = method.resultType ∧ after = called) →
      type = method.resultType ∧ base.Raises (slots + method.resultType.width) after := by
    rintro start raises ⟨_, _, passed, _, _, called, rfl, rfl⟩
    have raises := pass raises passed
    rw [← site.host.receiver_dispatch method] at raises
    exact ⟨rfl, method.width_resultType ▸ raises_invoke slots raises called⟩
  simp only [Lowered.call, yields_bind, Emit.yields_instr, yields_ite, yields_pure] at yields
  cases isStatic : method.isStatic <;> cases receiver <;>
    simp only [isStatic, reduceCtorEq, decide_true, decide_false, Bool.not_true, Bool.not_false,
      Bool.and_true, Bool.and_false, Bool.false_eq_true, true_and, false_and, not_true_eq_false,
      not_false_eq_true, or_false, false_or] at yields finish
  case false.implicit =>
    obtain ⟨_, _, loaded, yields⟩ := yields
    exact finish (raises_this raises loaded) yields
  case false.classRef => exact absurd rfl (allowed isStatic)
  case false.object => exact finish raises yields
  case true.implicit => exact finish raises yields
  case true.classRef => exact finish raises yields
  case true.object =>
    obtain ⟨_, _, rfl, yields⟩ := yields
    exact finish (raises_pop raises) yields

end Lowered

end MethodPatch
