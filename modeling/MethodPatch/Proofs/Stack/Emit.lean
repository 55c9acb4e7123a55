/-
**How instructions of members, places and calls move the stack.**

For each action that generates code: if the stack is some slots deeper than at the beginning, it is
so many slots deeper behind the action. `base` is where the surrounding code began, so that the
facts are put together without arithmetic on what is below.
-/

import MethodPatch.Proofs.Constants.Growth
import MethodPatch.Proofs.Stack.Raises
import MethodPatch.Proofs.Typing.Converts

namespace MethodPatch

open Generator

variable {base before after : Generator} {slots count : Nat} {done : Unit} {position : Position}

/-! ### Values -/

theorem FieldType.width_element (type : FieldType) : type.element.width = type.width := by
  cases type <;> rfl

theorem FieldType.toNat_width (type : FieldType) : (UInt8.ofNat type.width).toNat = type.width := by
  rw [type.width_eq]
  split <;> rfl

theorem Signature.toNat_resultSlots (signature : Signature) :
    (UInt8.ofNat signature.resultSlots).toNat = signature.resultSlots := by
  unfold resultSlots
  split
  · exact FieldType.toNat_width _
  · rfl

theorem narrowing_eq (source target : FieldType) :
    narrowing source target = [] ∨
      ∃ narrow, narrowing source target = [.narrow narrow] ∧ target.numeric? = some .int := by
  cases target with
  | byte => exact .inr ⟨_, rfl, rfl⟩
  | char => exact .inr ⟨_, rfl, rfl⟩
  | short =>
    simp only [narrowing]
    split
    · exact .inl rfl
    · exact .inr ⟨_, rfl, rfl⟩
  | boolean | int | long | float | double | object | array => exact .inl rfl

theorem raises_conversion {source : StaticType} {target : FieldType}
    (converts : source.Converts target) (raises : base.Raises (slots + source.width) before) :
    base.Raises (slots + target.width) (before.pushAll (source.conversion target)) := by
  cases source with
  | void => cases converts
  | null =>
    rw [FieldType.width_of_reference converts]
    exact raises
  | value type =>
    simp only [StaticType.conversion, conversion, StaticType.width] at raises ⊢
    split
    · next same => exact same ▸ raises
    · next different =>
      rcases converts with same | ⟨isFirst, isSecond⟩ | ⟨isFirst, isSecond⟩
      · exact absurd same different
      · obtain ⟨first, isFirst⟩ := Option.isSome_iff_exists.mp isFirst
        obtain ⟨second, isSecond⟩ := Option.isSome_iff_exists.mp isSecond
        have widened : base.Raises (slots + second.width)
            (before.pushAll (if first = second then [] else [.convert first second])) := by
          rw [FieldType.width_of_numeric isFirst] at raises
          split
          · next same => exact same ▸ raises
          · exact raises.push rfl (by simp [Instr.pops]) (by simp [Instr.pops, Instr.pushes])
        rw [isFirst, isSecond, FieldType.width_of_numeric isSecond]
        rcases narrowing_eq type target with none | ⟨narrow, single, isInt⟩
        · simpa only [none, List.append_nil] using widened
        · cases isSecond.symm.trans isInt
          simp only [single, pushAll, List.foldl_append] at widened ⊢
          exact widened.push rfl (by simp [Instr.pops, Numeric.width])
            (by simp [Instr.pops, Instr.pushes, Numeric.width])
      · have noNumber : type.numeric? = none := by
          cases type <;> first | rfl | cases isFirst
        rw [FieldType.width_of_reference isFirst] at raises
        rw [FieldType.width_of_reference isSecond, noNumber]
        exact raises

theorem raises_coercion {host : Host} {source : StaticType} {target : FieldType} {value : Expr}
    {instrs : List Instr} (coerced : host.coercion source target value = .ok instrs)
    (raises : base.Raises (slots + source.width) before) :
    base.Raises (slots + target.width) (before.pushAll instrs) := by
  rcases Host.coercion?_eq (Host.coercion_eq coerced) with
    ⟨converts, rfl⟩ | ⟨rfl, type, constant, rfl, _, isInt, fits⟩
  · exact raises_conversion converts raises
  · rw [FieldType.width_of_constantFits fits]
    rw [StaticType.width, FieldType.width_of_numeric isInt] at raises
    exact raises

theorem raises_drop {type : StaticType} (raises : base.Raises (slots + type.width) before) :
    base.Raises slots (before.pushAll type.drop) := by
  unfold StaticType.drop
  split
  · next width => rwa [width] at raises
  · next width =>
    rw [width] at raises
    exact raises.push rfl (by simp [Instr.pops, StackOp.slots])
      (by simp [Instr.pops, Instr.pushes, StackOp.slots])
  · next notZero notOne =>
    have two : type.width = 2 := by
      cases type with
      | value type =>
        have width := type.width_eq
        split at width
        · exact width
        · exact absurd width notOne
      | void => exact absurd rfl notZero
      | null => exact absurd rfl notOne
    rw [two] at raises
    exact raises.push rfl (by simp [Instr.pops, StackOp.slots])
      (by simp [Instr.pops, Instr.pushes, StackOp.slots])

theorem raises_number {small : Option Instr} {load : PoolIndex → Instr} {value : Constant}
    (loads : ∀ index, (load index).isTerminator = false ∧ (load index).pops = 0 ∧
      (load index).pushes = count)
    (isSmall : ∀ instr, small = some instr → instr.isTerminator = false ∧ instr.pops = 0 ∧
      instr.pushes = count)
    (raises : base.Raises slots before)
    (yields : Yields (Emit.number small load value) before done after) :
    base.Raises (slots + count) after := by
  unfold Emit.number at yields
  cases small with
  | some instr =>
    simp only [Emit.yields_instr] at yields
    obtain ⟨goesOn, pops, pushes⟩ := isSmall instr rfl
    rw [yields]
    exact raises.push goesOn (by omega) (by omega)
  | none =>
    simp only [yields_bind, Emit.yields_constant, Emit.yields_instr] at yields
    obtain ⟨index, _, ⟨pool, added, rfl⟩, rfl⟩ := yields
    obtain ⟨goesOn, pops, pushes⟩ := loads index
    have grows := Pool.growing_insert value before.body.pool
    rw [added] at grows
    exact (raises.withPool grows).push goesOn (by omega) (by omega)

theorem raises_int {value : Int32} (raises : base.Raises slots before)
    (yields : Yields (Emit.int value) before done after) : base.Raises (slots + 1) after := by
  refine raises_number (fun _ => ⟨rfl, rfl, rfl⟩) (fun instr isSmall => ?_) raises yields
  simp only [smallInt?] at isSmall
  split at isSmall
  · cases isSmall
    exact ⟨rfl, rfl, rfl⟩
  · split at isSmall
    · cases isSmall
      exact ⟨rfl, rfl, rfl⟩
    · split at isSmall <;> cases isSmall
      exact ⟨rfl, rfl, rfl⟩

theorem raises_long {value : Int64} (raises : base.Raises slots before)
    (yields : Yields (Emit.long value) before done after) : base.Raises (slots + 2) after := by
  refine raises_number (fun _ => ⟨rfl, rfl, rfl⟩) (fun instr isSmall => ?_) raises yields
  unfold smallLong? at isSmall
  split at isSmall
  · cases isSmall
    exact ⟨rfl, rfl, rfl⟩
  · split at isSmall <;> cases isSmall
    exact ⟨rfl, rfl, rfl⟩

theorem raises_float {bits : UInt32} (raises : base.Raises slots before)
    (yields : Yields (Emit.float bits) before done after) : base.Raises (slots + 1) after := by
  refine raises_number (fun _ => ⟨rfl, rfl, rfl⟩) (fun instr isSmall => ?_) raises yields
  unfold smallFloat? at isSmall
  split at isSmall
  · cases isSmall
    exact ⟨rfl, rfl, rfl⟩
  · split at isSmall
    · cases isSmall
      exact ⟨rfl, rfl, rfl⟩
    · split at isSmall <;> cases isSmall
      exact ⟨rfl, rfl, rfl⟩

theorem raises_double {bits : UInt64} (raises : base.Raises slots before)
    (yields : Yields (Emit.double bits) before done after) : base.Raises (slots + 2) after := by
  refine raises_number (fun _ => ⟨rfl, rfl, rfl⟩) (fun instr isSmall => ?_) raises yields
  unfold smallDouble? at isSmall
  split at isSmall
  · cases isSmall
    exact ⟨rfl, rfl, rfl⟩
  · split at isSmall <;> cases isSmall
    exact ⟨rfl, rfl, rfl⟩

theorem raises_literal {value : Literal} (raises : base.Raises slots before)
    (yields : Yields (Emit.literal value) before done after) :
    base.Raises (slots + value.type.width) after := by
  cases value with
  | int value => exact raises_int raises yields
  | long value => exact raises_long raises yields
  | float bits => exact raises_float raises yields
  | double bits => exact raises_double raises yields
  | char unit => exact raises_int raises yields
  | string text =>
    simp only [Emit.literal, yields_bind, Emit.yields_constant, Emit.yields_instr] at yields
    obtain ⟨index, _, ⟨pool, added, rfl⟩, rfl⟩ := yields
    have grows := Pool.growing_addString text before.body.pool
    rw [added] at grows
    exact (raises.withPool grows).push rfl (Nat.zero_le _) rfl
  | boolean value =>
    simp only [Emit.literal, Emit.yields_instr] at yields
    rw [yields]
    exact raises.push rfl (Nat.zero_le _) rfl
  | null =>
    simp only [Emit.literal, Emit.yields_instr] at yields
    rw [yields]
    exact raises.push rfl (Nat.zero_le _) rfl

/-! ### Members and places -/

theorem raises_load {type : FieldType} (slot : Slot) (raises : base.Raises slots before) :
    base.Raises (slots + type.width) (before.push (.load type.storage slot)) :=
  raises.push rfl (Nat.zero_le _) rfl

theorem raises_this (raises : base.Raises slots before)
    (yields : Yields Emit.this before done after) : base.Raises (slots + 1) after := by
  simp only [Emit.this, Emit.yields_instr] at yields
  rw [yields]
  exact raises.push rfl (Nat.zero_le _) rfl

theorem yields_field {ofClass ofObject : FieldAccess} {field : FieldRef}
    (yields : Yields (Emit.field ofClass ofObject field) before done after) :
    ∃ pool index, before.body.pool.Grows pool ∧ after = (before.withPool pool).push
      (.field (if field.isStatic then ofClass else ofObject) index
        (UInt8.ofNat field.type.width)) := by
  simp only [Emit.field, yields_bind, Emit.yields_constant, Emit.yields_instr] at yields
  obtain ⟨index, _, ⟨pool, added, rfl⟩, rfl⟩ := yields
  have grows := Pool.growing_addMember .field field.owner field.name field.type.descriptor
    before.body.pool
  rw [show Pool.addMember .field = Pool.addField from rfl, added] at grows
  exact ⟨pool, index, grows, rfl⟩

theorem raises_readField {field : FieldRef}
    (raises : base.Raises (slots + if field.isStatic then 0 else 1) before)
    (yields : Yields (Emit.readField field) before done after) :
    base.Raises (slots + field.type.width) after := by
  obtain ⟨pool, index, grows, rfl⟩ := yields_field yields
  have raises := raises.withPool grows
  cases isStatic : field.isStatic <;> rw [isStatic] at raises
  · show base.Raises _ ((before.withPool pool).push (.field .getField index _))
    refine raises.push rfl (Nat.le_add_left _ _) ?_
    simp only [Instr.pops, Instr.pushes, FieldType.toNat_width]
    exact rfl
  · show base.Raises _ ((before.withPool pool).push (.field .getStatic index _))
    refine raises.push rfl (Nat.zero_le _) ?_
    simp only [Instr.pops, Instr.pushes, FieldType.toNat_width]
    exact rfl

theorem raises_read {place : Place} (raises : base.Raises (slots + place.operands) before)
    (yields : Yields (Emit.read place) before done after) :
    base.Raises (slots + place.type.width) after := by
  cases place with
  | «variable» slot type =>
    simp only [Emit.read, Emit.yields_instr] at yields
    rw [yields]
    exact raises_load slot raises
  | field found => exact raises_readField raises yields
  | element type =>
    simp only [Emit.read, Emit.yields_instr] at yields
    rw [yields]
    exact raises.push rfl (by simp [Instr.pops, Place.operands])
      (by simp [Instr.pops, Instr.pushes, Place.operands, Place.type, FieldType.width_element])

theorem raises_write {place : Place}
    (raises : base.Raises (slots + place.operands + place.type.width) before)
    (yields : Yields (Emit.write place) before done after) : base.Raises slots after := by
  cases place with
  | «variable» slot type =>
    simp only [Emit.write, Emit.yields_instr] at yields
    rw [yields]
    exact raises.push rfl (Nat.le_add_left _ _)
      (by simp [Instr.pops, Instr.pushes, Place.operands, Place.type, FieldType.width])
  | field found =>
    obtain ⟨pool, index, grows, rfl⟩ := yields_field yields
    have raises := raises.withPool grows
    simp only [Place.operands, Place.type] at raises
    cases isStatic : found.isStatic <;> rw [isStatic] at raises
    · show base.Raises _ ((before.withPool pool).push (.field .putField index _))
      refine raises.push rfl ?_ ?_ <;>
        simp only [Instr.pops, Instr.pushes, FieldType.toNat_width, Bool.false_eq_true, if_false] <;>
        omega
    · show base.Raises _ ((before.withPool pool).push (.field .putStatic index _))
      refine raises.push rfl ?_ ?_ <;>
        simp only [Instr.pops, Instr.pushes, FieldType.toNat_width, if_true] <;>
        omega
  | element type =>
    simp only [Emit.write, Emit.yields_instr] at yields
    rw [yields]
    simp only [Place.operands, Place.type] at raises
    exact raises.push rfl (by simp [Instr.pops, FieldType.width_element]; omega)
      (by simp [Instr.pops, Instr.pushes, FieldType.width_element]; omega)

theorem Place.operands_cases (place : Place) :
    place.operands = 0 ∨ place.operands = 1 ∨ place.operands = 2 := by
  cases place with
  | «variable» slot type => exact .inl rfl
  | field found => cases isStatic : found.isStatic <;> simp [operands, isStatic]
  | element type => exact .inr (.inr rfl)

theorem raises_copyOperands {place : Place} (raises : base.Raises (slots + place.operands) before) :
    base.Raises (slots + place.operands + place.operands)
      (before.pushAll place.copyOperands) := by
  unfold Place.copyOperands
  rcases place.operands_cases with none | one | two
  · rw [none] at raises ⊢
    exact raises
  · rw [one] at raises ⊢
    exact raises.push rfl (by simp [Instr.pops, StackOp.slots])
      (by simp [Instr.pops, Instr.pushes, StackOp.slots])
  · rw [two] at raises ⊢
    exact raises.push rfl (by simp [Instr.pops, StackOp.slots])
      (by simp [Instr.pops, Instr.pushes, StackOp.slots])

theorem raises_copyValue {place : Place}
    (raises : base.Raises (slots + place.operands + place.type.width) before) :
    base.Raises (slots + place.type.width + place.operands + place.type.width)
      (before.push place.copyValue) := by
  have width : place.type.width = 1 ∨ place.type.width = 2 := by
    rw [place.type.width_eq]
    split <;> simp
  unfold Place.copyValue FieldType.isWide
  rcases place.operands_cases with operands | operands | operands <;>
    rcases width with width | width <;> rw [operands, width] at raises ⊢ <;>
    exact raises.push rfl (by simp [Instr.pops, StackOp.slots])
      (by simp [Instr.pops, Instr.pushes, StackOp.slots])

/-! ### Calls -/

theorem yields_invoke {dispatch : Dispatch} {method : MethodRef}
    (yields : Yields (Emit.invoke dispatch method) before done after) :
    ∃ pool index, before.body.pool.Grows pool ∧
      (pool.Fits → Pool.IsMember dispatch.constant method.owner method.name
        method.signature.descriptor pool index) ∧
      method.signature.parameterSlots ≤ 255 ∧
      after = (before.withPool pool).push (.invoke dispatch index
        method.signature.parameterSlots.toUInt8 (UInt8.ofNat method.signature.resultSlots)) := by
  simp only [Emit.invoke, yields_bind, Emit.yields_constant, Emit.yields_instr, yields_ite,
    Emit.yields_fail] at yields
  obtain ⟨index, _, ⟨pool, added, rfl⟩, ⟨_, _, _, failed, _⟩ | ⟨few, rfl⟩⟩ := yields
  · cases failed
  · have grows : before.body.pool.Grows pool := by
      split at added
      · exact Pool.Growing.grows (Pool.growing_addMember .interfaceMethod _ _ _) added
      · exact Pool.Growing.grows (Pool.growing_addMember .method _ _ _) added
    exact ⟨pool, index, grows, fun fits =>
      dispatch.leaves_constant _ _ _ _ _ _ _ (grows.fits_front fits) added (.refl pool),
      UInt16.not_lt.mp few, rfl⟩

theorem raises_invoke (slots : Nat) {dispatch : Dispatch} {method : MethodRef}
    (raises : base.Raises (slots + dispatch.receiver + method.signature.slots) before)
    (yields : Yields (Emit.invoke dispatch method) before done after) :
    base.Raises (slots + method.signature.resultSlots) after := by
  obtain ⟨pool, index, grows, isMember, few, rfl⟩ := yields_invoke yields
  refine (raises.withPool grows).pushCounted rfl fun counted => ?_
  have called := counted.calls _ (instrs_push _ _ ▸ List.mem_append_right _ List.mem_cons_self)
  have arguments : method.signature.parameterSlots.toUInt8.toNat = method.signature.slots :=
    Signature.toNat_argumentSlots few (called _ _ _ (isMember counted.fits))
  simp only [Instr.pops, Instr.pushes, arguments, Signature.toNat_resultSlots]
  omega

theorem yields_classConstant {name : String} {index : PoolIndex}
    (yields : Yields (Emit.classConstant name) before index after) :
    ∃ pool, before.body.pool.Grows pool ∧ after = before.withPool pool := by
  simp only [Emit.classConstant, Emit.yields_constant] at yields
  obtain ⟨pool, added, rfl⟩ := yields
  have grows := Pool.growing_addClass name before.body.pool
  rw [added] at grows
  exact ⟨pool, grows, rfl⟩

theorem raises_newObject {className : String} (raises : base.Raises slots before)
    (yields : Yields (Emit.newObject className) before done after) :
    base.Raises (slots + 2) after := by
  simp only [Emit.newObject, yields_bind, Emit.yields_instr] at yields
  obtain ⟨index, _, named, _, _, rfl, rfl⟩ := yields
  obtain ⟨pool, grows, rfl⟩ := yields_classConstant named
  have made : base.Raises (slots + 1) ((before.withPool pool).push (.new index)) :=
    (raises.withPool grows).push rfl (Nat.zero_le _) rfl
  exact made.push rfl (by simp [Instr.pops, StackOp.slots])
    (by simp [Instr.pops, Instr.pushes, StackOp.slots])

theorem raises_emptyBuilder (raises : base.Raises slots before)
    (yields : Yields Emit.emptyBuilder before done after) : base.Raises (slots + 1) after := by
  simp only [Emit.emptyBuilder, yields_bind] at yields
  obtain ⟨_, _, made, called⟩ := yields
  exact raises_invoke (slots + 1) (raises_newObject raises made) called

theorem raises_builderOfString (raises : base.Raises (slots + 1) before)
    (yields : Yields Emit.builderOfString before done after) : base.Raises (slots + 1) after := by
  simp only [Emit.builderOfString, yields_bind, Emit.yields_instr, Emit.yields_instrs,
    pushAll_cons, pushAll_nil] at yields
  obtain ⟨_, _, text, index, _, named, _, _, rfl, _, _, rfl, called⟩ := yields
  obtain ⟨pool, grows, rfl⟩ := yields_classConstant named
  refine raises_invoke (slots + 1) ?_ called
  have text := raises_invoke slots raises text
  have made : base.Raises (slots + 2) (push _ (.new index)) :=
    (text.withPool grows).push rfl (Nat.zero_le _) rfl
  have copied : base.Raises (slots + 3) (push _ (.stack .dupX1)) :=
    made.push rfl (by simp [Instr.pops, StackOp.slots])
      (by simp [Instr.pops, Instr.pushes, StackOp.slots])
  exact copied.push rfl (by simp [Instr.pops, StackOp.slots]) rfl

theorem width_appendedType {type : StaticType} {parameter : FieldType}
    (appended : appendedType? type = some parameter) : parameter.width = type.width := by
  unfold appendedType? at appended
  split at appended
  · cases appended
  · cases appended
    rfl
  · cases appended
    rfl
  · cases appended
    rfl
  · next type _ _ =>
    split at appended
    · cases appended
      rfl
    · next reference =>
      cases appended
      simp only [Bool.or_eq_true, not_or, FieldType.isPrimitive, Bool.not_eq_true',
        Bool.not_eq_false] at reference
      exact (FieldType.width_of_reference reference.1).symm

theorem yields_append {type : StaticType}
    (yields : Yields (Emit.append type position) before done after) :
    ∃ parameter, appendedType? type = some parameter ∧
      Yields (Emit.invoke .virtual
        (builderMethod "append" [parameter] (some (.object builderClass)))) before done after := by
  unfold Emit.append at yields
  split at yields
  · exact absurd yields yields_throw
  · next parameter appended => exact ⟨parameter, appended, yields⟩

theorem raises_append {type : StaticType} (raises : base.Raises (slots + 1 + type.width) before)
    (yields : Yields (Emit.append type position) before done after) :
    base.Raises (slots + 1) after := by
  obtain ⟨parameter, appended, called⟩ := yields_append yields
  rw [← width_appendedType appended] at raises
  exact raises_invoke slots raises called

theorem raises_builtString (raises : base.Raises (slots + 1) before)
    (yields : Yields Emit.builtString before done after) : base.Raises (slots + 1) after :=
  raises_invoke slots raises yields

end MethodPatch
