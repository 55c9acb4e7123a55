/-
**Code for expressions is composed of primitive actions.**

Each way of lowering an expression is composed of primitive actions if the ways of lowering its
operands are. The induction is on expressions and lists of arguments together.

* `Lowered.Composed`: all ways of lowering an expression are composed;
* `Expr.composed`: **all code for expressions is composed of primitive actions**.
-/

import MethodPatch.Proofs.Composition.Emit

namespace MethodPatch

variable {types : FieldType → Prop} {slots : Storage → Slot → Prop} {site : Site} {scope : Scope}
  {position : Position}

/-- The ways of lowering an expression are composed of primitive actions, and the types and places
that they answer with are from a vocabulary. -/
structure Lowered.Composed (types : FieldType → Prop) (slots : Storage → Slot → Prop) (site : Site)
    (lowered : Lowered) : Prop where
  value : Emit.Composed types slots site lowered.value (StaticType.Over types)
  qualifier : Emit.Composed types slots site lowered.qualifier (Qualifier.Over types)
  branches : ∀ outcome, Emit.Composed types slots site (lowered.branches outcome) fun _ => True
  place : Emit.Composed types slots site lowered.place (Place.Over types slots)
  effect : Emit.Composed types slots site lowered.effect fun _ => True
  append : Emit.Composed types slots site lowered.append fun _ => True

namespace Emit

theorem composed_booleanOf (vocabulary : Vocabulary types) {branches : Emit (List Nat)}
    (test : Composed types slots site branches fun _ => True) :
    Composed types slots site (Emit.booleanOf branches) (StaticType.Over types) :=
  have isType : StaticType.Over types (.value .boolean) := vocabulary.primitive rfl
  test.bind fun whenFalse _ => Composed.depth.bind fun depth _ => .emit rfl <|
    (composed_branch .always).bind fun finish _ => (composed_landHere whenFalse).seq <|
      (Composed.setDepth depth).seq <| .emit rfl <| (composed_landHere [finish]).seq <|
        .pure isType

theorem composed_branchOnValue (type : StaticType) (position : Position) (outcome : Bool) :
    Composed types slots site (Emit.branchOnValue type position outcome) fun _ => True :=
  .check fun _ _ => (composed_branch _).bind fun _ _ => .pure trivial

theorem composed_branchesOf (op : LogicalOp) {left right : Bool → Emit (List Nat)}
    (first : ∀ outcome, Composed types slots site (left outcome) fun _ => True)
    (second : ∀ outcome, Composed types slots site (right outcome) fun _ => True) (outcome : Bool) :
    Composed types slots site (Emit.branchesOf op left right outcome) fun _ => True := by
  unfold Emit.branchesOf
  split
  · exact (first _).bind fun _ _ => (second _).bind fun _ _ => .pure trivial
  · exact (first _).bind fun skips _ => (second _).bind fun _ _ =>
      (composed_landHere skips).seq (.pure trivial)

theorem composed_compareNumbers (type : Numeric) (wanted taken : Comparison) :
    Composed types slots site (Emit.compareNumbers type wanted taken) fun _ => True := by
  cases type with
  | int => exact composed_branch _
  | long | float | double => exact .emit rfl (composed_branch _)

end Emit

open Emit

namespace Lowered

/-! ### Shapes -/

theorem Composed.ofValue (vocabulary : Vocabulary types) (position : Position)
    {value : Emit StaticType} (composed : Emit.Composed types slots site value (StaticType.Over types)) :
    (Lowered.ofValue position value).Composed types slots site where
  value := composed
  qualifier := composed.bind fun _ isOver => .pure isOver
  branches outcome := composed.bind fun type _ => composed_branchOnValue type position outcome
  place := .throw _
  effect := composed.bind fun type _ => composed_instrs (accesses_drop type)
  append := composed.bind fun _ isOver => composed_append vocabulary isOver position

theorem Composed.ofCondition (vocabulary : Vocabulary types) {branches : Bool → Emit (List Nat)}
    (composed : ∀ outcome, Emit.Composed types slots site (branches outcome) fun _ => True) :
    (Lowered.ofCondition position branches).Composed types slots site :=
  { Composed.ofValue vocabulary position (composed_booleanOf vocabulary (composed false)) with
    branches := composed }

theorem Composed.ofQualifier (vocabulary : Vocabulary types) {unknown : String → ReferenceFault}
    {qualifier : Emit Qualifier} {place : Emit Place}
    (stands : Emit.Composed types slots site qualifier (Qualifier.Over types))
    (places : Emit.Composed types slots site place (Place.Over types slots)) :
    (Lowered.ofQualifier position unknown qualifier place).Composed types slots site :=
  { Composed.ofValue vocabulary position
      (stands.bind fun _ isOver => .lift fun _ isValue => Qualifier.over_of_asValue isOver isValue) with
    qualifier := stands
    place := places }

theorem Composed.boolean (vocabulary : Vocabulary types) (value : Bool) :
    (Lowered.boolean position value).Composed types slots site := by
  have isType : StaticType.Over types (.value .boolean) := vocabulary.primitive rfl
  refine { Composed.ofValue vocabulary position
    ((composed_literal (.boolean value)).seq (.pure isType)) with branches := fun outcome => ?_ }
  dsimp only [Lowered.boolean]
  split
  · exact (composed_branch .always).bind fun _ _ => .pure trivial
  · exact .pure trivial

theorem Composed.ofWanted (vocabulary : Vocabulary types) {value : Bool → Emit StaticType}
    (composed : ∀ wanted, Emit.Composed types slots site (value wanted) (StaticType.Over types)) :
    (Lowered.ofWanted position value).Composed types slots site :=
  { Composed.ofValue vocabulary position (composed true) with
    effect := (composed false).seq (.pure trivial) }

section Operands

variable {first second operand : Lowered}

/-! ### Elements and arguments -/

theorem composed_elementPlace (vocabulary : Vocabulary types) (indexPosition position : Position)
    (array : first.Composed types slots site) (index : second.Composed types slots site) :
    Emit.Composed types slots site (elementPlace first second indexPosition position) types :=
  array.value.bind fun _ isOver => .check fun _ found => index.value.bind fun _ _ =>
    .check fun _ _ => .pure (elementType_over vocabulary isOver found)

theorem Composed.element (vocabulary : Vocabulary types) {indexPosition : Position}
    (array : first.Composed types slots site) (index : second.Composed types slots site) :
    (Lowered.element first second indexPosition position).Composed types slots site := by
  have places := composed_elementPlace vocabulary indexPosition position array index
  have isOver : ∀ type, types type → Place.Over types slots (.element type) :=
    fun type isType => ⟨isType, nofun⟩
  have value : Emit.Composed types slots site (do
      let type ← elementPlace first second indexPosition position
      Emit.read (.element type)
      return StaticType.value type) (StaticType.Over types) :=
    places.bind fun type isType => (composed_read (isOver type isType)).seq (.pure isType)
  exact { Composed.ofValue vocabulary position value with
    place := places.bind fun type isType => .pure (isOver type isType) }

theorem composed_argument (host : Host) (argument : Expr) (parameter : FieldType)
    (value : operand.Composed types slots site) :
    Emit.Composed types slots site (Lowered.argument host argument operand parameter) fun _ => True :=
  value.value.bind fun _ _ => .check fun _ coerced => composed_instrs (accesses_coercion coerced)

theorem composed_convertedTo (type : StaticType) (value : operand.Composed types slots site) :
    Emit.Composed types slots site (operand.convertedTo type) fun _ => True := by
  refine value.value.bind fun source _ => ?_
  cases type with
  | value target => exact composed_instrs (accesses_staticConversion source target)
  | void | null => exact .pure trivial

/-! ### Operators -/

theorem composed_comparison (wanted : Comparison) (plan : ComparisonPlan) (right : Expr)
    (left : first.Composed types slots site) (other : second.Composed types slots site) (outcome : Bool) :
    Emit.Composed types slots site (Lowered.comparison wanted plan right first second outcome)
      fun _ => True := by
  cases plan with
  | leftWithNull => exact left.value.bind fun _ _ => composed_branch _
  | rightWithNull => exact other.value.bind fun _ _ => composed_branch _
  | identity => exact left.value.bind fun _ _ => other.value.bind fun _ _ => composed_branch _
  | booleans => exact left.value.bind fun _ _ => other.value.bind fun _ _ => composed_branch _
  | numbers type =>
    refine (composed_convertedTo _ left).seq ?_
    split
    · exact composed_branch _
    · exact (composed_convertedTo _ other).seq (composed_compareNumbers ..)

theorem composed_compute (vocabulary : Vocabulary types) (plan : ComputePlan)
    (left : first.Composed types slots site) (right : second.Composed types slots site) :
    Emit.Composed types slots site (Lowered.compute plan first second) (StaticType.Over types) :=
  (composed_convertedTo _ left).seq <| (composed_convertedTo _ right).seq <|
    .emit (accesses_plan plan) <| .pure (plan.result_over vocabulary)

theorem composed_joined (vocabulary : Vocabulary types) (left : first.Composed types slots site)
    (right : second.Composed types slots site) :
    Emit.Composed types slots site (Lowered.joined first second) (StaticType.Over types) :=
  composed_emptyBuilder.seq <| left.append.seq <| right.append.seq <|
    (composed_builtString vocabulary).seq <| .pure vocabulary.string

/-- An operator that computes, whether it joins strings or not. -/
theorem Composed.compute (vocabulary : Vocabulary types) (op : ComputeOp)
    (found : Except SourceError (StaticType × StaticType)) (left : first.Composed types slots site)
    (right : second.Composed types slots site) :
    Lowered.Composed types slots site
      (let value : Emit StaticType := do
        let (leftType, rightType) ← liftExcept found
        if joinsStrings op leftType rightType then Lowered.joined first second
        else
          let plan ← liftExcept (computePlan op leftType rightType position)
          Lowered.compute plan first second
      { Lowered.ofValue position value with
        append := do
          let (leftType, rightType) ← liftExcept found
          if joinsStrings op leftType rightType then
            first.append
            second.append
          else Emit.append (← value) position }) := by
  have value : Emit.Composed types slots site (do
      let (leftType, rightType) ← liftExcept found
      if joinsStrings op leftType rightType then Lowered.joined first second
      else
        let plan ← liftExcept (computePlan op leftType rightType position)
        Lowered.compute plan first second) (StaticType.Over types) := by
    refine .check fun (leftType, rightType) _ => ?_
    dsimp only
    split
    · exact composed_joined vocabulary left right
    · exact .check fun plan _ => composed_compute vocabulary plan left right
  refine { Composed.ofValue vocabulary position value with append := ?_ }
  refine .check fun (leftType, rightType) _ => ?_
  dsimp only
  split
  · exact left.append.seq right.append
  · exact value.bind fun _ isOver => composed_append vocabulary isOver position

theorem composed_unary (vocabulary : Vocabulary types) (op : UnaryOp) (position : Position)
    (value : operand.Composed types slots site) :
    Emit.Composed types slots site (Lowered.unary op operand position) (StaticType.Over types) := by
  refine value.value.bind fun source _ => .check fun type _ => ?_
  refine (composed_instrs (accesses_staticConversion source type.type)).seq ?_
  have done : Emit.Composed types slots site (Pure.pure (StaticType.value type.type))
      (StaticType.Over types) := .pure (vocabulary.numeric type)
  cases op with
  | minus => exact .emit rfl done
  | plus | not => exact done
  | complement =>
    cases type with
    | long => exact (composed_long _).seq (.emit rfl done)
    | int | float | double => exact (composed_int _).seq (.emit rfl done)

theorem composed_conditional {test : Lowered} {type : StaticType} (isOver : type.Over types)
    (condition : test.Composed types slots site) (left : first.Composed types slots site)
    (right : second.Composed types slots site) :
    Emit.Composed types slots site (Lowered.conditional test first second type) (StaticType.Over types) :=
  (condition.branches false).bind fun whenFalse _ => Composed.depth.bind fun depth _ =>
    (composed_convertedTo type left).seq <| (composed_branch .always).bind fun finish _ =>
      (composed_landHere whenFalse).seq <| (Composed.setDepth depth).seq <|
        (composed_convertedTo type right).seq <| (composed_landHere [finish]).seq <| .pure isOver

theorem composed_cast {target : FieldType} (isType : types target)
    (position : Position) (value : operand.Composed types slots site) :
    Emit.Composed types slots site (Lowered.cast site target operand position)
      (StaticType.Over types) := by
  refine value.value.bind fun source _ => ?_
  have done : Emit.Composed types slots site (Pure.pure (StaticType.value target))
      (StaticType.Over types) := .pure isType
  cases planned : site.host.castPlan? source target with
  | none => exact .throw _
  | some plan =>
    rcases Host.castPlan?_eq planned with ⟨_, rfl⟩ | ⟨className, rfl, _⟩
    · exact (composed_instrs (accesses_staticConversion source target)).seq done
    · exact .refers (.checkCast className) done

theorem composed_instanceOf (vocabulary : Vocabulary types) (target : FieldType)
    (position : Position) (value : operand.Composed types slots site) :
    Emit.Composed types slots site (Lowered.instanceOf target operand position)
      (StaticType.Over types) := by
  refine value.value.bind fun source _ => ?_
  have done : Emit.Composed types slots site (Pure.pure (StaticType.value .boolean))
      (StaticType.Over types) := .pure (vocabulary.primitive rfl)
  split
  · exact .refers (.instanceOf _) done
  · exact .throw _

theorem composed_newArray (vocabulary : Vocabulary types) {element : FieldType}
    (isType : types element) (lengthPosition : Position) (length : operand.Composed types slots site) :
    Emit.Composed types slots site (Lowered.newArray element operand lengthPosition)
      (StaticType.Over types) := by
  refine length.value.bind fun _ _ => .check fun _ _ => ?_
  have done : Emit.Composed types slots site (Pure.pure (StaticType.value (.array element)))
      (StaticType.Over types) := .pure (vocabulary.array.mpr isType)
  split
  · exact .emit rfl done
  · exact .refers (.anewArray _) done
  · exact done

/-! ### Assignments -/

theorem composed_combine (vocabulary : Vocabulary types) (op : ComputeOp) (target : FieldType)
    (valueType : StaticType) (position : Position) (value : operand.Composed types slots site) :
    Emit.Composed types slots site (Lowered.combine op target valueType operand position)
      fun _ => True := by
  unfold Lowered.combine
  split
  · exact (composed_builderOfString vocabulary).seq <| value.value.bind fun _ isOver =>
      (composed_append vocabulary isOver position).seq (composed_builtString vocabulary)
  · exact .check fun plan _ => (composed_instrs (accesses_conversion _ _)).seq <|
      (composed_convertedTo _ value).seq <| .emit (accesses_plan plan) <|
        composed_instrs (accesses_conversion _ _)

theorem composed_store {place : Place} (wanted : Bool) (isOver : place.Over types slots) :
    Emit.Composed types slots site (do
      if wanted then Emit.instr place.copyValue
      Emit.write place
      return StaticType.value place.type) (StaticType.Over types) := by
  have stores : Emit.Composed types slots site (do
      Emit.write place
      return StaticType.value place.type) (StaticType.Over types) :=
    (composed_write isOver).seq (.pure isOver.1)
  cases wanted with
  | false => exact stores
  | true => exact .emit rfl stores

theorem composed_assign (vocabulary : Vocabulary types) (op : Option ComputeOp) (source : Expr)
    (valueType : Except SourceError StaticType) (position : Position) (wanted : Bool)
    (target : first.Composed types slots site) (value : second.Composed types slots site) :
    Emit.Composed types slots site
      (Lowered.assign site first op source valueType second position wanted)
      (StaticType.Over types) := by
  refine target.place.bind fun place isOver => ?_
  cases op with
  | none =>
    exact value.value.bind fun _ _ => .check fun _ coerced =>
      (composed_instrs (accesses_coercion coerced)).seq (composed_store wanted isOver)
  | some op =>
    exact (composed_instrs (accesses_copyOperands place)).seq <| (composed_read isOver).seq <|
      .check fun valueType _ =>
        (composed_combine vocabulary op place.type valueType position value).seq
          (composed_store wanted isOver)

theorem composed_increment (vocabulary : Vocabulary types) {slot : Slot} (isSlot : slots .int slot)
    (delta : Int16) (wanted : Bool) :
    Emit.Composed types slots site (Lowered.increment slot delta wanted) (StaticType.Over types) := by
  have done : Emit.Composed types slots site (Pure.pure (StaticType.value .int))
      (StaticType.Over types) := .pure (vocabulary.primitive rfl)
  refine .emit isSlot ?_
  cases wanted with
  | false => exact done
  | true => exact .emit isSlot done

theorem composed_updateVariable (vocabulary : Vocabulary types) {slot : Slot}
    (isSlot : slots .int slot) (op : UpdateOp) (before wanted : Bool) :
    Emit.Composed types slots site (Lowered.updateVariable op before slot wanted)
      (StaticType.Over types) := by
  have done : Emit.Composed types slots site (Pure.pure (StaticType.value .int))
      (StaticType.Over types) := .pure (vocabulary.primitive rfl)
  cases wanted with
  | false => exact .emit isSlot done
  | true =>
    cases before with
    | false => exact .emit isSlot (.emit isSlot done)
    | true => exact .emit isSlot (.emit isSlot done)

theorem composed_update (op : UpdateOp) (before wanted : Bool)
    (position : Position) (target : operand.Composed types slots site) :
    Emit.Composed types slots site (Lowered.update op before operand position wanted)
      (StaticType.Over types) := by
  refine target.place.bind fun place isOver => .check fun type _ => ?_
  have steps : Emit.Composed types slots site (do
      Emit.instrs (conversion place.type type.type)
      Emit.instr (oneOf type)
      Emit.instr (.arithmetic (if op = .increment then .add else .sub) type)
      Emit.instrs (conversion type.type place.type)
      if wanted && before then Emit.instr place.copyValue
      Emit.write place
      return StaticType.value place.type) (StaticType.Over types) :=
    (composed_instrs (accesses_conversion _ _)).seq <| .emit (accesses_oneOf type) <|
      .emit rfl <| (composed_instrs (accesses_conversion _ _)).seq (composed_store _ isOver)
  refine (composed_instrs (accesses_copyOperands place)).seq <| (composed_read isOver).seq ?_
  cases before with
  | true => cases wanted <;> exact steps
  | false =>
    cases wanted with
    | true => exact .emit rfl steps
    | false => exact steps

/-! ### Calls -/

theorem composed_call {method : MethodRef} {receiver : Receiver}
    {arguments : List FieldType → Emit Unit} (isOver : method.signature.Over types)
    (isCalled : site.Calls (site.host.dispatch method) method)
    (isThis : receiver = .implicit → method.isStatic = false → site.method.isStatic = false)
    (passes : ∀ parameters, Emit.Composed types slots site (arguments parameters) fun _ => True) :
    Emit.Composed types slots site (Lowered.call site method receiver arguments)
      (StaticType.Over types) := by
  have calls : Emit.Composed types slots site (do
      arguments method.signature.parameters
      Emit.invoke (site.host.dispatch method) method
      return method.resultType) (StaticType.Over types) :=
    (passes _).seq ((composed_invoke isOver isCalled).seq (.pure (MethodRef.resultType_over isOver)))
  unfold Lowered.call
  cases receiver with
  | classRef => exact calls
  | object =>
    cases method.isStatic with
    | false => exact calls
    | true => exact .emit rfl calls
  | implicit =>
    cases isStatic : method.isStatic with
    | true => exact calls
    | false => exact (Emit.Composed.this (isThis rfl isStatic)).seq calls

end Operands

end Lowered

/-! ### Expressions -/

theorem Site.int_of_intVariable? (covers : Covers types slots site scope) {target : Expr} {slot : Slot}
    (isVariable : site.intVariable? scope target = some slot) : slots .int slot := by
  unfold Site.intVariable? at isVariable
  split at isVariable
  · split at isVariable <;> cases isVariable
    next isVariable => exact (covers.bound (Site.binding_of_nameUse? isVariable)).2
  · cases isVariable

/-- A method is called on `this` only where there is one. -/
theorem Site.instance_of_calledMethod {owner name : String} {arguments : List StaticType}
    {method : MethodRef} (called : site.calledMethod owner .implicit name arguments position = .ok method)
    (isInstance : method.isStatic = false) : site.method.isStatic = false := by
  unfold Site.calledMethod at called
  obtain ⟨found, _, accepted⟩ := bind_eq_ok.mp called
  split at accepted <;> cases accepted
  next allowed =>
  rw [isInstance] at allowed
  cases isStatic : site.method.isStatic with
  | false => rfl
  | true =>
    rw [isStatic] at allowed
    exact absurd rfl allowed

/-- Objects are made of classes, not of interfaces. -/
theorem Site.class_of_instantiated {written : TypeRef} {className : String}
    (found : site.instantiated written position = .ok className) :
    site.host.isInterface className = false := by
  unfold Site.instantiated at found
  obtain ⟨type, _, accepted⟩ := bind_eq_ok.mp found
  split at accepted
  · dsimp only at accepted
    split at accepted <;> cases accepted
    next isClass => exact Bool.eq_false_iff.mpr isClass
  · cases accepted

open Lowered in
mutual

/-- **All code for expressions is composed of primitive actions.** It accesses the variables of the
scope and `this`, and members whose types are from the vocabulary. -/
theorem Expr.composed (speaks : site.Speaks types) (covers : Covers types slots site scope) :
    (expression : Expr) → expression.Means types site.host →
      (expression.lower site scope).Composed types slots site
  | .literal (.boolean value) position, _ => .boolean speaks.toVocabulary value
  | .literal (.int value) position, _ | .literal (.long value) position, _
  | .literal (.float value) position, _ | .literal (.double value) position, _
  | .literal (.char value) position, _ | .literal (.string value) position, _
  | .literal .null position, _ =>
    .ofValue speaks.toVocabulary position
      ((composed_literal _).seq (.pure (Literal.type_over speaks.toVocabulary _)))
  | .name name position, _ =>
    .ofQualifier speaks.toVocabulary (composed_name speaks covers name position)
      (composed_namePlace speaks covers name position)
  | .this position, _ => .ofValue speaks.toVocabulary position <| .check fun type found => by
    have isInstance : site.method.isStatic = false := by
      unfold Site.thisType at found
      split at found <;> cases found
      next isInstance => exact Bool.eq_false_iff.mpr isInstance
    exact (Emit.Composed.this isInstance).seq (.pure (Site.thisType_over speaks found))
  | .member object name position, meant => by
    have composed := object.composed speaks covers meant
    exact .ofQualifier speaks.toVocabulary
      (composed.qualifier.bind fun front _ => composed_member speaks front name position)
      (composed.qualifier.bind fun front _ => composed_memberPlace speaks front name position)
  | .call none name arguments position, meant =>
    .ofValue speaks.toVocabulary position <| .check fun found _ => .check fun method called =>
      composed_call (Site.calledMethod_over speaks called) (.call called)
        (fun _ isInstance => Site.instance_of_calledMethod called isInstance)
        (arguments_composed speaks covers arguments meant)
  | .call (some callee) name arguments position, meant => by
    have front := callee.composed speaks covers fun type isWritten =>
      meant type (List.mem_append_left _ isWritten)
    have passes := arguments_composed speaks covers arguments fun type isWritten =>
      meant type (List.mem_append_right _ isWritten)
    refine .ofValue speaks.toVocabulary position <| front.qualifier.bind fun qualifier _ =>
      .check fun (owner, receiver) _ => .check fun found _ => .check fun method called =>
        composed_call (Site.calledMethod_over speaks called) (.call called) ?_ passes
    rintro rfl isInstance
    exact Site.instance_of_calledMethod called isInstance
  | .new type arguments position, meant => by
    have isMeant := meant type List.mem_cons_self
    have others : ∀ type ∈ writtenAll arguments, type.Means types site.host := fun type isWritten =>
      meant type (List.mem_cons_of_mem _ isWritten)
    have passes := arguments_composed speaks covers arguments others
    refine .ofValue speaks.toVocabulary position <| .check fun className isClass =>
      .check fun found typed => .check fun method selected => ?_
    have isOver := Site.constructor_over speaks (argumentTypes_over speaks covers arguments others typed)
      selected
    have isType : StaticType.Over types (.value (.object className)) :=
      Site.instantiated_over isMeant isClass
    exact (composed_newObject className).seq <| (passes _).seq <|
      (composed_invoke isOver (.new (Site.class_of_instantiated isClass) selected)).seq (.pure isType)
  | .newArray element length position, meant => by
    have composed := length.composed speaks covers fun type isWritten =>
      meant type (List.mem_cons_of_mem _ isWritten)
    have isMeant := meant element List.mem_cons_self
    exact .ofValue speaks.toVocabulary position <| .check fun type resolved =>
      composed_newArray speaks.toVocabulary (isMeant _ resolved) length.position composed
  | .index array index position, meant =>
    .element speaks.toVocabulary
      (array.composed speaks covers fun type isWritten =>
        meant type (List.mem_append_left _ isWritten))
      (index.composed speaks covers fun type isWritten =>
        meant type (List.mem_append_right _ isWritten))
  | .assign target op value position, meant => by
    have places := target.composed speaks covers fun type isWritten =>
      meant type (List.mem_append_left _ isWritten)
    have stored := value.composed speaks covers fun type isWritten =>
      meant type (List.mem_append_right _ isWritten)
    refine .ofWanted speaks.toVocabulary fun wanted => ?_
    split
    · next isVariable _ =>
      exact composed_increment speaks.toVocabulary (Site.int_of_intVariable? covers isVariable) _ _
    · exact composed_assign speaks.toVocabulary op value _ position wanted places stored
  | .update op before target position, meant => by
    have places := target.composed speaks covers meant
    refine .ofWanted speaks.toVocabulary fun wanted => ?_
    split
    · next isVariable =>
      exact composed_updateVariable speaks.toVocabulary
        (Site.int_of_intVariable? covers isVariable) op before wanted
    · exact composed_update op before wanted position places
  | .unary .not operand position, meant =>
    .ofCondition speaks.toVocabulary fun outcome =>
      (operand.composed speaks covers meant).branches (!outcome)
  | .unary .minus operand position, meant | .unary .plus operand position, meant
  | .unary .complement operand position, meant =>
    .ofValue speaks.toVocabulary position
      (composed_unary speaks.toVocabulary _ position (operand.composed speaks covers meant))
  | .binary (.compare wanted) left right position, meant => by
    have first := left.composed speaks covers fun type isWritten =>
      meant type (List.mem_append_left _ isWritten)
    have second := right.composed speaks covers fun type isWritten =>
      meant type (List.mem_append_right _ isWritten)
    exact .ofCondition speaks.toVocabulary fun outcome => .check fun _ _ => .check fun _ _ =>
      .check fun plan _ => (composed_comparison wanted plan right first second outcome).bind
        fun _ _ => .pure trivial
  | .binary (.compute op) left right position, meant =>
    .compute speaks.toVocabulary op _
      (left.composed speaks covers fun type isWritten =>
        meant type (List.mem_append_left _ isWritten))
      (right.composed speaks covers fun type isWritten =>
        meant type (List.mem_append_right _ isWritten))
  | .logical op left right position, meant => by
    have first := left.composed speaks covers fun type isWritten =>
      meant type (List.mem_append_left _ isWritten)
    have second := right.composed speaks covers fun type isWritten =>
      meant type (List.mem_append_right _ isWritten)
    exact .ofCondition speaks.toVocabulary (composed_branchesOf op first.branches second.branches)
  | .conditional test first second position, meant => by
    have isTest : test.Means types site.host := fun type isWritten =>
      meant type (List.mem_append_left _ (List.mem_append_left _ isWritten))
    have isFirst : first.Means types site.host := fun type isWritten =>
      meant type (List.mem_append_left _ (List.mem_append_right _ isWritten))
    have isSecond : second.Means types site.host := fun type isWritten =>
      meant type (List.mem_append_right _ isWritten)
    have condition := test.composed speaks covers isTest
    have left := first.composed speaks covers isFirst
    have right := second.composed speaks covers isSecond
    refine .ofValue speaks.toVocabulary position <| .check fun _ firstTyped =>
      .check fun _ secondTyped => .check fun type typed => ?_
    have isOver := Host.conditionalType_over speaks.toVocabulary
      ((first.typed_over speaks covers isFirst).value firstTyped)
      ((second.typed_over speaks covers isSecond).value secondTyped) typed
    exact composed_conditional isOver condition left right
  | .cast type operand position, meant => by
    have composed := operand.composed speaks covers fun type isWritten =>
      meant type (List.mem_cons_of_mem _ isWritten)
    have isMeant := meant type List.mem_cons_self
    exact .ofValue speaks.toVocabulary position <| .check fun target resolved =>
      composed_cast (isMeant _ resolved) position composed
  | .instanceOf operand type position, meant => by
    have composed := operand.composed speaks covers fun type isWritten =>
      meant type (List.mem_cons_of_mem _ isWritten)
    exact .ofValue speaks.toVocabulary position <| .check fun target _ =>
      composed_instanceOf speaks.toVocabulary target position composed

/-- The code of arguments is composed of primitive actions. -/
theorem arguments_composed (speaks : site.Speaks types) (covers : Covers types slots site scope) :
    (arguments : List Expr) → (∀ type ∈ writtenAll arguments, type.Means types site.host) →
      ∀ parameters, Emit.Composed types slots site (lowerArguments site scope arguments parameters)
        fun _ => True
  | [], _, _ => .pure trivial
  | _ :: _, _, [] => .pure trivial
  | first :: rest, meant, parameter :: parameters => by
    have composed := first.composed speaks covers fun type isWritten =>
      meant type (List.mem_append_left _ isWritten)
    have behind := arguments_composed speaks covers rest
      (fun type isWritten => meant type (List.mem_append_right _ isWritten)) parameters
    exact (composed_argument site.host first parameter composed).seq behind

end

end MethodPatch
